/-
  PagedSearch.Proofs.Session.Feeding

  A scanner that is fed stretches of a page reads their significant
  characters, and taking the places that it reports back to the page gives
  the points of these characters (`significant_placed`), also where a stretch
  is read from its end. So the matches of stretches are what one scan of
  their characters with their points finds (`allMatches_eq`), and the first
  match is the head of their list (`firstMatch?_eq_head?`).
-/
import PagedSearch.Proofs.Document.Significant
import PagedSearch.Proofs.Scan.Resumption
import PagedSearch.Proofs.Scanner.Stream

namespace PagedSearch

/-! ## What a scanner finds -/

namespace Scanner

/-- Feeds stretches one after the other up to the first match. -/
def firstOf? (scanner : Scanner) : List Stretch → Option (Span Place)
  | [] => none
  | st :: parts =>
    match (scanner.feed st.text).advance? with
    | some (_, some span) => some span
    | some (next, none) => next.firstOf? parts
    | none => none

/-- Feeds stretches one after the other and lists all matches. -/
def allOf (scanner : Scanner) : List Stretch → List (Span Place)
  | [] => []
  | st :: parts =>
    match (scanner.feed st.text).drain? with
    | some (next, spans) => spans ++ next.allOf parts
    | none => []

end Scanner

/-- The first match of some stretches. -/
def firstMatch? (s : Settings) (chain : Chain) (page : Nat) (parts : List Stretch) :
    Option Match :=
  ((Scanner.fresh s chain).firstOf? parts).map (Match.ofFed s.direction page parts)

/-- All matches of some stretches. -/
def allMatches (s : Settings) (chain : Chain) (page : Nat) (parts : List Stretch) : List Match :=
  ((Scanner.fresh s chain).allOf parts).map (Match.ofFed s.direction page parts)

/-! ## From places to points -/

theorem pointIn_eq {dir : Direction} {parts : List Stretch} {number offset : Nat} {st : Stretch}
    (h : parts[number - 1]? = some st) :
    pointIn dir parts ⟨number, offset⟩ =
      match dir with
      | .forward => ⟨st.fragment, st.base + offset⟩
      | .backward => ⟨st.fragment, st.base + st.text.length - 1 - offset⟩ := by
  cases dir with
  | forward => simp only [pointIn, h]
  | backward => simp only [pointIn, h]

/-- The characters that a scanner is fed of a stretch, taken back to the page. -/
theorem significant_placed {s : Settings} {parts : List Stretch} {number : Nat} {st : Stretch}
    (h : parts[number - 1]? = some st) :
    (s.significant number st.text).map (fun x => (x.1, pointIn s.direction parts x.2)) =
      st.significant s := by
  -- a character that is not skipped goes to its point, one that is skipped goes nowhere
  have h_place : ∀ dir c offset place, pointIn dir parts place = ⟨st.fragment, offset⟩ →
      Option.map (fun x : Char × Place => (x.1, pointIn dir parts x.2))
        (if s.skips (s.foldChar c) then none else some (s.foldChar c, place)) =
      if s.skips (s.foldChar c) then none else some (s.foldChar c, ⟨st.fragment, offset⟩) := by
    intro dir c offset place h_point
    by_cases h_c : s.skips (s.foldChar c) = true
    · rw [if_pos h_c, if_pos h_c, Option.map_none]
    · rw [if_neg h_c, if_neg h_c, Option.map_some, h_point]
  rw [Settings.significant, List.map_filterMap, Stretch.significant, Settings.pointed,
    @List.zipIdx_eq_map_add _ st.text st.base, List.filterMap_map]
  cases h_dir : s.direction with
  | forward =>
    simp only [Settings.inOrder, h_dir, List.zipIdx_map, List.filterMap_map]
    apply List.filterMap_congr
    rintro ⟨c, i⟩ -
    exact h_place .forward c (st.base + i) ⟨number, i⟩ (pointIn_eq h)
  | backward =>
    simp only [Settings.inOrder, h_dir, List.zipIdx_map, zipIdx_reverse, List.filterMap_map,
      List.filterMap_reverse]
    congr 1
    apply List.filterMap_congr
    rintro ⟨c, i⟩ h_mem
    -- the scanner counts from the end of the stretch, and the page from its start
    refine h_place .backward c (st.base + i) ⟨number, st.text.length - 1 - i⟩ ?_
    have h_lt : i < 0 + st.text.length := List.snd_lt_add_of_mem_zipIdx h_mem
    rw [pointIn_eq h]
    show (⟨_, _⟩ : Point) = ⟨_, _⟩
    rw [Point.mk.injEq]
    exact ⟨rfl, by omega⟩

/-! ## Feeding and scanning -/

namespace Scanner

/-- What a scanner finds in stretches is what one scan finds in their stream. -/
theorem allOf_eq {scanner : Scanner} {chain : Chain} (h_chain : scanner.query.chain = some chain)
    (parts : List Stretch) :
    scanner.allOf parts = (scanner.scan.drain chain
      (scanner.query.settings.stream (scanner.fed + 1) (parts.map Stretch.text))).2 := by
  induction parts generalizing scanner with
  | nil => rfl
  | cons st parts ih =>
    have h_fed : (scanner.feed st.text).query.chain = some chain := h_chain
    rw [allOf, drain?, h_fed, List.map_cons, Settings.stream_cons, Scan.drain_append]
    have h_rest := @ih { scanner with
      fed := scanner.fed + 1
      scan := (scanner.scan.drain chain
        (scanner.query.settings.significant (scanner.fed + 1) st.text)).1
      pending := [] } h_chain
    exact congrArg (_ ++ ·) h_rest

/-- The first match of stretches is the head of the list of their matches. -/
theorem firstOf?_eq_head? {scanner : Scanner} {chain : Chain}
    (h_chain : scanner.query.chain = some chain) (parts : List Stretch) :
    scanner.firstOf? parts = (scanner.allOf parts).head? := by
  induction parts generalizing scanner with
  | nil => rfl
  | cons st parts ih =>
    have h_fed : (scanner.feed st.text).query.chain = some chain := h_chain
    rw [firstOf?, allOf, advance?, drain?, h_fed, Option.map_some, Option.map_some]
    rcases h_advance : (scanner.feed st.text).scan.advance chain (scanner.feed st.text).pending
      with ⟨scan, _ | span, rest⟩
    · -- nothing was found, so both go on with the same scan
      obtain ⟨h_rest, h_drain⟩ := Scan.drain_of_advance_none h_advance
      rw [h_drain, h_rest]
      exact @ih { scanner.feed st.text with scan, pending := [] } h_chain
    · obtain ⟨-, h_drain⟩ := Scan.drain_of_advance_some h_advance
      rw [h_drain]
      rfl

end Scanner

/-- A match on a page from the points where a search found it to begin and end. -/
def Match.ofSpan (dir : Direction) (page : Nat) (span : Span Point) : Match :=
  match dir with
  | .forward => ⟨page, span.first, span.last⟩
  | .backward => ⟨page, span.last, span.first⟩

theorem stream_placed (s : Settings) (parts : List Stretch) :
    (s.stream 1 (parts.map Stretch.text)).map (fun x => (x.1, pointIn s.direction parts x.2)) =
      parts.flatMap (Stretch.significant s) := by
  -- the scanner numbers the stretches from one on
  have h_parts : parts.flatMap (Stretch.significant s) =
      (parts.zipIdx 1).flatMap fun x => x.1.significant s := by
    rw [← List.flatMap_map Prod.fst, List.zipIdx_map_fst]
  rw [h_parts, Settings.stream, List.map_flatMap, List.zipIdx_map, List.flatMap_map]
  apply List.flatMap_congr
  rintro ⟨st, number⟩ h_mem
  rw [List.mk_mem_zipIdx_iff_le_and_getElem?_sub] at h_mem
  exact significant_placed h_mem.2

/-- The matches of stretches are found by one scan of their characters with their points. -/
theorem allMatches_eq (s : Settings) (chain : Chain) (page : Nat) (parts : List Stretch) :
    allMatches s chain page parts =
      (({} : Scan Point).drain chain (parts.flatMap (Stretch.significant s))).2.map
        (Match.ofSpan s.direction page) := by
  have h_spans := @Scan.drain_fresh_moved _ _ chain (pointIn s.direction parts)
    (s.stream 1 (parts.map Stretch.text))
  have h_ofFed : Match.ofFed s.direction page parts =
      Match.ofSpan s.direction page ∘ Span.map (pointIn s.direction parts) := by
    funext span
    cases s.direction with
    | forward => rfl
    | backward => rfl
  rw [stream_placed] at h_spans
  rw [allMatches, @Scanner.allOf_eq (Scanner.fresh s chain) chain rfl, h_ofFed, ← List.map_map]
  exact congrArg (List.map (Match.ofSpan s.direction page)) h_spans.symm

theorem firstMatch?_eq_head? (s : Settings) (chain : Chain) (page : Nat) (parts : List Stretch) :
    firstMatch? s chain page parts = (allMatches s chain page parts).head? := by
  rw [firstMatch?, allMatches, List.head?_map,
    @Scanner.firstOf?_eq_head? (Scanner.fresh s chain) chain rfl]

end PagedSearch
