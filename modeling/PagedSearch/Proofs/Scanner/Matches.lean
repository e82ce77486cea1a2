/-
  PagedSearch.Proofs.Scanner.Matches

  What a scanner reports of the fragments it is fed. It reads their folded
  characters that are not skipped, each with its place, in the order of the
  places (`Settings.reads_iff`). For a literal pattern it picks the
  occurrences of the word greedily from the left (`readAll?_picked`). For any
  chain it reports parts that the symbols read possessively, one behind the
  other (`readAll?_possessive`).
-/
import Mathlib.Data.List.Sort
import PagedSearch.Proofs.Pattern.Literal
import PagedSearch.Proofs.Scan.Literal
import PagedSearch.Proofs.Scan.Possessive
import PagedSearch.Proofs.Scanner.Stream

namespace PagedSearch

/-! ## What is read of fragments -/

/-- The character at `p` is read before the one at `q`. -/
def Place.Before (p q : Place) : Prop :=
  p.fragment < q.fragment ∨ (p.fragment = q.fragment ∧ p.offset < q.offset)

/-- The characters of fragments that a search reads, with their places. Fragments are numbered from
    one, offsets are counted from zero in the order of reading. A character is folded unless letter
    case counts, and it is not read if it is a blank, or a hyphen where these are tolerated. -/
structure Settings.Reads (s : Settings) (fragments : List Text) (stream : List (Char × Place)) :
    Prop where
  characters : stream.map Prod.fst = fragments.flatMap s.word
  places : stream.Pairwise fun x y => x.2.Before y.2
  mem_iff : ∀ c place, (c, place) ∈ stream ↔
    0 < place.fragment ∧ ∃ fragment, fragments[place.fragment - 1]? = some fragment ∧
      ∃ read, (match s.direction with
          | .forward => fragment
          | .backward => fragment.reverse)[place.offset]? = some read ∧
        c = (if s.caseSensitive then read else PagedSearch.foldChar read) ∧
        isInsignificant s.hyphenTolerant c = false

theorem mem_significant {s : Settings} {number : Nat} {fragment : Text} {c : Char} {place : Place} :
    (c, place) ∈ s.significant number fragment ↔ place.fragment = number ∧
      ∃ read, (s.inOrder fragment)[place.offset]? = some read ∧ c = s.foldChar read ∧
        s.skips c = false := by
  rw [Settings.significant, List.mem_filterMap]
  constructor
  · rintro ⟨⟨d, offset⟩, h_mem, h_some⟩
    rw [List.mk_mem_zipIdx_iff_getElem?, List.getElem?_map, Option.map_eq_some_iff] at h_mem
    obtain ⟨read, h_read, rfl⟩ := h_mem
    simp only [Option.ite_none_left_eq_some, Option.some.injEq, Prod.mk.injEq] at h_some
    obtain ⟨h_skips, rfl, rfl⟩ := h_some
    exact ⟨rfl, read, h_read, rfl, Bool.eq_false_iff.2 h_skips⟩
  · rintro ⟨rfl, read, h_read, rfl, h_skips⟩
    refine ⟨(s.foldChar read, place.offset), ?_, ?_⟩
    · rw [List.mk_mem_zipIdx_iff_getElem?, List.getElem?_map, h_read, Option.map_some]
    · exact if_neg (Bool.eq_false_iff.1 h_skips)

/-- The places of a stream go up. -/
theorem stream_pairwise (s : Settings) (n : Nat) (fragments : List Text) :
    (s.stream n fragments).Pairwise fun x y => x.2.Before y.2 := by
  rw [Settings.stream, List.pairwise_flatMap]
  constructor
  · rintro ⟨fragment, number⟩ -
    show (s.significant number fragment).Pairwise _
    rw [Settings.significant, List.pairwise_filterMap]
    refine (zipIdx_pairwise _ 0).imp ?_
    rintro ⟨c, i⟩ ⟨d, j⟩ h_lt x h_x y h_y
    simp only [Option.ite_none_left_eq_some, Option.some.injEq] at h_x h_y
    rw [← h_x.2, ← h_y.2]
    exact .inr ⟨rfl, h_lt⟩
  · refine (zipIdx_pairwise fragments n).imp ?_
    rintro ⟨fragment, i⟩ ⟨fragment', j⟩ h_lt x h_x y h_y
    refine .inl ?_
    rw [(mem_significant.1 h_x).1, (mem_significant.1 h_y).1]
    exact h_lt

theorem significant_map_fst (s : Settings) (number : Nat) (fragment : Text) :
    (s.significant number fragment).map Prod.fst = s.word fragment := by
  have h_word : s.word fragment =
      ((s.inOrder fragment).map s.foldChar).filter fun c => !s.skips c := by
    rw [Settings.word, Settings.significantOf, Settings.fold_eq_map, Settings.inOrder.eq_def,
      Settings.inOrder.eq_def]
    cases s.direction with
    | forward => rfl
    | backward => rw [List.map_reverse, List.filter_reverse]
  rw [h_word, Settings.significant, List.map_filterMap, ← List.filterMap_eq_filter]
  conv_rhs => rw [← List.zipIdx_map_fst 0 ((s.inOrder fragment).map s.foldChar)]
  rw [List.filterMap_map]
  apply List.filterMap_congr
  rintro ⟨c, offset⟩ -
  by_cases h_c : s.skips c = true
  · simp [h_c, Option.guard]
  · simp [h_c, Option.guard]

/-- The characters of a stream are those of the fragments that take part in a search. -/
theorem stream_map_fst (s : Settings) (n : Nat) (fragments : List Text) :
    (s.stream n fragments).map Prod.fst = fragments.flatMap s.word := by
  induction fragments generalizing n with
  | nil => rfl
  | cons fragment fragments ih =>
    rw [Settings.stream_cons, List.map_append, significant_map_fst, ih, List.flatMap_cons]

/-- The stream of fragments is what is read of them. -/
theorem Settings.stream_reads (s : Settings) (fragments : List Text) :
    s.Reads fragments (s.stream 1 fragments) where
  characters := stream_map_fst s 1 fragments
  places := stream_pairwise s 1 fragments
  mem_iff c place := by
    -- the fragment with a number stands one place in front of it in the list
    rw [Settings.stream, List.mem_flatMap]
    constructor
    · rintro ⟨⟨fragment, number⟩, h_mem, h_c⟩
      obtain ⟨rfl, h_read⟩ := mem_significant.1 h_c
      rw [List.mk_mem_zipIdx_iff_le_and_getElem?_sub] at h_mem
      exact ⟨h_mem.1, fragment, h_mem.2, h_read⟩
    · rintro ⟨h_pos, fragment, h_fragment, h_read⟩
      refine ⟨(fragment, place.fragment), ?_, mem_significant.2 ⟨rfl, h_read⟩⟩
      rw [List.mk_mem_zipIdx_iff_le_and_getElem?_sub]
      exact ⟨h_pos, h_fragment⟩

/-- No other list is what is read of fragments. -/
theorem Settings.reads_iff {s : Settings} {fragments : List Text} {stream : List (Char × Place)} :
    s.Reads fragments stream ↔ stream = s.stream 1 fragments := by
  refine ⟨fun h => ?_, fun h => h ▸ s.stream_reads fragments⟩
  -- the places go up in both lists, and both hold the same characters
  have h_irrefl : Std.Irrefl fun x y : Char × Place => x.2.Before y.2 := ⟨fun x h_x => by
    rw [Place.Before] at h_x
    omega⟩
  have h_antisymm : Std.Antisymm fun x y : Char × Place => x.2.Before y.2 := ⟨fun x y h_x h_y => by
    rw [Place.Before] at h_x h_y
    omega⟩
  have h_stream := s.stream_reads fragments
  exact h.places.eq_of_mem_iff h_stream.places fun (c, place) =>
    (h.mem_iff c place).trans (h_stream.mem_iff c place).symm

/-! ## Literal patterns -/

/-- A scanner for a literal pattern picks the occurrences of its word greedily from the left,
    however the text is cut into fragments. The stream that it picks them from is the only list of
    characters and places that is read of the fragments. -/
theorem readAll?_picked (settings : Settings) (pattern : Text) (fragments : List Text)
    (h_mode : settings.mode = .literal)
    (h_compiles : ((Scanner.new settings).compile pattern).2 = none) :
    ∃ last spans,
      ((Scanner.new settings).compile pattern).1.readAll? fragments = some (last, spans) ∧
        Picked (settings.word pattern) (settings.stream 1 fragments) spans ∧
        ∀ stream, settings.Reads fragments stream ↔ stream = settings.stream 1 fragments := by
  cases h_chain : Chain.compile settings pattern with
  | error e =>
    rw [Scanner.compile, Scanner.new, Query.compile, h_chain] at h_compiles
    exact absurd h_compiles (by simp)
  | ok chain =>
    have h_scanner : ((Scanner.new settings).compile pattern).1 =
        { query := { settings, pattern, chain := some chain } } := by
      rw [Scanner.compile, Scanner.new, Query.compile, h_chain]
    have h_spells := Chain.spells_of_compile h_mode h_chain
    rw [h_scanner]
    obtain ⟨last, h_last⟩ := @Scanner.readAll?_eq_drain
      { query := { settings, pattern, chain := some chain } } chain rfl fragments
    exact ⟨last, _, h_last, drain_fresh_picked h_spells 0 _, fun _ => Settings.reads_iff⟩

/-- A word that overlaps itself, met backwards over cuts, hyphens and blanks. -/
theorem readAll?_picked_baa :
    ∃ last spans,
      ((Scanner.new { hyphenTolerant := true, direction := .backward }).compile
          "aA-b".toList).1.readAll?
        ["bx".toList, "a -".toList, [], "Aa bA".toList] = some (last, spans) ∧
      Picked "baa".toList
        (Settings.stream { hyphenTolerant := true, direction := .backward } 1
          ["bx".toList, "a -".toList, [], "Aa bA".toList]) spans ∧
      ∀ stream, Settings.Reads { hyphenTolerant := true, direction := .backward }
          ["bx".toList, "a -".toList, [], "Aa bA".toList] stream ↔
        stream = Settings.stream { hyphenTolerant := true, direction := .backward } 1
          ["bx".toList, "a -".toList, [], "Aa bA".toList] := by
  have h := readAll?_picked { hyphenTolerant := true, direction := .backward } "aA-b".toList
    ["bx".toList, "a -".toList, [], "Aa bA".toList] rfl (by decide +kernel)
  rw [show Settings.word { hyphenTolerant := true, direction := .backward } "aA-b".toList =
    "baa".toList by decide +kernel] at h
  exact h

/-! ## Possessive patterns -/

/-- A scanner for any chain of symbols reports parts of the stream that the symbols read
    possessively, each of them behind the one before. -/
theorem readAll?_possessive (symbols : List Symbol) (chain : Chain)
    (h_chain : Chain.ofSymbols? symbols = .ok chain) (settings : Settings) (pattern : Text)
    (fragments : List Text) :
    ∃ last spans,
      ({ query := { settings, pattern, chain := some chain } } : Scanner).readAll? fragments =
        some (last, spans) ∧
      (∀ span ∈ spans, ∃ before part behind,
        settings.stream 1 fragments = before ++ part ++ behind ∧
        readPossessively symbols ((part ++ behind).map Prod.fst) =
          some (behind.map Prod.fst) ∧
        span.Delimits part) ∧
      spans.Pairwise fun a b => a.last.Before b.first := by
  obtain ⟨last, h_last⟩ := @Scanner.readAll?_eq_drain
    { query := { settings, pattern, chain := some chain } } chain rfl fragments
  have h_found := drain_fresh_found chain 0 (settings.stream 1 fragments)
  rw [Chain.symbols_of_ofSymbols? h_chain] at h_found
  -- the places of the stream go up, so the parts found are in order
  have h_pairwise := h_found.pairwise (stream_pairwise settings 1 fragments)
  exact ⟨last, _, h_last, h_found.reads, h_pairwise.imp And.right⟩

/-- Adjacent repetitions, one of them empty, and a border of the front that survives a fall. -/
theorem readAll?_possessive_aabxc :
    ∃ last spans,
      ({ query := {
          settings := { direction := .backward }
          chain := some ⟨[.char 'a', .char 'a', .many (.char 'b'), .many (.char 'x'), .char 'c'],
            [0, 0, 1, 0, 0], rfl, rfl, by decide +kernel⟩ } } : Scanner).readAll?
        ["b aaa".toList, [], "cb".toList] = some (last, spans) ∧
      (∀ span ∈ spans, ∃ before part behind,
        Settings.stream { direction := .backward } 1 ["b aaa".toList, [], "cb".toList] =
          before ++ part ++ behind ∧
        readPossessively [.char 'a', .char 'a', .many (.char 'b'), .many (.char 'x'), .char 'c']
          ((part ++ behind).map Prod.fst) = some (behind.map Prod.fst) ∧
        span.Delimits part) ∧
      spans.Pairwise fun a b => a.last.Before b.first :=
  readAll?_possessive _ _ (by decide +kernel) _ _ _

end PagedSearch
