/-
  PagedSearch.Proofs.Session.Mirror

  Searching backward is searching forward in the mirror image of the document
  for the reversed pattern. Both searches read the same characters one after
  the other (`reading_mirrored`) with the same chain
  (`Chain.compile_reversePattern`), so they meet mirror images of the same
  matches on every page (`pageMatches_mirrored`); and they visit mirrored
  pages (`pageAt_mirrored`). So one finds the mirror image of what the other
  finds (`find_mirrored`).
-/
import Mathlib
import PagedSearch.Proofs.Document.Mirror
import PagedSearch.Proofs.Query
import PagedSearch.Proofs.Session.Walk
import PagedSearch.Proofs.Text.Lowercase

namespace PagedSearch

/-! ## Pages -/

/-- The significant characters of a mirrored page are those of the page in the opposite order. -/
theorem significantOn_mirrored (s : Settings) (fragments : List Text) :
    s.significantOn (mirrorFragments fragments) =
      ((s.significantOn fragments).map fun x => (x.1, mirrorPoint fragments x.2)).reverse := by
  rw [significantOn_eq, significantOn_eq, charactersOn_mirrored, List.filterMap_reverse,
    List.filterMap_map, List.map_filterMap]
  congr 2
  funext ⟨c, p⟩
  by_cases h_skip : s.skips (s.foldChar c) = true
  · simp only [Function.comp_apply, if_pos h_skip, Option.map_none]
  · simp only [Function.comp_apply, if_neg h_skip, Option.map_some]

/-- The point from which a forward search of a mirrored page goes on. -/
def mirrorResume (fragments : List Text) (resume : Option Point) : Option Point :=
  (resume.bind (firstFrom? fragments)).map (mirrorPoint fragments)

/-- What lies ahead backward lies ahead forward in the mirror image. -/
theorem ahead_mirrored_iff {fragments : List Text} {resume : Option Point} {x : Char × Point}
    (h : x ∈ charactersOn fragments) :
    Direction.forward.Ahead (mirrorResume fragments resume) (mirrorPoint fragments x.2) ↔
      Direction.backward.Ahead resume x.2 := by
  cases resume with
  | none => exact Iff.rfl
  | some p =>
    rw [mirrorResume, Option.bind_some]
    cases h_first : firstFrom? fragments p with
    | none => exact iff_of_true trivial (before_of_firstFrom?_none h_first h)
    | some q =>
      obtain ⟨y, h_y, rfl⟩ := exists_of_firstFrom?_some h_first
      exact (mirrorPoint_before_iff h_y h).trans (before_iff_of_firstFrom?_some h_first h).symm

section

variable {s : Settings} (h_dir : s.direction = .backward)

include h_dir

/-- A backward search of a page reads what a forward search of the mirrored page reads. -/
theorem reading_mirrored (resume : Option Point) (fragments : List Text) :
    (s.turned .forward).reading (mirrorResume fragments resume) (mirrorFragments fragments) =
      (s.reading resume fragments).map fun x => (x.1, mirrorPoint fragments x.2) := by
  have h_forward : (s.turned .forward).significantOn (mirrorFragments fragments) =
      ((s.significantOn fragments).map fun x => (x.1, mirrorPoint fragments x.2)).reverse :=
    significantOn_mirrored (s.turned .forward) fragments
  -- a character lies ahead in the page exactly if its mirror image does
  have h_ahead : (s.significantOn fragments).filter (fun x => decide
      (Direction.forward.Ahead (mirrorResume fragments resume) (mirrorPoint fragments x.2))) =
      (s.significantOn fragments).filter fun x =>
        decide (Direction.backward.Ahead resume x.2) := by
    apply List.filter_congr
    intro x h_x
    obtain ⟨y, h_y, h_point⟩ := exists_of_mem_significantOn h_x
    rw [← h_point]
    exact decide_eq_decide.2 (ahead_mirrored_iff h_y)
  rw [Settings.reading, Settings.reading, Settings.inOrder, Settings.inOrder, h_dir, h_forward]
  show List.filter (fun x : Char × Point => decide (Direction.forward.Ahead _ x.2)) _ = _
  rw [List.filter_reverse, List.filter_map, ← List.map_reverse]
  exact congrArg (fun l => (List.reverse l).map _) h_ahead

/-- The matches that a forward search meets on a mirrored page are the mirror images of those that
    a backward search meets on the page. -/
theorem pageMatches_mirrored {d : Document} {page : Nat} (h_page : page < d.pageCount)
    (chain : Chain) (resume : Option Point) :
    pageMatches (s.turned .forward) chain d.mirror (mirrorResume (d.fragments page) resume)
        (d.mirrorPage page) =
      (pageMatches s chain d resume page).map d.mirrorMatch := by
  have h_match : Match.ofSpan .forward (d.mirrorPage page) ∘
      Span.map (mirrorPoint (d.fragments page)) = d.mirrorMatch ∘ Match.ofSpan .backward page := by
    funext span
    rfl
  -- the scan meets the same characters with mirrored points
  rw [pageMatches_eq, pageMatches_eq, d.mirror_fragments h_page, reading_mirrored h_dir,
    Scan.drain_fresh_moved, List.map_map, List.map_map, s.turned_direction, h_dir, h_match]

end

/-- A step in the mirror image leads to the mirrored page. -/
theorem pageAt_mirrored {d : Document} {page k : Nat} (h_page : page < d.pageCount)
    (h_k : k ≤ d.pageCount) :
    d.mirror.pageAt .forward (d.mirrorPage page) k = d.mirrorPage (d.pageAt .backward page k) := by
  rw [Document.pageAt, Document.pageAt, d.mirror_pageCount, Document.mirrorPage,
    Document.mirrorPage]
  rcases Nat.lt_or_ge page k with h_lt | h_ge
  · -- both have gone around the document
    rw [Nat.mod_eq_sub_mod (by omega), Nat.mod_eq_of_lt (by omega), Nat.mod_eq_of_lt (by omega)]
    omega
  · rw [Nat.mod_eq_of_lt (by omega), Nat.mod_eq_sub_mod (by omega), Nat.mod_eq_of_lt (by omega)]
    omega

/-! ## Patterns -/

/-- Forward, the reversed pattern has the chain that the pattern has backward. -/
theorem Chain.compile_reversePattern {s : Settings} (h_dir : s.direction = .backward)
    {pattern : Text} {chain : Chain} (h : Chain.compile s pattern = .ok chain) :
    Chain.compile (s.turned .forward) (reversePattern s.mode (s.fold pattern)) = .ok chain := by
  -- the reversed pattern has no characters but folded ones
  have h_fold : (s.turned .forward).fold (reversePattern s.mode (s.fold pattern)) =
      reversePattern s.mode (s.fold pattern) :=
    Settings.fold_of_subset fun c h_c => mem_of_mem_reversePattern h_c
  rw [Chain.compile_eq] at h ⊢
  rw [h_fold]
  cases h_symbols : symbolsOf s.lexing (s.fold pattern) with
  | error e =>
    rw [h_symbols] at h
    exact absurd h (by simp [Except.bind])
  | ok symbols =>
    have h_reverse : symbolsOf (s.turned .forward).lexing (reversePattern s.mode (s.fold pattern)) =
        .ok symbols.reverse := symbolsOf_reversePattern h_symbols
    have h_chain : Chain.ofSymbols? (s.inOrder symbols) = .ok chain := by
      rw [h_symbols] at h
      exact h
    rw [Settings.inOrder, h_dir] at h_chain
    rw [h_reverse]
    exact h_chain

/-! ## Sessions -/

namespace Session

/-- The session that searches the mirror image of a document forward for the reversed pattern, from
    the mirrored page and selection on. -/
def mirrored (s : Session) (d : Document) : Session :=
  { s with
    query := (({ settings := s.query.settings.turned .forward } : Query).compile
      (reversePattern s.query.settings.mode (s.query.settings.fold s.query.pattern))).1
    selection := s.selection.bind d.mirrorSelection?
    page := d.mirrorPage s.page }

section

variable {s : Session} {d : Document} {chain : Chain}

theorem mirrored_chain (h_dir : s.query.settings.direction = .backward)
    (h : Chain.compile s.query.settings s.query.pattern = .ok chain) (d : Document) :
    (s.mirrored d).query.chain = some chain := by
  show (Query.compile _ _).1.chain = some chain
  rw [Query.compile, Chain.compile_reversePattern h_dir h]

theorem mirrored_settings (s : Session) (d : Document) :
    (s.mirrored d).query.settings = s.query.settings.turned .forward := by
  show (Query.compile _ _).1.settings = _
  rw [Query.compile]
  split
  · rfl
  · rfl

theorem mirrored_startPage (h_page : s.page < d.pageCount) :
    (s.mirrored d).startPage d.mirror = d.mirrorPage s.page :=
  if_pos (Document.mirrorPage_lt h_page)

/-- The mirrored session goes on from the mirror image of the point that the session goes on
    from. -/
theorem mirrored_resumePoint? (h_dir : s.query.settings.direction = .backward)
    (h_page : s.page < d.pageCount) :
    (s.mirrored d).resumePoint? (d.mirrorPage s.page) =
      mirrorResume (d.fragments s.page) (s.resumePoint? s.page) := by
  have h_selection : (s.mirrored d).selection = s.selection.bind d.mirrorSelection? := rfl
  rw [resumePoint?, resumePoint?, h_selection, mirrored_settings, h_dir]
  cases s.selection with
  | none => rfl
  | some m =>
    rw [Option.bind_some, Document.mirrorSelection?]
    by_cases h_same : m.page = s.page
    · rw [← h_same, mirrorResume]
      simp only [if_true, Option.bind_some]
      cases firstFrom? (d.fragments m.page) m.first with
      | none => rfl
      | some q => exact if_pos rfl
    · simp only [if_neg h_same]
      cases h_first : firstFrom? (d.fragments m.page) m.first with
      | none => rfl
      | some q =>
        -- two pages of the document have two mirror images
        have h_lt := lt_of_firstFrom?_some h_first
        have h_other : d.mirrorPage m.page ≠ d.mirrorPage s.page := by
          rw [Document.mirrorPage, Document.mirrorPage]
          omega
        exact if_neg h_other

/-- What a session has before it backward, its mirror image has before it forward. -/
theorem upcoming_mirrored (h_dir : s.query.settings.direction = .backward)
    (h_page : s.page < d.pageCount) (chain : Chain) :
    (s.mirrored d).upcoming chain d.mirror = (s.upcoming chain d).map d.mirrorMatch := by
  have h_start : s.startPage d = s.page := if_pos h_page
  rw [upcoming, upcoming, mirrored_startPage h_page, h_start, mirrored_resumePoint? h_dir h_page,
    mirrored_settings, pageMatches_mirrored h_dir h_page, List.map_append,
    Settings.turned_direction, itinerary_tail (Document.mirrorPage_lt h_page), h_dir,
    itinerary_tail h_page, d.mirror_pageCount, List.flatMap_map, List.flatMap_map,
    List.map_flatMap]
  congr 1
  -- behind the start page both read whole pages, step by step mirror images of each other
  apply List.flatMap_congr
  intro k h_k
  rw [List.mem_range] at h_k
  have h_lt : d.pageAt .backward s.page (k + 1) < d.pageCount := Nat.mod_lt _ (by omega)
  rw [pageAt_mirrored h_page h_k]
  exact pageMatches_mirrored h_dir h_lt chain none

end

/-- Searching backward fails exactly if searching forward for the reversed pattern in the mirror
    image fails; else they find a match and its mirror image. -/
theorem find_mirrored (s : Session) (d : Document) (chain : Chain)
    (h_dir : s.query.settings.direction = .backward) (h_compiled : s.query.Compiled)
    (h_compiles : Chain.compile s.query.settings s.query.pattern = .ok chain)
    (h_page : s.page < d.pageCount) :
    ((s.find d .never).2 = .notFound ↔ ((s.mirrored d).find d.mirror .never).2 = .notFound) ∧
    ∀ m, (s.find d .never).2 = .found m →
      ((s.mirrored d).find d.mirror .never).2 = .found (d.mirrorMatch m) := by
  have h_chain : s.query.chain = some chain := h_compiled.chain_eq_some_iff.2 h_compiles
  rw [find_outcome h_chain, find_outcome (mirrored_chain h_dir h_compiles d),
    upcoming_mirrored h_dir h_page, List.head?_map]
  cases (s.upcoming chain d).head? with
  | none => exact ⟨Iff.rfl, fun m h_m => absurd h_m (by simp [Outcome.ofOption])⟩
  | some n =>
    refine ⟨iff_of_false (by simp [Outcome.ofOption]) (by simp [Outcome.ofOption]), ?_⟩
    intro m h_m
    rw [Outcome.ofOption, Outcome.found.injEq] at h_m
    rw [← h_m]
    rfl

/-- Backward from the last letter of a page over a cut, with an empty repetition. -/
theorem find_mirrored_abc :
    ((({ query := (Query.compile { settings := { mode := .wildcard, direction := .backward } }
          "aB*.".toList).1
         selection := some ⟨0, ⟨1, 3⟩, ⟨1, 3⟩⟩ } : Session).mirrored
          (.ofFragments [["xab".toList, "cb a".toList], ["a".toList]])).find
        (Document.ofFragments [["xab".toList, "cb a".toList], ["a".toList]]).mirror .never).2 =
      .found ⟨1, ⟨0, 3⟩, ⟨1, 1⟩⟩ := by
  have h := find_mirrored
    { query := (Query.compile { settings := { mode := .wildcard, direction := .backward } }
        "aB*.".toList).1
      selection := some ⟨0, ⟨1, 3⟩, ⟨1, 3⟩⟩ }
    (.ofFragments [["xab".toList, "cb a".toList], ["a".toList]])
    ⟨[.any, .many (.char 'b'), .char 'a'], [0, 0, 0], rfl, rfl, by cbv⟩
    (by cbv) (Query.compile_compiled _ _) (by cbv) (by decide)
  exact h.2 ⟨0, ⟨0, 1⟩, ⟨1, 0⟩⟩ (by cbv)

end Session

end PagedSearch
