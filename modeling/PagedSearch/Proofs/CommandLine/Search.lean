/-
  PagedSearch.Proofs.CommandLine.Search

  The first match and all matches. A listing goes forward, a search for one
  match goes in the direction of the settings. Forward, one begins with what
  the other finds. Backward, both find something on the same pages if the
  symbols are unambiguous from either end (`pageMatches_turned_eq_nil_iff`),
  so they agree on whether there is a match at all (`search_agrees`). For other
  patterns they need not (`search_disagrees`).
-/
import PagedSearch.Proofs.Pattern.Reversal
import PagedSearch.Proofs.Scan.Unambiguous
import PagedSearch.Proofs.Session.Stepping

namespace PagedSearch

/-! ## Pages -/

section

variable {s : Settings} {chain : Chain} {d : Document} {page : Nat}

/-- A page on which the search in one direction finds something is one on which the search in the
    other direction does. -/
theorem pageMatches_turned_eq_nil_iff (h : chain.Reversible) {dir : Direction}
    (h_dir : s.direction ≠ dir) :
    pageMatches (s.turned dir) chain.reversed d none page = [] ↔
      pageMatches s chain d none page = [] := by
  rw [pageMatches_eq, pageMatches_eq, List.map_eq_nil_iff, List.map_eq_nil_iff, reading_none,
    reading_none, Settings.inOrder_turned h_dir]
  exact drain_reversed_eq_nil_iff h _

end

/-! ## Sessions -/

namespace Session

variable {s : Session} {chain : Chain} {d : Document}

/-- Backward and with no selection to go on from, a search finds something exactly if something is
    listed. -/
theorem upcoming_eq_nil_iff_listed (s : Session) (h_chain : s.query.chain = some chain)
    (h : chain.Reversible) (h_dir : s.query.settings.direction ≠ .forward)
    (h_selection : s.selection = none) : s.upcoming chain d = [] ↔ s.query.listed d = [] := by
  have h_turned : s.query.turned .forward = { s.query with
      settings := s.query.settings.turned .forward, chain := some chain.reversed } := by
    rw [Query.turned, if_neg h_dir, h_chain]
    rfl
  have h_reversed : (s.query.turned .forward).chain = some chain.reversed := by rw [h_turned]
  have h_resume : s.resumePoint? (s.startPage d) = none := by rw [resumePoint?, h_selection]
  rw [upcoming_eq_nil_iff_pages, h_resume, Query.listed_eq h_reversed, h_turned,
    List.flatMap_eq_nil_iff]
  constructor
  · rintro ⟨-, h_nil⟩ page -
    exact (pageMatches_turned_eq_nil_iff h h_dir).2 (h_nil page)
  · intro h_nil
    have h_all : ∀ page, pageMatches s.query.settings chain d none page = [] := by
      intro page
      rcases Nat.lt_or_ge page d.pageCount with h_lt | h_ge
      · exact (pageMatches_turned_eq_nil_iff h h_dir).1 (h_nil page (List.mem_range.2 h_lt))
      · exact pageMatches_eq_nil h_ge
    exact ⟨h_all _, h_all⟩

/-- Looking up one match finds something exactly if looking up all of them does. -/
theorem lookUp_eq_nil_iff (h_chain : s.query.chain = some chain)
    (h : chain.Reversible) (h_dir : s.query.settings.direction ≠ .forward) :
    s.lookUp d false = [] ↔ s.lookUp d true = [] := by
  have h_listed : (s.rewound d).upcoming chain d = [] ↔ s.query.listed d = [] :=
    (s.rewound d).upcoming_eq_nil_iff_listed h_chain h h_dir rfl
  have h_outcome : ((s.rewound d).find d .never).2 =
      .ofOption ((s.rewound d).upcoming chain d).head? := find_outcome (s := s.rewound d) h_chain d
  rw [lookUp, lookUp, if_neg Bool.false_ne_true, if_pos rfl, findAll_listed, h_outcome, ← h_listed]
  cases (s.rewound d).upcoming chain d with
  | nil => exact ⟨fun _ => rfl, fun _ => rfl⟩
  | cons m found => exact ⟨fun h_nil => absurd h_nil (by simp [Outcome.ofOption]),
      fun h_nil => absurd h_nil (by simp)⟩

end Session

/-! ## The command line -/

section

variable {settings : Settings} {pattern : Text} {chain : Chain}

theorem Session.ofPattern?_eq (h : Chain.compile settings pattern = .ok chain) :
    Session.ofPattern? settings pattern =
      .ok { query := { settings, pattern, chain := some chain } } := by
  rw [Session.ofPattern?, Session.withQuery, Session.new, Query.compile, h]

/-- The session that looks a pattern up. -/
theorem searchDocument_eq (h : Chain.compile settings pattern = .ok chain) (d : Document)
    (all : Bool) : searchDocument d pattern settings all =
      .ok (Session.lookUp { query := { settings, pattern, chain := some chain } } d all) := by
  rw [searchDocument, Session.ofPattern?_eq h]
  rfl

/-- Both searches of the command line succeed, and neither finds something that the other does not
    find at all. -/
theorem searchDocument_agrees (h : Chain.compile settings pattern = .ok chain)
    (h_clear : settings.direction = .backward → settings.mode = .wildcard → chain.Reversible)
    (d : Document) :
    ∃ first listed, searchDocument d pattern settings false = .ok first ∧
      searchDocument d pattern settings true = .ok listed ∧ (first = [] ↔ listed = []) := by
  rw [searchDocument_eq h, searchDocument_eq h]
  refine ⟨_, _, rfl, rfl, ?_⟩
  cases h_dir : settings.direction with
  | forward =>
    have h_first := searchDocument_first d pattern settings h_dir
    rw [searchDocument_eq h, searchDocument_eq h] at h_first
    rw [Except.ok.inj h_first, List.take_eq_nil_iff]
    exact ⟨fun h_nil => h_nil.resolve_left Nat.one_ne_zero, .inr⟩
  | backward =>
    have h_reversible : chain.Reversible := by
      cases h_mode : settings.mode with
      | literal => exact (Chain.spells_of_compile h_mode h).reversible
      | wildcard => exact h_clear h_dir h_mode
    refine Session.lookUp_eq_nil_iff rfl h_reversible ?_
    show settings.direction ≠ .forward
    rw [h_dir]
    decide

end

/-- A search of the command line for one match finds something exactly if the list of all matches
    has something, and the status of a run does not depend on which of them is asked for: forward
    for every pattern, backward for literal patterns and for those whose symbols are unambiguous
    from either end. -/
theorem search_agrees (pattern : Text) (settings : Settings) (chain : Chain)
    (h_compiles : Chain.compile settings pattern = .ok chain)
    (h_clear : settings.direction = .backward → settings.mode = .wildcard → chain.Reversible) :
    (∀ d, ∃ first listed, searchDocument d pattern settings false = .ok first ∧
      searchDocument d pattern settings true = .ok listed ∧ (first ≠ [] ↔ listed ≠ [])) ∧
    ∀ json e files document flags, flags.appliedTo (configuredSettings e files) = settings →
      (runSearch json e files document pattern false flags).map Run.status =
        (runSearch json e files document pattern true flags).map Run.status := by
  constructor
  · intro d
    obtain ⟨first, listed, h_first, h_listed, h_iff⟩ := searchDocument_agrees h_compiles h_clear d
    exact ⟨first, listed, h_first, h_listed, not_congr h_iff⟩
  · intro json e files document flags h_settings
    rw [runSearch, runSearch, h_settings]
    cases h_load : loadDocument json files document with
    | error failure => rfl
    | ok d =>
      obtain ⟨first, listed, h_first, h_listed, h_iff⟩ :=
        searchDocument_agrees h_compiles h_clear d
      have h_empty : first.isEmpty = listed.isEmpty := by
        rw [Bool.eq_iff_iff, List.isEmpty_iff, List.isEmpty_iff]
        exact h_iff
      simp only [Except.map, bind, Except.bind, Except.mapError, h_first, h_listed, h_empty]
      rfl

/-- Backward over a cut, a match that begins inside a partial one, and a repetition. -/
theorem search_agrees_overlapping :
    let d : Document := .ofFragments [["xaa".toList, "ab bc".toList], ["ca".toList]]
    let settings : Settings := { mode := .wildcard, direction := .backward }
    searchDocument d "aab*c".toList settings false = .ok [⟨0, ⟨0, 2⟩, ⟨1, 4⟩⟩] ∧
      ∃ listed, searchDocument d "aab*c".toList settings true = .ok listed ∧ listed ≠ [] := by
  have h_first : searchDocument (.ofFragments [["xaa".toList, "ab bc".toList], ["ca".toList]])
      "aab*c".toList { mode := .wildcard, direction := .backward } false =
        .ok [⟨0, ⟨0, 2⟩, ⟨1, 4⟩⟩] := by cbv
  -- only the two equal characters at the start share a character
  have h_reversible : Chain.Reversible
      ⟨[.char 'c', .many (.char 'b'), .char 'a', .char 'a'], [0, 0, 0, 0], rfl, rfl, by cbv⟩ := by
    constructor <;> rintro i j σ τ h_ij h_σ h_τ ⟨c, h_c, h_c'⟩
    all_goals
      have h_j : j < 4 := (List.getElem?_eq_some_iff.1 h_τ).1
      interval_cases j <;> interval_cases i <;>
        obtain ⟨rfl, rfl⟩ := And.intro (Option.some.inj h_σ) (Option.some.inj h_τ) <;>
        obtain rfl := beq_iff_eq.1 h_c
    all_goals first
      | exact absurd h_c' (by decide)
      | refine ⟨?_, by decide⟩
        intro k h_k h_k'
        interval_cases k <;> rfl
  obtain ⟨first, listed, h_first', h_listed, h_iff⟩ := (search_agrees "aab*c".toList
    { mode := .wildcard, direction := .backward } _ (by cbv) (fun _ _ => h_reversible)).1
    (.ofFragments [["xaa".toList, "ab bc".toList], ["ca".toList]])
  refine ⟨h_first, listed, h_listed, h_iff.1 ?_⟩
  rw [Except.ok.inj (h_first'.symm.trans h_first)]
  exact List.cons_ne_nil _ _

/-- Backward, a search and a listing can each miss what the other finds: a repetition leaves nothing
    to a symbol behind it that takes the same character, a border is lost where a symbol does not
    cover one that it shares a character with, and so is one behind a repetition. -/
theorem search_disagrees :
    let settings : Settings := { mode := .wildcard, direction := .backward }
    (searchDocument (.ofFragments [["abbc".toList]]) "ab*bc".toList settings false =
        .ok [⟨0, ⟨0, 0⟩, ⟨0, 3⟩⟩] ∧
      searchDocument (.ofFragments [["abbc".toList]]) "ab*bc".toList settings true = .ok []) ∧
    (searchDocument (.ofFragments [["abbc".toList]]) "abb*c".toList settings false = .ok [] ∧
      searchDocument (.ofFragments [["abbc".toList]]) "abb*c".toList settings true =
        .ok [⟨0, ⟨0, 0⟩, ⟨0, 3⟩⟩]) ∧
    (searchDocument (.ofFragments [["aabc".toList]]) "a.c".toList settings false =
        .ok [⟨0, ⟨0, 1⟩, ⟨0, 3⟩⟩] ∧
      searchDocument (.ofFragments [["aabc".toList]]) "a.c".toList settings true = .ok []) ∧
    (searchDocument (.ofFragments [["aaaad".toList]]) "ab*ac*ad".toList settings false =
        .ok [⟨0, ⟨0, 1⟩, ⟨0, 4⟩⟩] ∧
      searchDocument (.ofFragments [["aaaad".toList]]) "ab*ac*ad".toList settings true =
        .ok []) := by
  refine ⟨⟨?_, ?_⟩, ⟨?_, ?_⟩, ⟨?_, ?_⟩, ?_, ?_⟩ <;> cbv

end PagedSearch
