/-
  PagedSearch.Proofs.Session.Listing

  The list of all matches of a query in a document: page by page what a
  forward search meets on the whole page (`listed_eq`). It comes in document
  order (`listed_pairwise`), so sorting it changes nothing
  (`findAll_listed`). A list that is stopped is the beginning of it
  (`matchesIn_prefix`).
-/
import PagedSearch.Proofs.Session.Walk

namespace PagedSearch

/-- The matches of a query in a document, in document order. -/
def Query.listed (q : Query) (d : Document) : List Match := (Session.matchesIn q d .never).1

namespace Query

theorem turned_of_direction {q : Query} {dir : Direction} (h : q.settings.direction = dir) :
    q.turned dir = q := if_pos h

variable {q : Query} {chain : Chain} {d : Document}

theorem listed_turned (q : Query) (d : Document) : (q.turned .forward).listed d = q.listed d := by
  rw [listed, listed, Session.matchesIn, Session.matchesIn,
    turned_of_direction (turned_direction _ _)]

theorem listed_eq_nil (h : (q.turned .forward).chain = none) (d : Document) :
    q.listed d = [] := by
  rw [listed, Session.matchesIn, h]

/-- The list takes the matches of the whole pages, from the first page to the last. -/
theorem listed_eq (h : (q.turned .forward).chain = some chain) (d : Document) :
    q.listed d = (List.range d.pageCount).flatMap
      (pageMatches (q.turned .forward).settings chain d none) := by
  rw [listed, Session.matchesIn, h]
  show (listing _ chain d .never false 1 _).1 = _
  rw [listing_never]

/-- The matches come in document order, and each ends before the next one on its page begins. -/
theorem listed_pairwise (q : Query) (d : Document) :
    (q.listed d).Pairwise fun m n => m.le n = true ∧ (m.page = n.page → m.last.Before n.first) := by
  cases h : (q.turned .forward).chain with
  | none =>
    rw [listed_eq_nil h]
    exact .nil
  | some chain =>
    rw [listed_eq h, List.pairwise_flatMap]
    constructor
    · intro page _
      apply (pageMatches_pairwise (turned_direction q .forward)).imp
      intro m n h_before
      exact ⟨h_before.1, fun _ => h_before.2⟩
    · apply List.pairwise_lt_range.imp
      intro page page' h_lt m h_m n h_n
      rw [← page_of_mem_pageMatches h_m, ← page_of_mem_pageMatches h_n] at h_lt
      exact ⟨Match.le_iff.2 (.inl h_lt), fun h_page => absurd h_page (Nat.ne_of_lt h_lt)⟩

end Query

/-! ## Sessions -/

theorem listing_prefix (s : Settings) (chain : Chain) (d : Document) (interrupt : Interrupt)
    (raised : Bool) (call : Nat) (pages : List Nat) :
    (listing s chain d interrupt raised call pages).1 <+:
      pages.flatMap (pageMatches s chain d none) := by
  induction pages generalizing raised call with
  | nil => exact List.nil_prefix
  | cons page pages ih =>
    generalize h_up : interrupt.isUp (raised || interrupt.raises call page) call = up
    obtain ⟨h_spans, -, h_stopped⟩ := @Scanner.gather_ready (Scanner.fresh s chain) chain rfl up
      (stretches s.direction none (d.fragments page))
    rw [listing, List.flatMap_cons, h_up, h_spans, h_stopped]
    simp only
    split
    · -- the matches up to a look are the first ones of the page
      have h_first := Scanner.allOf_prefix (Scanner.fresh s chain)
        (ready_isPrefix up (stretches s.direction none (d.fragments page)))
      exact (h_first.map _).trans (List.prefix_append ..)
    · rename_i h_all
      rw [ready_eq_self (Bool.eq_false_iff.2 h_all)]
      exact (List.prefix_append_right_inj _).2 (ih _ _)

/-- A list that is stopped is the beginning of the list of all matches. -/
theorem Session.matchesIn_prefix (q : Query) (d : Document) (interrupt : Interrupt) :
    (matchesIn q d interrupt).1 <+: q.listed d := by
  rw [matchesIn]
  cases h : (q.turned .forward).chain with
  | none => exact List.nil_prefix
  | some chain =>
    rw [Query.listed_eq h]
    exact listing_prefix ..

/-- What a session lists are the matches of its query. -/
theorem Session.findAll_listed (s : Session) (d : Document) :
    (s.findAll d .never).results.listed = s.query.listed d := by
  show (s.query.listed d).mergeSort Match.le = _
  exact List.mergeSort_of_pairwise ((s.query.listed_pairwise d).imp And.left)

end PagedSearch
