/-
  PagedSearch.Proofs.Session.Passage

  Walks over pages with one scanner, which tell what they read. The scanner
  comes from one page to the next as it is, perhaps in the middle of a match,
  and is reset before it reads. So what is left in it does not matter, and the
  walks come to what a fresh scanner for each page comes to
  (`walk_eq_search`, `listing_eq_list`).
-/
import PagedSearch.Proofs.Session.Stretch
import PagedSearch.Session.Walk

namespace PagedSearch

/-! ## Walks -/

/-- A page that was asked for, and the stretches of it that were read. -/
structure Visit where
  page : Nat
  read : List Stretch
deriving DecidableEq, Repr

/-- A walk over pages that is over: the scanner afterwards, the pages that were asked for, whether
    the stop flag is up, and what came of the walk. -/
structure Passage (α : Type) where
  scanner : Scanner
  visits : List Visit := []
  raised : Bool
  result : α

namespace Scanner

/-- Visits pages up to the first match. `raised` is the stop flag, `call` the number of the next
    request, and `resume` the point on the next page to go on from. -/
def search (d : Document) (interrupt : Interrupt) (raised : Bool) (call : Nat)
    (resume : Option Point) (scanner : Scanner) : List Nat → Passage Outcome
  | [] => { scanner, raised, result := .notFound }
  | page :: pages =>
    let raised := raised || interrupt.raises call page
    let dir := scanner.query.settings.direction
    let parts := stretches dir resume (d.fragments page)
    let reading := scanner.reset.seek (interrupt.isUp raised call) parts
    let visit := ⟨page, reading.read⟩
    match reading.spans, reading.stopped with
    | span :: _, _ =>
      { scanner := reading.scanner, visits := [visit], raised,
        result := .found (.ofFed dir page parts span) }
    | [], true =>
      { scanner := reading.scanner, visits := [visit], raised := true, result := .stopped }
    | [], false =>
      let rest := reading.scanner.search d interrupt raised (call + 1) none pages
      { rest with visits := visit :: rest.visits }

/-- Visits pages and lists their matches. -/
def list (d : Document) (interrupt : Interrupt) (raised : Bool) (call : Nat) (scanner : Scanner) :
    List Nat → Passage (List Match)
  | [] => { scanner, raised, result := [] }
  | page :: pages =>
    let raised := raised || interrupt.raises call page
    let dir := scanner.query.settings.direction
    let parts := stretches dir none (d.fragments page)
    let reading := scanner.reset.gather (interrupt.isUp raised call) parts
    let visit := ⟨page, reading.read⟩
    let found := reading.spans.map (Match.ofFed dir page parts)
    if reading.stopped then
      { scanner := reading.scanner, visits := [visit], raised := true, result := found }
    else
      let rest := reading.scanner.list d interrupt raised (call + 1) pages
      { rest with visits := visit :: rest.visits, result := found ++ rest.result }

section

variable {d : Document} {interrupt : Interrupt} {scanner : Scanner} {chain : Chain}

theorem search_query (d : Document) (interrupt : Interrupt) (raised : Bool) (call : Nat)
    (resume : Option Point) (scanner : Scanner) (pages : List Nat) :
    (scanner.search d interrupt raised call resume pages).scanner.query = scanner.query := by
  induction pages generalizing scanner raised call resume with
  | nil => rfl
  | cons page pages ih =>
    rw [search]
    simp only
    split
    · exact seek_query ..
    · exact seek_query ..
    · exact (ih ..).trans (seek_query ..)

theorem list_query (d : Document) (interrupt : Interrupt) (raised : Bool) (call : Nat)
    (scanner : Scanner) (pages : List Nat) :
    (scanner.list d interrupt raised call pages).scanner.query = scanner.query := by
  induction pages generalizing scanner raised call with
  | nil => rfl
  | cons page pages ih =>
    rw [list]
    simp only
    split
    · exact gather_query ..
    · exact (ih ..).trans (gather_query ..)

/-- The walk of a scanner, whatever is left in it, is the walk with its query. -/
theorem walk_eq_search (h : scanner.query.chain = some chain) (d : Document) (interrupt : Interrupt)
    (raised : Bool) (call : Nat) (resume : Option Point) (pages : List Nat) :
    walk scanner.query.settings chain d interrupt raised call resume pages =
      let passage := scanner.search d interrupt raised call resume pages
      ⟨passage.visits.map Visit.page, passage.result, passage.raised⟩ := by
  induction pages generalizing scanner raised call resume with
  | nil => rfl
  | cons page pages ih =>
    rw [walk, search]
    simp only
    generalize (raised || interrupt.raises call page) = raised
    generalize interrupt.isUp raised call = up
    generalize stretches scanner.query.settings.direction resume (d.fragments page) = parts
    obtain ⟨h_spans, h_stopped⟩ := seek_reset h up parts
    rw [← h_spans, ← h_stopped]
    cases (scanner.reset.seek up parts).spans with
    | cons span spans => rfl
    | nil =>
      cases (scanner.reset.seek up parts).stopped with
      | true => rfl
      | false =>
        -- the walk goes on with a scanner of the same query
        have h_query : (scanner.reset.seek up parts).scanner.query = scanner.query := seek_query ..
        have h_rest := @ih _ ((congrArg Query.chain h_query).trans h) raised (call + 1) none
        rw [h_query] at h_rest
        simp only [h_rest]
        rfl

theorem listing_eq_list (h : scanner.query.chain = some chain) (d : Document)
    (interrupt : Interrupt) (raised : Bool) (call : Nat) (pages : List Nat) :
    listing scanner.query.settings chain d interrupt raised call pages =
      let passage := scanner.list d interrupt raised call pages
      (passage.result, passage.raised) := by
  induction pages generalizing scanner raised call with
  | nil => rfl
  | cons page pages ih =>
    rw [listing, list]
    simp only
    generalize (raised || interrupt.raises call page) = raised
    generalize interrupt.isUp raised call = up
    generalize stretches scanner.query.settings.direction none (d.fragments page) = parts
    obtain ⟨h_spans, h_stopped⟩ := gather_reset h up parts
    rw [← h_spans, ← h_stopped]
    cases (scanner.reset.gather up parts).stopped with
    | true => rfl
    | false =>
      -- the list goes on with a scanner of the same query
      have h_query : (scanner.reset.gather up parts).scanner.query = scanner.query :=
        gather_query ..
      have h_rest := @ih _ ((congrArg Query.chain h_query).trans h) raised (call + 1)
      rw [h_query] at h_rest
      simp only [h_rest]
      rfl

end

end Scanner

end PagedSearch
