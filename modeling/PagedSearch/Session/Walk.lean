/-
  PagedSearch.Session.Walk

  Walks over the pages of a document. A search visits the page it starts on,
  then one page after the other around the document, and the first one once
  more (`itinerary_length`). A walk can be stopped while it asks for a page or
  between two stretches of one: from then on no stretch is read.
-/
import PagedSearch.Session.Stretch

namespace PagedSearch

/-- What a search comes to. -/
inductive Outcome where
  | found (m : Match)
  | notFound
  | stopped
deriving DecidableEq, Repr

/-- When the stop flag of a walk is raised. Requests for pages are counted from one, looks at the
    flag on the page of a request from zero. -/
structure Interrupt where
  /-- While a page is asked for. -/
  raises : (call page : Nat) → Bool
  /-- Before a look. -/
  breaks : (call look : Nat) → Bool := fun _ _ => false

namespace Interrupt

/-- The walk is not stopped. -/
def never : Interrupt := ⟨fun _ _ => false, fun _ _ => false⟩

/-- The walk is stopped when a page is asked for. -/
def onPage (n : Nat) : Interrupt := { never with raises := fun _ page => page == n }

/-- The walk is stopped at a request. -/
def onCall (n : Nat) : Interrupt := { never with raises := fun call _ => call == n }

/-- The walk is stopped in the middle of a page, before a look. -/
def onLook (n k : Nat) : Interrupt :=
  { never with breaks := fun call look => call == n && look == k }

/-- The walk is stopped by either of two. -/
def either (a b : Interrupt) : Interrupt where
  raises call page := a.raises call page || b.raises call page
  breaks call look := a.breaks call look || b.breaks call look

/-- What the looks at the flag on the page of a request tell, if it is `raised` at first. -/
def isUp (interrupt : Interrupt) (raised : Bool) (call look : Nat) : Bool :=
  raised || interrupt.breaks call look

@[simp] theorem isUp_raised (interrupt : Interrupt) (call look : Nat) :
    interrupt.isUp true call look = true := rfl

theorem isUp_of_breaks {interrupt : Interrupt} {call look : Nat}
    (h : interrupt.breaks call look = true) (raised : Bool) :
    interrupt.isUp raised call look = true := by
  rw [isUp, h, Bool.or_true]

end Interrupt

/-! ## From page to page -/

/-- A page and the pages of `n` further steps in a direction. -/
def visitsFrom (d : Document) (dir : Direction) : Nat → Nat → List Nat
  | 0, page => [page]
  | n + 1, page => page :: visitsFrom d dir n (d.adjacent page dir)

/-- The pages that a search visits if it finds nothing. -/
def itinerary (d : Document) (dir : Direction) (start : Nat) : List Nat :=
  visitsFrom d dir d.pageCount start

@[simp] theorem visitsFrom_length (d : Document) (dir : Direction) (n page : Nat) :
    (visitsFrom d dir n page).length = n + 1 := by
  induction n generalizing page with
  | zero => rfl
  | succ n ih => simp [visitsFrom, ih]

@[simp] theorem itinerary_length (d : Document) (dir : Direction) (start : Nat) :
    (itinerary d dir start).length = d.pageCount + 1 := visitsFrom_length ..

/-! ## The next match -/

/-- A walk that is over: the pages it visited, what it came to, and whether the stop flag is
    raised. -/
structure Trip where
  visited : List Nat
  outcome : Outcome
  raised : Bool
deriving DecidableEq, Repr

/-- Visits pages up to the first match. `raised` is the stop flag, `call` the number of the next
    request, and `resume` the point on the next page to go on from. -/
def walk (s : Settings) (chain : Chain) (d : Document) (interrupt : Interrupt)
    (raised : Bool) (call : Nat) (resume : Option Point) : List Nat → Trip
  | [] => ⟨[], .notFound, raised⟩
  | page :: pages =>
    let raised := raised || interrupt.raises call page
    let parts := stretches s.direction resume (d.fragments page)
    -- a page without stretches is passed, as the flag is not looked at there
    let reading := (Scanner.fresh s chain).seek (interrupt.isUp raised call) parts
    match reading.spans, reading.stopped with
    | span :: _, _ => ⟨[page], .found (.ofFed s.direction page parts span), raised⟩
    | [], true => ⟨[page], .stopped, true⟩
    | [], false =>
      -- only the first page is read from a point on
      let trip := walk s chain d interrupt raised (call + 1) none pages
      { trip with visited := page :: trip.visited }

/-! ## All matches -/

/-- Lists the matches of pages in their order, up to where the walk is stopped, and tells
    whether the stop flag is raised then. -/
def listing (s : Settings) (chain : Chain) (d : Document) (interrupt : Interrupt)
    (raised : Bool) (call : Nat) : List Nat → List Match × Bool
  | [] => ([], raised)
  | page :: pages =>
    let raised := raised || interrupt.raises call page
    let parts := stretches s.direction none (d.fragments page)
    let reading := (Scanner.fresh s chain).gather (interrupt.isUp raised call) parts
    let found := reading.spans.map (Match.ofFed s.direction page parts)
    if reading.stopped then (found, true)
    else
      let (more, raised) := listing s chain d interrupt raised (call + 1) pages
      (found ++ more, raised)

end PagedSearch
