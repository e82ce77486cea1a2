/-
  PagedSearch.Scan

  One pass over a text for a chain. The text comes as significant characters,
  each with its place; what a place is does not matter to the scan.

  A scan waits in a state of the chain. On a character, the repetitions from
  there on that do not take it are passed over as empty. If the state that is
  then reached takes it, the scan goes on behind that state. Otherwise it
  falls back along the links and tries the character again, down to the root,
  where the character is dropped. The window holds the place at which each
  state of the partial match was passed, so its head is where a match begins.
-/
import PagedSearch.Chain

namespace PagedSearch

/-- The places of the first and the last character of a match. -/
structure Span (α : Type) where
  first : α
  last : α
deriving DecidableEq, Repr

/-- A partial match in progress. -/
structure Scan (α : Type) where
  /-- The state that waits for a character. -/
  current : Nat := 0
  /-- Where each state before `current` was passed, the root first. -/
  window : List α := []
  /-- How many characters the repetition at `current` has taken. -/
  taken : Nat := 0
  /-- How often a symbol has been tested against a character. -/
  comparisons : Nat := 0
deriving DecidableEq, Repr

namespace Chain

/-- How many repetitions in a row from state `k` on do not take `c`. -/
def emptyRun (chain : Chain) (c : Char) (k : Nat) : Nat :=
  ((chain.symbols.drop k).takeWhile fun σ => σ.isMany && !σ.accepts c).length

end Chain

namespace Scan

variable {α : Type}

/-- Forgets the partial match. -/
def restart (scan : Scan α) : Scan α := { comparisons := scan.comparisons }

/-- Goes on behind state `k`, which has taken the character at `here`. -/
def take (chain : Chain) (here : α) (k : Nat) (scan : Scan α) : Scan α × Option (Span α) :=
  -- a repetition comes into the window only when it is over
  if chain.isMany k then ({ scan with current := k, taken := scan.taken + 1 }, none)
  else
    let window := scan.window ++ [here]
    if k + 1 < chain.size then ({ scan with current := k + 1, window, taken := 0 }, none)
    else (scan.restart, some ⟨window.head?.getD here, here⟩)

/-- Keeps of a partial match of `k` symbols what the link of state `k` covers. -/
def fallBack (chain : Chain) (k : Nat) (scan : Scan α) : Scan α :=
  -- the repetitions just passed as empty do not count, and of the rest the end is kept
  { scan with window := (scan.window.take k).drop (k - chain.link k), taken := 0 }

/-- Tries a character in state `k`, and if that fails in the states it falls back to. -/
def attempt (chain : Chain) (c : Char) (here : α) (k : Nat) (scan : Scan α) :
    Scan α × Option (Span α) :=
  let run := chain.emptyRun c k
  let passed := { scan with
    window := scan.window ++ List.replicate run here
    comparisons := scan.comparisons + run + 1 }
  if chain.accepts (k + run) c then passed.take chain here (k + run)
  else if _h : chain.link k < k then
    attempt chain c here (chain.link k) (passed.fallBack chain k)
  else (passed.restart, none)
termination_by k

/-- Reads one significant character. A repetition under way that does not take it is over. -/
def step (chain : Chain) (scan : Scan α) (c : Char) (here : α) : Scan α × Option (Span α) :=
  if scan.taken = 0 ∨ chain.accepts scan.current c then scan.attempt chain c here scan.current
  else
    -- a repetition stands in the window with the place of the character that ends it
    attempt chain c here (scan.current + 1) { scan with
      window := scan.window ++ [here]
      taken := 0
      comparisons := scan.comparisons + 1 }

/-- Reads characters up to the end of the next match; also gives what is left to read. -/
def advance (chain : Chain) (scan : Scan α) :
    List (Char × α) → Scan α × Option (Span α) × List (Char × α)
  | [] => (scan, none, [])
  | (c, here) :: rest =>
    match scan.step chain c here with
    | (next, some span) => (next, some span, rest)
    | (next, none) => next.advance chain rest

/-- Reads all characters and lists the matches. -/
def drain (chain : Chain) (scan : Scan α) : List (Char × α) → Scan α × List (Span α)
  | [] => (scan, [])
  | (c, here) :: rest =>
    let (next, span) := scan.step chain c here
    let (last, spans) := next.drain chain rest
    (last, span.toList ++ spans)

@[simp] theorem drain_nil (chain : Chain) (scan : Scan α) : scan.drain chain [] = (scan, []) := rfl

/-- Reading two texts one after the other. -/
theorem drain_append (chain : Chain) (scan : Scan α) (s t : List (Char × α)) :
    scan.drain chain (s ++ t) =
      (((scan.drain chain s).1.drain chain t).1,
        (scan.drain chain s).2 ++ ((scan.drain chain s).1.drain chain t).2) := by
  induction s generalizing scan with
  | nil => simp
  | cons head s ih =>
    obtain ⟨c, here⟩ := head
    simp only [List.cons_append, drain, ih, List.append_assoc]

end Scan

end PagedSearch
