/-
  PagedSearch.Word

  Sums of 64-bit words. How a program is built decides on what becomes of a sum
  that is no word (`Arithmetic`): it ends the computation, or it loses what is
  above its last 64 bits. A sum below the bound is that of the numbers in either
  case (`Arithmetic.add_of_lt`).
-/

namespace PagedSearch

/-- One more than the greatest 64-bit word. -/
def wordBound : Nat := 1 <<< 64

/-- Why a computation ends early. -/
inductive Fault where
  /-- A sum is no word. -/
  | overflow
  /-- A slice ends before it starts. -/
  | order (start stop : Nat)
  /-- A slice ends behind the end of its text. -/
  | range (stop length : Nat)
deriving DecidableEq, Repr

/-- What a computation says when it ends early. -/
def Fault.message : Fault → String
  | .overflow => "attempt to add with overflow"
  | .order start stop => s!"slice index starts at {start} but ends at {stop}"
  | .range stop length => s!"range end index {stop} out of range for slice of length {length}"

/-- What becomes of a sum that is no word. -/
inductive Arithmetic where
  /-- It ends the computation. -/
  | checked
  /-- Its last 64 bits are taken for it. -/
  | wrapping
deriving DecidableEq, Repr

namespace Arithmetic

/-- The sum of two words. -/
def add (a : Arithmetic) (n k : Nat) : Except Fault Nat :=
  if n + k < wordBound then .ok (n + k)
  else match a with
    | .checked => .error .overflow
    | .wrapping => .ok ((n + k) % wordBound)

/-- The sum of words, from left to right. -/
def sum (a : Arithmetic) (words : List Nat) : Except Fault Nat := words.foldlM a.add 0

theorem add_of_lt {a : Arithmetic} {n k : Nat} (h : n + k < wordBound) :
    a.add n k = .ok (n + k) := if_pos h

end Arithmetic

end PagedSearch
