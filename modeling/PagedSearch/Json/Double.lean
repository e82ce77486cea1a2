/-
  PagedSearch.Json.Double

  Rounding to double precision. A double keeps 53 binary places; of two that
  are equally near, a number is rounded to the one whose last place is even.
-/

namespace PagedSearch

/-- The value of the last binary place that a double keeps of a number. -/
def lastPlace (n : Nat) : Nat := 1 <<< (n.log2 - 52)

/-- The double nearest to a number, as if doubles went on without end. -/
def toDouble (n : Nat) : Nat :=
  let unit := lastPlace n
  if 2 * (n % unit) < unit ∨ (2 * (n % unit) = unit ∧ n / unit % 2 = 0) then n / unit * unit
  else (n / unit + 1) * unit

/-- The least power of two that is too great for a double. -/
def doubleBound : Nat := 1 <<< 1024

end PagedSearch
