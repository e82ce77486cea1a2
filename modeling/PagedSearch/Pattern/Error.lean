/-
  PagedSearch.Pattern.Error

  Why a pattern cannot be read. Positions count the characters of the pattern
  from zero.
-/
import PagedSearch.Text.Basic

namespace PagedSearch

/-- Why a pattern cannot be read. -/
inductive PatternError where
  /-- Nothing in the pattern takes part in a search. -/
  | empty
  /-- The set opened at this position has no closing bracket. -/
  | unclosedSet (opening : Nat)
  /-- The set opened at this position has no member. -/
  | emptySet (opening : Nat)
  /-- A range whose first character lies behind its last. -/
  | descendingRange (first last : Char)
  /-- The pattern ends in a backslash. -/
  | unfinishedEscape
  /-- A star at this position has nothing to repeat. -/
  | nothingToRepeat (position : Nat)
  /-- The pattern starts or ends with a repetition. -/
  | repetitionAtEdge
deriving DecidableEq, Repr

/-- The message that a user is shown. -/
def PatternError.message : PatternError → String
  | .empty => "pattern is empty"
  | .unclosedSet opening => s!"character set opened at position {opening} is never closed"
  | .emptySet opening => s!"character set at position {opening} has no members"
  | .descendingRange first last => s!"invalid range `{first}-{last}` in character set"
  | .unfinishedEscape => "pattern ends with an unfinished escape"
  | .nothingToRepeat position =>
    s!"`*` at position {position} does not follow a character or set"
  | .repetitionAtEdge => "a pattern cannot start or end with a repetition"

end PagedSearch
