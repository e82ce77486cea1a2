/-
  PagedSearch.Pattern.Reversal

  A pattern read from right to left. Literal patterns are reversed character
  by character; in the wildcard dialect the tokens change their order and
  each keeps its text. A pattern that cannot be read is reversed character by
  character.
-/
import PagedSearch.Pattern.Token

namespace PagedSearch

/-- The pattern that finds, in reversed text, what `pattern` finds. -/
def reversePattern (mode : Mode) (pattern : Text) : Text :=
  match mode with
  | .literal => pattern.reverse
  | .wildcard =>
    match tokensOf ⟨.wildcard, false⟩ pattern with
    | .ok ts => ts.reverse.flatMap Token.source
    | .error _ => pattern.reverse

@[simp] theorem reversePattern_literal (pattern : Text) :
    reversePattern .literal pattern = pattern.reverse := rfl

end PagedSearch
