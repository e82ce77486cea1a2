/-
  PagedSearch.Chain.Compile

  From a pattern to its chain. The pattern is folded before it is read, so
  errors name folded characters. For a backward search it is read forward
  first, for its errors, and then once more with its tokens reversed.
-/
import PagedSearch.Chain
import PagedSearch.Pattern.Reversal

namespace PagedSearch

/-- The chain of a pattern under these settings. -/
def Chain.compile (settings : Settings) (pattern : Text) : Except PatternError Chain :=
  let folded := settings.fold pattern
  match symbolsOf settings.lexing folded with
  | .error e => .error e
  | .ok forward =>
    match settings.direction with
    | .forward => Chain.ofSymbols? forward
    | .backward =>
      match symbolsOf settings.lexing (reversePattern settings.mode folded) with
      | .error e => .error e
      | .ok backward => Chain.ofSymbols? backward

end PagedSearch
