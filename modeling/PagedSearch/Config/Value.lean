/-
  PagedSearch.Config.Value

  Values in config files: switches, which have four names for either state,
  and directions, in letters of either case.
-/
import PagedSearch.Session.History
import PagedSearch.Settings
import PagedSearch.Text.Line

namespace PagedSearch

/-- The value of a switch. -/
def readSwitch? (value : Text) : Option Bool :=
  let word := lowerAscii (trim value)
  if isOneOf ["true", "1", "yes", "on"] word then some true
  else if isOneOf ["false", "0", "no", "off"] word then some false
  else none

/-- The value of a direction. -/
def readDirection? (value : Text) : Option Direction :=
  let word := lowerAscii (trim value)
  if isOneOf ["forward", "down"] word then some .forward
  else if isOneOf ["backward", "up"] word then some .backward
  else none

/-- The mode with wildcards on or off. -/
def Mode.ofWildcards (on : Bool) : Mode := if on then .wildcard else .literal

end PagedSearch
