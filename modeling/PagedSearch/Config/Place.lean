/-
  PagedSearch.Config.Place

  Where the config file is. A folder for the config files of all programs is
  taken if the environment names one; else the file stands below the user's
  home folder. The console and the command line differ in what they do
  without a home folder.
-/
import PagedSearch.Files.Path

namespace PagedSearch

/-- What a program is told about its surroundings. -/
structure Environment where
  /-- The folder for config files, if one is named. -/
  configHome : Option Text := none
  /-- The home folder, if one is named. -/
  home : Option Text := none
  /-- The home folder of the user's account. -/
  accountHome : Text := "/root".toList
deriving DecidableEq, Repr

/-- The config file in the folder for config files. -/
def configName : Path := "pagescan/config.txt".toList

/-- The config file below a home folder. -/
def hiddenConfigName : Path := ".config/pagescan/config.txt".toList

/-- True of texts with another character than blanks. -/
def isNamed (t : Text) : Bool := !(trim t).isEmpty

namespace Environment

/-- The folder for config files, unless its name is blank. -/
def configHome? (e : Environment) : Option Text := e.configHome.filter isNamed

/-- The console's config file; without a home folder it is below the folder that the console
    works in. -/
def consoleConfig (e : Environment) : Path :=
  match e.configHome?, e.home.filter isNamed with
  | some folder, _ => Path.join folder configName
  | none, some home => Path.join home hiddenConfigName
  | none, none => hiddenConfigName

/-- The command line's config file; without a home folder it is below the account's one. -/
def commandLineConfig (e : Environment) : Path :=
  match e.configHome? with
  | some folder => Path.join folder configName
  | none => Path.join ((e.home.filter (!·.isEmpty)).getD e.accountHome) hiddenConfigName

end Environment

end PagedSearch
