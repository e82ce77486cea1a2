/-
  PagedSearch.Query

  A pattern together with the settings it is read under and, when it can be
  read, its chain. Changing the direction reverses the chain and does not
  read the pattern again.
-/
import PagedSearch.Chain.Compile

namespace PagedSearch

/-- A pattern under its settings, compiled if that is possible. -/
structure Query where
  settings : Settings
  pattern : Text := []
  chain : Option Chain := none
deriving DecidableEq, Repr

namespace Query

/-- Takes another pattern; tells why it cannot be read. -/
def compile (q : Query) (pattern : Text) : Query × Option PatternError :=
  match Chain.compile q.settings pattern with
  | .ok chain => ({ q with pattern, chain := some chain }, none)
  | .error e => ({ q with pattern, chain := none }, some e)

/-- True when other settings have the pattern read again. -/
def rereads (q : Query) (settings : Settings) : Bool :=
  q.settings != settings && !q.pattern.isEmpty

/-- Takes other settings; tells why the pattern cannot be read under them. -/
def withSettings (q : Query) (settings : Settings) : Query × Option PatternError :=
  if q.rereads settings then { q with settings }.compile q.pattern
  else ({ q with settings }, none)

/-- Takes another direction. -/
def turned (q : Query) (d : Direction) : Query :=
  if q.settings.direction = d then q
  else { q with settings := q.settings.turned d, chain := q.chain.map Chain.reversed }

@[simp] theorem turned_direction (q : Query) (d : Direction) :
    (q.turned d).settings.direction = d := by
  unfold turned
  split <;> simp_all

@[simp] theorem turned_self (q : Query) : q.turned q.settings.direction = q := by
  simp [turned]

@[simp] theorem turned_pattern (q : Query) (d : Direction) : (q.turned d).pattern = q.pattern := by
  unfold turned
  split <;> rfl

end Query

end PagedSearch
