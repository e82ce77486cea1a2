/-
  PagedSearch.Proofs.Console.Settings

  The settings that a console keeps, beside those of the session that it sends
  requests to. The switches change the former and hand them over whole; `next`
  and `prev` turn the latter, and the console is not told. So the two agree in
  all but the direction, where the console keeps the one that it was opened
  with (`settings_agree`), and a switch takes the session back to that
  (`settings_disagree`).
-/
import Mathlib
import PagedSearch.Console
import PagedSearch.Json.Builtin
import PagedSearch.Proofs.Session.Freshness

namespace PagedSearch

/-! ## Requests -/

/-- The settings of a session after a request. -/
def Request.settingsAfter (s : Session) : Request → Settings
  | .configure settings => settings
  -- while matches are listed, a search without a pattern is a step through the list
  | .find none (some dir) =>
    if s.results.isEmpty then s.query.settings.turned dir else s.query.settings
  | .find (some pattern) (some dir) =>
    if (s.withQuery pattern).error.isSome then s.query.settings else s.query.settings.turned dir
  | _ => s.query.settings

/-- All requests but for other settings keep the settings up to the direction. -/
theorem Request.settingsAfter_turned {s : Session} {request : Request} {dir : Direction}
    (h : ∀ settings, request ≠ .configure settings) :
    (request.settingsAfter s).turned dir = s.query.settings.turned dir := by
  rw [Request.settingsAfter.eq_def]
  split
  · exact absurd rfl (h _)
  · split
    · rfl
    · rfl
  · split
    · rfl
    · rfl
  · rfl

namespace Desk

/-- A request leaves the session with the settings `theirs`, and a console whose settings are `own`
    keeps them on its answer. -/
structure Leaves (own theirs : Settings) (result : Desk × Event) : Prop where
  session : result.1.session.query.settings = theirs
  console : Console.settingsAfter own result.2 = own

section

variable {desk : Desk} {own theirs : Settings}

theorem select_leaves (desk : Desk) (own : Settings) (step : Step) :
    Leaves own desk.session.query.settings (desk.select step) := by
  have h_query := desk.session.select_query step
  rw [Desk.select]
  split
  · rename_i h_select
    rw [h_select] at h_query
    exact ⟨congrArg Query.settings h_query, rfl⟩
  · rename_i h_select
    rw [h_select] at h_query
    exact ⟨congrArg Query.settings h_query, rfl⟩

/-- A search keeps the settings but for the direction that it is given. -/
theorem find_leaves (desk : Desk) (own : Settings) (direction : Option Direction) :
    Leaves own (direction.elim desk.session.query.settings desk.session.query.settings.turned)
      (desk.find direction) := by
  have h_turned (dir : Direction) :
      ((desk.session.turned dir).find desk.document .never).1.query.settings =
        desk.session.query.settings.turned dir := by
    rw [Session.find_query]
    exact desk.session.query.turned_settings dir
  cases direction with
  | none => exact ⟨congrArg Query.settings (Session.find_query ..), rfl⟩
  | some dir =>
    cases dir with
    | forward => exact ⟨h_turned .forward, rfl⟩
    | backward => exact ⟨h_turned .backward, rfl⟩

theorem showPage_leaves (desk : Desk) (own : Settings) (page : Nat) :
    Leaves own desk.session.query.settings (desk.showPage page) := by
  rw [showPage]
  split
  · exact ⟨congrArg Query.settings (desk.session.select_query (.nearestPage page)), rfl⟩
  · exact ⟨rfl, rfl⟩

/-- Both have the settings that are asked for, also where the pattern cannot be read under them. -/
theorem configure_leaves (desk : Desk) (settings : Settings) :
    Leaves settings settings (desk.configure settings) := by
  have h_settings := (desk.session.query.withSettings_pattern settings).2
  rw [configure]
  simp only
  split
  · exact ⟨h_settings, rfl⟩
  · exact ⟨h_settings, rfl⟩

theorem save_leaves (json : JsonLibrary) (desk : Desk) (own : Settings) (path : Path) :
    Leaves own desk.session.query.settings (desk.save json path) := by
  rw [save]
  split
  · exact ⟨rfl, rfl⟩
  · exact ⟨rfl, rfl⟩

/-- A pattern that cannot be read leaves the settings as they are. -/
theorem withPattern_leaves {pattern : Text} {go : Desk → Desk × Event}
    (h_go : ∀ desk' : Desk, desk'.session.query.settings = desk.session.query.settings →
      Leaves own theirs (go desk')) :
    Leaves own
      (if (desk.session.withQuery pattern).error.isSome then desk.session.query.settings
        else theirs)
      (desk.withPattern pattern go) := by
  have h_settings : (desk.session.withQuery pattern).query.settings =
      desk.session.query.settings := by
    show (desk.session.query.compile pattern).1.settings = _
    rw [Query.compile]
    split
    · rfl
    · rfl
  rw [withPattern]
  cases (desk.session.withQuery pattern).error with
  | none => exact h_go _ h_settings
  | some e => exact ⟨h_settings, rfl⟩

/-- A pattern keeps the settings if what is done with it does. -/
theorem withPattern_leaves_same {pattern : Text} {go : Desk → Desk × Event}
    (h_go : ∀ desk' : Desk, desk'.session.query.settings = desk.session.query.settings →
      Leaves own desk.session.query.settings (go desk')) :
    Leaves own desk.session.query.settings (desk.withPattern pattern go) := by
  have h_leaves : Leaves own (if _ then desk.session.query.settings else _)
    (desk.withPattern pattern go) := withPattern_leaves h_go
  rw [ite_self] at h_leaves
  exact h_leaves

/-- What a request leaves; a console takes the settings that it asks for before it asks. -/
theorem answer_leaves (json : JsonLibrary) (desk : Desk) (own : Settings) (request : Request)
    (h_own : ∀ settings, request = .configure settings → own = settings) :
    Leaves own (request.settingsAfter desk.session) (desk.answer json request) := by
  cases request with
  | find pattern direction =>
    cases pattern with
    | none =>
      cases direction with
      | none => exact desk.find_leaves own none
      | some dir =>
        rw [answer, Request.settingsAfter]
        split
        · exact desk.find_leaves own (some dir)
        · exact desk.select_leaves own (stepOf dir)
    | some pattern =>
      cases direction with
      | none => exact withPattern_leaves_same fun desk' h' => h' ▸ desk'.find_leaves own none
      | some dir =>
        exact withPattern_leaves fun desk' h' => h' ▸ desk'.find_leaves own (some dir)
  | findAll pattern => exact withPattern_leaves_same fun _ h' => ⟨h', rfl⟩
  | select step => exact desk.select_leaves own step
  | showPage page => exact desk.showPage_leaves own page
  | replace pattern replacement =>
    show Leaves own _ (desk.withPattern pattern (·.replaceAll replacement))
    exact withPattern_leaves_same fun _ h' => ⟨h', rfl⟩
  | configure settings =>
    obtain rfl := h_own settings rfl
    exact desk.configure_leaves own
  | history => exact ⟨rfl, rfl⟩
  | save path => exact desk.save_leaves json own path

end

end Desk

/-! ## Lines -/

/-- The settings of a session after a command; `dir` is the direction of the console's settings,
    and in all else they are those of the session. -/
def Command.settingsAfter (dir : Direction) (s : Session) : Command → Settings
  | .caseSensitive on => { s.query.settings with caseSensitive := on, direction := dir }
  | .hyphenTolerant on => { s.query.settings with hyphenTolerant := on, direction := dir }
  | .wildcards on => { s.query.settings with mode := .ofWildcards on, direction := dir }
  | .next => if s.results.isEmpty then s.query.settings.turned .forward else s.query.settings
  | .previous => if s.results.isEmpty then s.query.settings.turned .backward else s.query.settings
  | _ => s.query.settings

namespace Console

/-- The settings of the session that searches for the console. -/
def sessionSettings (c : Console) : Settings := c.desk.session.query.settings

/-- The console's settings are those of its session with the direction `dir`. -/
def Follows (c : Console) (dir : Direction) : Prop := c.settings = c.sessionSettings.turned dir

section

variable {json : JsonLibrary} {c : Console} {dir : Direction} {request : Request}

/-- A request that is no switch. -/
theorem send_settings (c : Console) (h : ∀ settings, request ≠ .configure settings) :
    (c.send json request).console.settings = c.settings ∧
      (c.send json request).console.sessionSettings = request.settingsAfter c.desk.session := by
  have h_leaves := c.desk.answer_leaves json c.settings request fun settings h_eq =>
    absurd h_eq (h settings)
  exact ⟨h_leaves.console, h_leaves.session⟩

/-- A switch hands the console's settings over. -/
theorem switch_settings (c : Console) (settings : Settings) :
    let after := (({ c with settings } : Console).send json (.configure settings)).console
    after.settings = settings ∧ after.sessionSettings = settings := by
  have h_leaves := c.desk.answer_leaves json settings (.configure settings) fun _ h => by
    cases h
    rfl
  exact ⟨h_leaves.console, h_leaves.session⟩

/-- What a line makes of the settings of the session. -/
def settingsAfterLine (dir : Direction) (s : Session) (line : Text) : Settings :=
  match Command.ofLine line with
  | .ok command => command.settingsAfter dir s
  | .error _ => s.query.settings

/-- What the console and its session have after a line. -/
structure Carries (dir : Direction) (theirs : Settings) (c : Console) : Prop where
  follows : c.Follows dir
  session : c.sessionSettings = theirs

/-- The console still follows a session that at most takes another direction. -/
theorem Follows.carries_send (h : c.Follows dir) (request : Request)
    (h_request : ∀ settings, request ≠ .configure settings) :
    (c.send json request).console.Carries dir (request.settingsAfter c.desk.session) := by
  obtain ⟨h_own, h_theirs⟩ := c.send_settings h_request
  refine ⟨?_, h_theirs⟩
  rw [Follows, h_own, h_theirs, Request.settingsAfter_turned h_request]
  exact h

theorem carries_switch (c : Console) (settings : Settings) (h : settings.direction = dir) :
    (({ c with settings } : Console).send json (.configure settings)).console.Carries dir
      settings := by
  obtain ⟨h_own, h_theirs⟩ := c.switch_settings settings
  refine ⟨?_, h_theirs⟩
  rw [Follows, h_own, h_theirs, ← h, Settings.turned_self]

/-- A console that follows its session still does so after a line, and the session has the settings
    that the line gives it. -/
theorem read_carries (h : c.Follows dir) (line : Text) :
    (c.read json line).console.Carries dir (settingsAfterLine dir c.desk.session line) := by
  have h_own : c.settings = c.sessionSettings.turned dir := h
  rw [read, reactionTo, settingsAfterLine]
  cases Command.ofLine line with
  | error e => cases e <;> exact ⟨h, rfl⟩
  | ok command =>
    cases command with
    | caseSensitive on =>
      simp only [Command.reaction, h_own]
      exact c.carries_switch _ rfl
    | hyphenTolerant on =>
      simp only [Command.reaction, h_own]
      exact c.carries_switch _ rfl
    | wildcards on =>
      simp only [Command.reaction, h_own]
      exact c.carries_switch _ rfl
    | stop => exact ⟨h, rfl⟩
    | help => exact ⟨h, rfl⟩
    | quit => exact ⟨h, rfl⟩
    | find pattern => exact h.carries_send (.find (some pattern) none) nofun
    | next => exact h.carries_send (.find none (some .forward)) nofun
    | previous => exact h.carries_send (.find none (some .backward)) nofun
    | all pattern => exact h.carries_send (.findAll pattern) nofun
    | first => exact h.carries_send (.select .first) nofun
    | last => exact h.carries_send (.select .last) nofun
    | pick number => exact h.carries_send (.select (.index (number - 1))) nofun
    | page number => exact h.carries_send (.showPage (number - 1)) nofun
    | replace pattern replacement => exact h.carries_send (.replace pattern replacement) nofun
    | history => exact h.carries_send .history nofun
    | save path => exact h.carries_send (.save path) nofun

/-- A console that follows its session has the same settings exactly if the session has the
    console's direction. -/
theorem Follows.eq_iff (h : c.Follows dir) :
    c.settings = c.sessionSettings ↔ c.sessionSettings.direction = dir := by
  rw [Follows] at h
  constructor
  · intro h_eq
    rw [← h_eq, h, Settings.turned_direction]
  · intro h_dir
    rw [h, ← h_dir, Settings.turned_self]

/-- True of the lines that have the session search in a direction of their own. -/
def turns (line : Text) : Bool :=
  match Command.ofLine line with
  | .ok .next => true
  | .ok .previous => true
  | _ => false

/-- Other lines keep the direction, or they take the console's. -/
theorem settingsAfterLine_direction {s : Session} {line : Text} (h_line : turns line = false)
    (h : s.query.settings.direction = dir) : (settingsAfterLine dir s line).direction = dir := by
  rw [turns] at h_line
  rw [settingsAfterLine]
  cases h_command : Command.ofLine line with
  | error e => exact h
  | ok command =>
    rw [h_command] at h_line
    cases command with
    | caseSensitive on => rfl
    | hyphenTolerant on => rfl
    | wildcards on => rfl
    | next => exact absurd h_line (by decide)
    | previous => exact absurd h_line (by decide)
    | _ => exact h

/-- What every line keeps holds after all lines. -/
theorem readAll_induction {P : Console → Prop} {lines : List Text} (h : P c)
    (h_read : ∀ c line, line ∈ lines → P c → P (c.read json line).console) :
    P (c.readAll json lines).1 := by
  induction lines generalizing c with
  | nil => exact h
  | cons line lines ih =>
    have h_next := h_read c line List.mem_cons_self h
    rw [readAll]
    by_cases h_on : (c.read json line).goesOn = true
    · simp only [if_pos h_on]
      exact ih h_next fun c line' h_line' => h_read c line' (List.mem_cons_of_mem _ h_line')
    · simp only [if_neg h_on]
      exact h_next

end

/-- After every line the settings of the console are those of its session, but for the direction,
    where the console keeps the one that it was opened with. So they agree exactly if the session
    has that direction; it does unless a line has turned it. What a line makes of the session's
    settings is told in full: a switch changes the one that it names, and the direction to the
    console's. -/
theorem settings_agree (json : JsonLibrary) (document : Document) (files : FileTree)
    (config : ConsoleConfig) (lines : List Text) :
    let c := ((Console.opened document files config).readAll json lines).1
    let dir := config.settings.direction
    c.settings = c.sessionSettings.turned dir ∧
    (c.settings = c.sessionSettings ↔ c.sessionSettings.direction = dir) ∧
    ((∀ line ∈ lines, turns line = false) → c.settings = c.sessionSettings) ∧
    ∀ line,
      (c.read json line).console.sessionSettings = settingsAfterLine dir c.desk.session line := by
  intro c dir
  have h_follows : c.Follows dir :=
    readAll_induction (P := (Follows · dir)) rfl fun _ line _ h => (read_carries h line).follows
  refine ⟨h_follows, h_follows.eq_iff, ?_, fun line => (read_carries h_follows line).session⟩
  intro h_lines
  -- as long as no line turns the session, it has the direction of the console
  have h_steady : c.Follows dir ∧ c.sessionSettings.direction = dir := by
    apply readAll_induction (P := fun c => c.Follows dir ∧ c.sessionSettings.direction = dir)
    · exact ⟨rfl, rfl⟩
    · rintro c line h_line ⟨h, h_dir⟩
      have h_carries := @read_carries json c dir h line
      refine ⟨h_carries.follows, ?_⟩
      rw [h_carries.session]
      exact settingsAfterLine_direction (h_lines line h_line) h_dir
  exact h_follows.eq_iff.2 h_steady.2

/-- A switch under which the pattern cannot be read, and a step through the list. -/
theorem settings_agree_unclosed :
    let d : Document := .ofFragments [["b1 b2".toList]]
    let config : ConsoleConfig := { settings := { direction := .backward } }
    let c := ((Console.opened d {} config).readAll .builtin
      ["find b[".toList, "wildcard on".toList, "hyphen on".toList]).1
    let c' := ((Console.opened d {} config).readAll .builtin
      ["wildcard on".toList, "all b.".toList]).1
    c.settings = c.sessionSettings ∧
      (c'.read .builtin "next".toList).console.sessionSettings =
        { mode := .wildcard, direction := .backward } := by
  have h_settings : ((Console.opened (.ofFragments [["b1 b2".toList]]) {}
      { settings := { direction := .backward } }).readAll .builtin
        ["wildcard on".toList, "all b.".toList]).1.desk.session.query.settings =
      { mode := .wildcard, direction := .backward } := by cbv
  have h_listed : ((Console.opened (.ofFragments [["b1 b2".toList]]) {}
      { settings := { direction := .backward } }).readAll .builtin
        ["wildcard on".toList, "all b.".toList]).1.desk.session.results.isEmpty = false := by cbv
  intro d config c c'
  constructor
  · apply (settings_agree .builtin d {} config
      ["find b[".toList, "wildcard on".toList, "hyphen on".toList]).2.2.1
    rw [List.forall_mem_cons, List.forall_mem_cons, List.forall_mem_singleton]
    refine ⟨?_, ?_, ?_⟩
    · cbv
    · cbv
    · cbv
  · have h_line : Command.ofLine "next".toList = .ok .next := by cbv
    rw [(settings_agree .builtin d {} config
      ["wildcard on".toList, "all b.".toList]).2.2.2 "next".toList, settingsAfterLine, h_line]
    -- the list holds two matches, so the step does not turn the session
    exact (if_neg (Bool.eq_false_iff.1 h_listed)).trans h_settings

/-- After `prev` the session searches backward and the console does not know it, so `case on`
    changes the direction as well. -/
theorem settings_disagree :
    let d : Document := .ofFragments [["b1 b2 b3".toList]]
    let c := ((Console.opened d {} {}).readAll .builtin ["find b".toList, "prev".toList]).1
    let c' := ((Console.opened d {} {}).readAll .builtin
      ["find b".toList, "prev".toList, "case on".toList]).1
    c.settings ≠ c.sessionSettings ∧ c.sessionSettings = { direction := .backward } ∧
      c'.sessionSettings = { caseSensitive := true, direction := .forward } := by
  refine ⟨?_, ?_, ?_⟩
  · cbv
    decide
  · cbv
  · cbv

end Console

end PagedSearch
