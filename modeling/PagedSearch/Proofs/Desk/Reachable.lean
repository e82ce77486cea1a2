/-
  PagedSearch.Proofs.Desk.Reachable

  What comes of requests about a document. A replacement changes the document
  under the session that searches it, and a pattern that cannot be read, other
  settings and steps through the list each change a part of the session only.
  Yet all matches that the session holds stand within the document as it is
  (`Session.Fits`): every request keeps this, and what it is answered with
  stands within the document that it was about (`answer_served`). So its
  excerpts can be made with sums of words (`Reachable.excerptIn_eq`).
-/
import PagedSearch.Desk
import PagedSearch.Json.Builtin
import PagedSearch.Proofs.Session.Freshness
import PagedSearch.Proofs.Session.Replacement
import PagedSearch.Proofs.View.Excerpt

namespace PagedSearch

/-! ## Positions -/

/-- The point is that of a character of the page. -/
def Document.HasPoint (d : Document) (page : Nat) (p : Point) : Prop :=
  ∃ t, (d.fragments page)[p.fragment]? = some t ∧ p.offset < t.length

/-- A match that addresses text which exists: its page does, it begins and ends at characters of
    the page, and it does not end before it begins. -/
structure Match.Addresses (m : Match) (d : Document) : Prop where
  page_lt : m.page < d.pageCount
  first_le_last : m.first.le m.last = true
  hasFirst : d.HasPoint m.page m.first
  hasLast : d.HasPoint m.page m.last
  spanned_eq : m.first.fragment + m.spanned = m.last.fragment + 1

theorem Match.Within.addresses {m : Match} {d : Document} (h : m.Within d) : m.Addresses d where
  page_lt := h.page_lt
  first_le_last := h.first_le_last
  hasFirst := by
    obtain ⟨x, h_x, h_first⟩ := h.first_mem
    rw [← h_first]
    exact exists_of_mem_charactersOn h_x
  hasLast := by
    obtain ⟨x, h_x, h_last⟩ := h.last_mem
    rw [← h_last]
    exact exists_of_mem_charactersOn h_x
  spanned_eq := first_add_spanned h.first_le_last

/-! ## Sessions -/

/-- A step lands on a match of the list. -/
theorem Results.mem_of_step {r : Results} {step : Step} {m : Match}
    (h : (r.step step).2 = some m) : m ∈ r.listed := by
  rw [Results.step] at h
  split at h
  · exact absurd h (by simp)
  · split at h
    · exact List.mem_of_getElem? h
    · exact absurd h (by simp)

namespace Session

/-- The matches that a session holds stand within the document, and the selected one on the page
    to start on. -/
structure Fits (s : Session) (d : Document) : Prop where
  listed : ∀ m ∈ s.results.listed, m.Within d
  selected : ∀ m, s.selection = some m → m.Within d
  onPage : ∀ m, s.selection = some m → m.page = s.page

section

variable {s : Session} {d : Document}

/-- A session without matches fits every document. -/
theorem Fits.of_none (h_listed : s.results.listed = []) (h_selection : s.selection = none) :
    s.Fits d where
  listed m h_m := by
    rw [h_listed] at h_m
    exact absurd h_m List.not_mem_nil
  selected m h_m := by
    rw [h_selection] at h_m
    exact absurd h_m (by simp)
  onPage m h_m := by
    rw [h_selection] at h_m
    exact absurd h_m (by simp)

theorem Fits.withQuery (h : s.Fits d) (pattern : Text) : (s.withQuery pattern).Fits d where
  listed _ h_m := absurd h_m List.not_mem_nil
  selected := h.selected
  onPage := h.onPage

theorem Fits.withSettings (h : s.Fits d) (settings : Settings) :
    (s.withSettings settings).Fits d := ⟨h.listed, h.selected, h.onPage⟩

theorem Fits.turned (h : s.Fits d) (dir : Direction) : (s.turned dir).Fits d :=
  ⟨h.listed, h.selected, h.onPage⟩

theorem Fits.findAll (h : s.Fits d) : (s.findAll d .never).Fits d where
  listed m h_m := by
    rw [s.findAll_listed] at h_m
    exact Query.within_of_mem_listed h_m
  selected := h.selected
  onPage := h.onPage

theorem Fits.select (h : s.Fits d) (step : Step) : (s.select step).1.Fits d := by
  have h_same := step_listed s.results step
  rw [Session.select]
  split
  · rename_i results m h_step
    rw [h_step] at h_same
    have h_within : m.Within d := h.listed m (Results.mem_of_step (congrArg Prod.snd h_step))
    -- the selected match is the one that the step landed on
    refine ⟨fun n h_n => h.listed n (h_same ▸ h_n), ?_, ?_⟩
    · rintro n ⟨⟩
      exact h_within
    · rintro n ⟨⟩
      rfl
  · rename_i results h_step
    rw [h_step] at h_same
    exact ⟨fun n h_n => h.listed n (h_same ▸ h_n), h.selected, h.onPage⟩

theorem Fits.select_within (h : s.Fits d) {step : Step} {m : Match}
    (h_m : (s.select step).2 = some m) : m.Within d := by
  rw [Session.select] at h_m
  split at h_m
  · rename_i results n h_step
    obtain rfl : n = m := Option.some.inj h_m
    exact h.listed n (Results.mem_of_step (congrArg Prod.snd h_step))
  · exact absurd h_m (by simp)

/-- What a search finds stands within the document. -/
theorem find_within {m : Match} (h : (s.find d .never).2 = .found m) : m.Within d := by
  cases h_chain : s.query.chain with
  | none =>
    rw [find_outcome_none h_chain] at h
    exact absurd h (by simp)
  | some chain =>
    rw [find_outcome h_chain] at h
    cases h_head : (s.upcoming chain d).head? with
    | none =>
      rw [h_head] at h
      exact absurd h (by simp [Outcome.ofOption])
    | some n =>
      rw [h_head] at h
      obtain rfl : n = m := Outcome.found.inj h
      -- the match is one of the page that the search starts on, or of a page further on
      rcases List.mem_append.1 (List.mem_of_mem_head? h_head) with h_n | h_n
      · exact within_of_mem_pageMatches h_n
      · obtain ⟨page, -, h_n⟩ := List.mem_flatMap.1 h_n
        exact within_of_mem_pageMatches h_n

/-- A search that is not stopped finds something or nothing. -/
theorem find_ne_stopped (s : Session) (d : Document) : (s.find d .never).2 ≠ .stopped := by
  cases h_chain : s.query.chain with
  | none =>
    rw [find_outcome_none h_chain]
    simp
  | some chain =>
    rw [find_outcome h_chain]
    cases (s.upcoming chain d).head? with
    | none => simp [Outcome.ofOption]
    | some m => simp [Outcome.ofOption]

theorem Fits.find (h : s.Fits d) : (s.find d .never).1.Fits d := by
  have h_listed : ∀ m ∈ (s.find d .never).1.results.listed, m.Within d := by
    rw [find_results]
    exact h.listed
  cases h_outcome : (s.find d .never).2 with
  | found m =>
    obtain ⟨h_selection, h_page⟩ := find_found h_outcome
    refine ⟨h_listed, ?_, ?_⟩
    · intro n h_n
      obtain rfl : m = n := Option.some.inj (h_selection.symm.trans h_n)
      exact find_within h_outcome
    · intro n h_n
      obtain rfl : m = n := Option.some.inj (h_selection.symm.trans h_n)
      exact h_page.symm
  | notFound =>
    obtain ⟨h_selection, h_page⟩ := find_notFound h_outcome
    refine ⟨h_listed, ?_, ?_⟩
    · rw [h_selection]
      exact h.selected
    · rw [h_selection, h_page]
      exact h.onPage
  | stopped => exact absurd h_outcome (find_ne_stopped s d)

end

end Session

/-! ## Desks -/

/-- The matches that an answer carries. -/
def Event.matches : Event → List Match
  | .outcome (.found m) _ => [m]
  | .listed found => found.map Prod.fst
  | .selected m _ _ => [m]
  | _ => []

namespace Desk

/-- The desks that come of requests about a document, each answered before the next. -/
inductive Reachable (json : JsonLibrary) : Desk → Prop where
  | opened (document : Document) (files : FileTree) (settings : Settings)
      (historyLimit context : Nat) :
      Reachable json (Desk.opened document files settings historyLimit context)
  | answered {desk : Desk} (request : Request) : Reachable json desk →
      Reachable json (desk.answer json request).1
  | stopped {desk : Desk} : Reachable json desk → Reachable json desk.stop

/-- The session fits the document. -/
def Fits (desk : Desk) : Prop := desk.session.Fits desk.document

/-- A request about a document was served right: the session fits the document afterwards, and the
    answer carries matches within the document that the request was about. -/
structure Served (d : Document) (result : Desk × Event) : Prop where
  fits : result.1.Fits
  within : ∀ m ∈ result.2.matches, m.Within d

section

variable {json : JsonLibrary} {desk : Desk} {d : Document}

/-- An answer without matches. -/
theorem Served.of_nil {event : Event} (h : desk.Fits) (h_event : event.matches = []) :
    Served d (desk, event) where
  fits := h
  within m h_m := by
    rw [show (desk, event).2.matches = [] from h_event] at h_m
    exact absurd h_m List.not_mem_nil

theorem opened_fits (document : Document) (files : FileTree) (settings : Settings)
    (historyLimit context : Nat) : (opened document files settings historyLimit context).Fits :=
  .of_none rfl rfl

theorem Fits.stop (h : desk.Fits) : desk.stop.Fits := ⟨h.listed, h.selected, h.onPage⟩

theorem Fits.select (h : desk.Fits) (step : Step) :
    Served desk.document (desk.select step) := by
  have h_session := Session.Fits.select h step
  rw [Desk.select]
  split
  · rename_i session m h_select
    rw [h_select] at h_session
    refine ⟨h_session, ?_⟩
    intro n h_n
    obtain rfl : n = m := List.mem_singleton.1 h_n
    exact Session.Fits.select_within h (congrArg Prod.snd h_select)
  · rename_i session h_select
    rw [h_select] at h_session
    exact .of_nil h_session rfl

/-- A search is served right, whatever its direction. -/
theorem served_outcome {s : Session} (h : s.Fits desk.document) :
    Served desk.document ({ desk with session := (s.find desk.document .never).1 },
      .outcome (s.find desk.document .never).2 (desk.excerptOf? (s.find desk.document .never).2)) where
  fits := h.find
  within m h_m := by
    cases h_outcome : (s.find desk.document .never).2 with
    | found n =>
      rw [h_outcome] at h_m
      obtain rfl : m = n := List.mem_singleton.1 h_m
      exact Session.find_within h_outcome
    | notFound =>
      rw [h_outcome] at h_m
      exact absurd h_m List.not_mem_nil
    | stopped =>
      rw [h_outcome] at h_m
      exact absurd h_m List.not_mem_nil

theorem Fits.find (h : desk.Fits) (direction : Option Direction) :
    Served desk.document (desk.find direction) := by
  cases direction with
  | none => exact served_outcome h
  | some dir =>
    cases dir with
    | forward => exact served_outcome (Session.Fits.turned h .forward)
    | backward => exact served_outcome (Session.Fits.turned h .backward)

theorem Fits.findAll (h : desk.Fits) : Served desk.document desk.findAll where
  fits := Session.Fits.findAll h
  within m h_m := by
    obtain ⟨_, h_pair, rfl⟩ := List.mem_map.1 h_m
    obtain ⟨n, h_n, rfl⟩ := List.mem_map.1 h_pair
    exact (Session.Fits.findAll h).listed n h_n

theorem Fits.showPage (h : desk.Fits) (page : Nat) :
    Served desk.document (desk.showPage page) := by
  rw [Desk.showPage]
  split
  · exact .of_nil (Session.Fits.select h (.nearestPage page)) rfl
  · exact .of_nil h rfl

/-- A replacement leaves no match, so none that the text has lost. -/
theorem served_replaceAll (desk : Desk) (replacement : Text) :
    Served d (desk.replaceAll replacement) := .of_nil (.of_none rfl rfl) rfl

theorem Fits.configure (h : desk.Fits) (settings : Settings) :
    Served desk.document (desk.configure settings) := by
  have h_session := Session.Fits.withSettings h settings
  rw [Desk.configure]
  simp only
  split
  · exact .of_nil h_session rfl
  · exact .of_nil h_session rfl

theorem Fits.save (h : desk.Fits) (path : Path) :
    Served desk.document (desk.save json path) := by
  rw [Desk.save]
  split
  · exact .of_nil h rfl
  · exact .of_nil h rfl

/-- Whether the pattern can be read or not, the request is served right. -/
theorem Fits.withPattern (h : desk.Fits) (pattern : Text) {go : Desk → Desk × Event}
    (h_go : ∀ desk' : Desk, desk'.Fits → desk'.document = desk.document →
      Served desk.document (go desk')) : Served desk.document (desk.withPattern pattern go) := by
  have h_session := Session.Fits.withQuery h pattern
  rw [Desk.withPattern]
  simp only
  split
  · exact .of_nil h_session rfl
  · exact h_go _ h_session rfl

/-- Every request is served right. -/
theorem answer_served (h : desk.Fits) (request : Request) :
    Served desk.document (desk.answer json request) := by
  cases request with
  | find pattern direction =>
    cases pattern with
    | none =>
      cases direction with
      | none => exact h.find none
      | some dir =>
        -- while matches are listed, the search is a step through the list
        rw [answer]
        split
        · exact h.find (some dir)
        · exact h.select (stepOf dir)
    | some pattern =>
      exact h.withPattern pattern fun desk' h' h_document => h_document ▸ h'.find direction
  | findAll pattern =>
    exact h.withPattern pattern fun desk' h' h_document => h_document ▸ h'.findAll
  | select step => exact h.select step
  | showPage page => exact h.showPage page
  | replace pattern replacement =>
    exact h.withPattern pattern fun desk' _ _ => served_replaceAll desk' replacement
  | configure settings => exact h.configure settings
  | history => exact .of_nil h rfl
  | save path => exact h.save path

theorem Reachable.fits (h : desk.Reachable json) : desk.Fits := by
  induction h with
  | opened document files settings historyLimit context => exact opened_fits ..
  | answered request _ ih => exact (answer_served ih request).fits
  | stopped _ ih => exact ih.stop

/-- If no page with what is shown around a match is longer than a word can tell, sums of words make
    the excerpts that a desk answers with. -/
theorem Reachable.excerptIn_eq (h : desk.Reachable json) (a : Arithmetic)
    (h_word : ∀ page,
      (flatLine (desk.document.fragments page)).length + desk.context < wordBound)
    (request : Request) :
    ∀ m ∈ (desk.answer json request).2.matches,
      excerptIn a desk.document m desk.context = .ok (desk.excerptOf m) := by
  intro m h_m
  have h_addresses := ((answer_served h.fits request).within m h_m).addresses
  obtain ⟨t, h_t, h_first⟩ := h_addresses.hasFirst
  obtain ⟨u, h_u, h_last⟩ := h_addresses.hasLast
  -- both ends have their positions in the line of the page
  have h_first := flatPosition_lt h_t h_first
  have h_last := flatPosition_lt h_u h_last
  have h_page := h_word m.page
  apply excerptIn_of_lt
  · omega
  · omega
  · omega

end

/-- Whatever was asked of a desk before, the matches that its session has listed and the one that
    it has selected address text of the document as it is, the selected one stands on the page to
    start on, and every match that the next answer carries addresses text of the document that
    the request is about. -/
theorem matches_address (json : JsonLibrary) (desk : Desk) (h_reachable : desk.Reachable json) :
    (∀ m ∈ desk.session.results.listed, m.Addresses desk.document) ∧
    (∀ m, desk.session.selection = some m →
      m.Addresses desk.document ∧ m.page = desk.session.page) ∧
    ∀ request, ∀ m ∈ (desk.answer json request).2.matches, m.Addresses desk.document := by
  have h_fits := h_reachable.fits
  refine ⟨?_, ?_, ?_⟩
  · intro m h_m
    exact (h_fits.listed m h_m).addresses
  · intro m h_m
    exact ⟨(h_fits.selected m h_m).addresses, h_fits.onPage m h_m⟩
  · intro request m h_m
    exact ((answer_served h_fits request).within m h_m).addresses

/-- Backward over a fragment that a replacement has emptied; a pattern that cannot be read and a
    stop keep the selection. -/
theorem matches_address_emptied :
    let desk := (((((Desk.opened
        (.ofFragments [["xab".toList, "ab".toList, "ba".toList], ["xa".toList, "b".toList]]) {}
        { mode := .wildcard, direction := .backward } 10 2).answer .builtin
      (.replace "bab".toList [])).1.answer .builtin
      (.find (some "ax*b".toList) none)).1.answer .builtin
      (.find none none)).1.answer .builtin
      (.find (some "a[".toList) (some .forward))).1.stop
    desk.document =
      .ofFragments [["xa".toList, [], "ba".toList], ["xa".toList, "b".toList]] ∧
    desk.session.error = some (.unclosedSet 1) ∧
    (⟨0, ⟨0, 1⟩, ⟨2, 0⟩⟩ : Match).Addresses desk.document ∧ 0 = desk.session.page := by
  refine ⟨by cbv, by cbv, ?_⟩
  exact (matches_address .builtin _ (.stopped (.answered _ (.answered _ (.answered _ (.answered _
    (.opened _ _ _ _ _))))))).2.1 ⟨0, ⟨0, 1⟩, ⟨2, 0⟩⟩ (by cbv)

end Desk

end PagedSearch
