/-
  PagedSearch.Proofs.Results

  Results behave like a sorted list with a cursor that is looked through from
  its start. The runs of a list in document order cut it into the blocks of
  its pages (`tiles_pageRuns`), so what is looked up in them is what a walk
  through all matches comes to (`Tiles.slice_eq`, `Tiles.start_eq`). A step
  keeps the list and the runs and leaves the cursor within the list
  (`Lists.step`), so all of this holds after any steps (`ofList_steps`).
-/
import Mathlib
import PagedSearch.Results

namespace PagedSearch

/-! ## Runs -/

/-- Runs that cut matches into blocks, one for each page that has any; the first match has index
    `i`. -/
inductive Tiles : Nat → List Match → List PageRun → Prop where
  | nil {i} : Tiles i [] []
  | block {i page block rest runs} : block ≠ [] → (∀ m ∈ block, m.page = page) →
      (∀ m ∈ rest, page < m.page) → Tiles (i + block.length) rest runs →
      Tiles i (block ++ rest) (⟨page, i, i + block.length⟩ :: runs)

/-- The runs of matches whose pages go up. -/
theorem tiles_pageRuns {l : List Match} (h : l.Pairwise fun m n => m.page ≤ n.page) (i : Nat) :
    Tiles i l (pageRuns i l) := by
  induction l generalizing i with
  | nil => exact .nil
  | cons m l ih =>
    rw [List.pairwise_cons] at h
    obtain ⟨h_first, h_l⟩ := h
    have h_tiles := ih h_l (i + 1)
    rw [pageRuns]
    generalize pageRuns (i + 1) l = runs at h_tiles
    cases h_tiles with
    | nil => exact .block (List.cons_ne_nil m []) (by simp) (by simp) .nil
    | @block _ page block rest runs h_block h_page h_behind h_rest =>
      show Tiles i _ (if page = m.page then _ else _)
      by_cases h_eq : page = m.page
      · -- the block behind is of the same page and takes the match in front
        rw [if_pos h_eq, ← List.cons_append, ← h_eq,
          show i + 1 + block.length = i + (m :: block).length by rw [List.length_cons]; omega]
        refine .block (List.cons_ne_nil m block) ?_ h_behind ?_
        · exact List.forall_mem_cons.2 ⟨h_eq.symm, h_page⟩
        · rw [List.length_cons, show i + (block.length + 1) = i + 1 + block.length by omega]
          exact h_rest
      · rw [if_neg h_eq]
        have h_single : Tiles (i + [m].length) (block ++ rest) _ :=
          .block h_block h_page h_behind h_rest
        refine .block (List.cons_ne_nil m []) (by simp) ?_ h_single
        -- the page of the next block is greater, and those of the others are greater still
        obtain ⟨n, h_n⟩ := List.exists_mem_of_ne_nil block h_block
        have h_le := h_first n (List.mem_append_left rest h_n)
        rw [h_page n h_n] at h_le
        have h_lt : m.page < page := Nat.lt_of_le_of_ne h_le (Ne.symm h_eq)
        refine List.forall_mem_append.2 ⟨fun n' h_n' => ?_, fun n' h_n' =>
          h_lt.trans (h_behind n' h_n')⟩
        rw [h_page n' h_n']
        exact h_lt

section

variable {i : Nat} {l : List Match} {runs : List PageRun}

/-- The run of a page cuts its matches out of the list. -/
theorem Tiles.slice_eq (h : Tiles i l runs) (front : List Match) (h_front : front.length = i)
    (page : Nat) :
    (match runs.find? (·.page == page) with
      | some run => ((front ++ l).take run.stop).drop run.start
      | none => []) = l.filter fun m => m.page = page := by
  induction h generalizing front with
  | nil => rfl
  | @block i page' block rest runs h_block h_page h_behind _ ih =>
    rw [List.filter_append]
    by_cases h_eq : page' = page
    · have h_none : ∀ m ∈ rest, ¬ decide (m.page = page) = true := by
        intro m h_m
        have h_lt := h_behind m h_m
        rw [decide_eq_true_eq]
        omega
      have h_all : ∀ m ∈ block, decide (m.page = page) = true := by
        intro m h_m
        rw [h_page m h_m, decide_eq_true_eq]
        exact h_eq
      have h_run : List.find? (·.page == page) (⟨page', i, i + block.length⟩ :: runs) =
          some ⟨page', i, i + block.length⟩ := List.find?_cons_of_pos (beq_iff_eq.2 h_eq)
      rw [h_run, List.filter_eq_self.2 h_all, List.filter_eq_nil_iff.2 h_none, List.append_nil,
        ← h_front]
      show ((front ++ (block ++ rest)).take (front.length + block.length)).drop front.length = block
      rw [List.take_length_add_append, List.take_left, List.drop_left]
    · have h_none : ∀ m ∈ block, ¬ decide (m.page = page) = true := by
        intro m h_m
        rw [h_page m h_m, decide_eq_true_eq]
        exact h_eq
      rw [List.find?_cons_of_neg (by simpa using h_eq), List.filter_eq_nil_iff.2 h_none,
        List.nil_append, ← List.append_assoc]
      exact ih (front ++ block) (by rw [List.length_append, h_front])

/-- The first run of a page that is not before another one starts with the first such match. -/
theorem Tiles.start_eq (h : Tiles i l runs) (page : Nat) :
    (runs.find? (page ≤ ·.page)).map PageRun.start =
      (l.findIdx? (page ≤ ·.page)).map (· + i) := by
  induction h with
  | nil => rfl
  | @block i page' block rest runs h_block h_page h_behind _ ih =>
    rw [List.findIdx?_append]
    by_cases h_le : page ≤ page'
    · obtain ⟨m, block, rfl⟩ := List.exists_cons_of_ne_nil h_block
      have h_m : decide (page ≤ m.page) = true := by
        rw [h_page m List.mem_cons_self, decide_eq_true_eq]
        exact h_le
      have h_run : List.find? (page ≤ ·.page) (⟨page', i, i + (m :: block).length⟩ :: runs) =
          some ⟨page', i, i + (m :: block).length⟩ :=
        List.find?_cons_of_pos (decide_eq_true h_le)
      rw [h_run, List.findIdx?_cons, if_pos h_m, Option.some_or, Option.map_some, Option.map_some,
        Nat.zero_add]
    · have h_none : block.findIdx? (fun m => decide (page ≤ m.page)) = none := by
        rw [List.findIdx?_eq_none_iff]
        intro m h_m
        rw [h_page m h_m, decide_eq_false_iff_not]
        exact h_le
      rw [List.find?_cons_of_neg (by simpa using h_le), ih, h_none, Option.none_or, Option.map_map]
      congr 1
      funext j
      show j + (i + block.length) = j + block.length + i
      omega

end

/-! ## Sorting -/

/-- The matches of a list in document order. Those that begin at one point of a page are in the
    order in which they came. -/
structure StablySorted (l sorted : List Match) : Prop where
  perm : sorted.Perm l
  pairwise : sorted.Pairwise fun m n => m.le n = true
  filter_eq : ∀ page p, sorted.filter (fun m => m.page = page ∧ m.first = p) =
    l.filter fun m => m.page = page ∧ m.first = p

theorem stablySorted_mergeSort (l : List Match) : StablySorted l (l.mergeSort Match.le) where
  perm := List.mergeSort_perm l Match.le
  pairwise := List.pairwise_mergeSort @Match.le_trans Match.le_total l
  filter_eq page p := by
    -- matches of one begin are in order however they come, so they are left as they are
    have h_ordered : (l.filter fun m => m.page = page ∧ m.first = p).Pairwise
        fun m n => m.le n = true := by
      apply List.pairwise_of_forall_mem_list
      intro m h_m n h_n
      obtain ⟨h_m_page, h_m_first⟩ := of_decide_eq_true (List.mem_filter.1 h_m).2
      obtain ⟨h_n_page, h_n_first⟩ := of_decide_eq_true (List.mem_filter.1 h_n).2
      rw [Match.le_iff, h_m_page, h_n_page, h_m_first, h_n_first]
      exact .inr ⟨rfl, Point.le_refl p⟩
    have h_sublist := (List.sublist_mergeSort @Match.le_trans Match.le_total h_ordered
      List.filter_sublist).filter fun m : Match => m.page = page ∧ m.first = p
    rw [List.filter_filter] at h_sublist
    simp only [Bool.and_self] at h_sublist
    refine (h_sublist.eq_of_length ?_).symm
    exact ((List.mergeSort_perm l Match.le).filter _).length_eq.symm

/-! ## Steps -/

namespace Results

/-- The results after steps. -/
def run (r : Results) (steps : List Step) : Results := steps.foldl (fun r step => (r.step step).1) r

/-- A step takes the cursor to index `i` and gives the match there. -/
structure Lands (r : Results) (step : Step) (i : Nat) : Prop where
  lt : i < r.listed.length
  step_eq : r.step step = ({ r with cursor := some i }, some r.listed[i])

/-- Results that list some matches, with the cursor within them. -/
structure Lists (r : Results) (l : List Match) : Prop where
  sorted : StablySorted l r.listed
  tiles : Tiles 0 r.listed r.runs
  cursor_eq_none_iff : r.cursor = none ↔ r.listed = []
  cursor_lt : ∀ i, r.cursor = some i → i < r.listed.length

theorem ofList_cursor (l : List Match) :
    (ofList l).cursor = if (ofList l).listed.isEmpty then none else some 0 := rfl

theorem lists_ofList (l : List Match) : (ofList l).Lists l where
  sorted := stablySorted_mergeSort l
  tiles := by
    apply tiles_pageRuns
    refine (stablySorted_mergeSort l).pairwise.imp fun {m n} h_le => ?_
    rw [Match.le_iff] at h_le
    omega
  cursor_eq_none_iff := by
    rw [ofList_cursor]
    cases (ofList l).listed with
    | nil => exact iff_of_true rfl rfl
    | cons m rest => exact iff_of_false (Option.some_ne_none 0) (List.cons_ne_nil m rest)
  cursor_lt i h_i := by
    rw [ofList_cursor] at h_i
    cases h_listed : (ofList l).listed with
    | nil =>
      rw [h_listed] at h_i
      exact absurd h_i (by simp)
    | cons m rest =>
      rw [h_listed] at h_i
      rw [← Option.some.inj h_i]
      exact Nat.succ_pos _

section

variable {r : Results} {l : List Match} {s : Step} {i : Nat}

theorem step_of_listed_nil (h : r.listed = []) (s : Step) : r.step s = (r, none) := by
  rw [Results.step, if_pos]
  rw [isEmpty, h]
  rfl

theorem step_of_target?_none (h : r.target? s = none) : r.step s = (r, none) := by
  rw [Results.step, h]
  split
  · rfl
  · rfl

theorem lands_of_target? (h : r.target? s = some i) (h_lt : i < r.listed.length) :
    r.Lands s i where
  lt := h_lt
  step_eq := by
    rw [Results.step, if_neg, h, ← List.getElem?_eq_getElem]
    rw [isEmpty, List.isEmpty_iff]
    exact List.ne_nil_of_length_pos (Nat.zero_lt_of_lt h_lt)

/-- The first match of a page or behind it is looked up in the runs. -/
theorem Lists.target?_nearestPage (h : r.Lists l) (page : Nat) :
    r.target? (.nearestPage page) =
      some ((r.listed.findIdx? (page ≤ ·.page)).getD 0) := by
  have h_start := h.tiles.start_eq page
  simp only [Nat.add_zero, Option.map_id'] at h_start
  rw [← h_start, target?]
  cases r.runs.find? (page ≤ ·.page) with
  | none => rfl
  | some run => rfl

/-- Where there is a match, every step leads to one or nowhere. -/
theorem Lists.target?_lt (h : r.Lists l) (h_listed : r.listed ≠ [])
    (h_target : r.target? s = some i) : i < r.listed.length := by
  have h_pos := List.length_pos_of_ne_nil h_listed
  cases s with
  | next =>
    rw [← Option.some.inj h_target]
    cases r.cursor with
    | none => exact h_pos
    | some j => exact Nat.mod_lt _ h_pos
  | previous =>
    rw [← Option.some.inj h_target]
    cases r.cursor with
    | none => exact Nat.sub_lt h_pos Nat.one_pos
    | some j => exact Nat.mod_lt _ h_pos
  | first =>
    rw [← Option.some.inj h_target]
    exact h_pos
  | last =>
    rw [← Option.some.inj h_target]
    exact Nat.sub_lt h_pos Nat.one_pos
  | index j =>
    rw [target?, Option.ite_none_right_eq_some] at h_target
    rw [← Option.some.inj h_target.2]
    exact h_target.1
  | nearestPage page =>
    rw [h.target?_nearestPage] at h_target
    rw [← Option.some.inj h_target]
    cases h_find : r.listed.findIdx? (page ≤ ·.page) with
    | none => exact h_pos
    | some j => exact (List.findIdx?_eq_some_iff_getElem.1 h_find).1

/-- A step moves the cursor within the list or does nothing. -/
theorem Lists.lands_or (h : r.Lists l) (s : Step) :
    (∃ i, r.Lands s i) ∨ r.step s = (r, none) := by
  by_cases h_listed : r.listed = []
  · exact .inr (step_of_listed_nil h_listed s)
  · cases h_target : r.target? s with
    | none => exact .inr (step_of_target?_none h_target)
    | some i => exact .inl ⟨i, lands_of_target? h_target (h.target?_lt h_listed h_target)⟩

theorem Lists.step (h : r.Lists l) (s : Step) : (r.step s).1.Lists l := by
  rcases h.lands_or s with ⟨i, h_lands⟩ | h_step
  · rw [h_lands.step_eq]
    refine ⟨h.sorted, h.tiles, ?_, ?_⟩
    · exact iff_of_false (Option.some_ne_none i)
        (List.ne_nil_of_length_pos (Nat.zero_lt_of_lt h_lands.lt))
    · rintro j ⟨⟩
      exact h_lands.lt
  · rw [h_step]
    exact h

theorem Lists.run (h : r.Lists l) (steps : List Step) : (r.run steps).Lists l := by
  induction steps generalizing r with
  | nil => exact h
  | cons s steps ih => exact ih (h.step s)

/-! ## Around the list -/

theorem mod_pred_succ {n : Nat} (h : i < n) : ((i + 1) % n + (n - 1)) % n = i := by
  rw [Nat.mod_add_mod, show i + 1 + (n - 1) = i + n by omega, Nat.add_mod_right,
    Nat.mod_eq_of_lt h]

theorem mod_succ_pred {n : Nat} (h : i < n) : ((i + (n - 1)) % n + 1) % n = i := by
  rw [Nat.mod_add_mod, show i + (n - 1) + 1 = i + n by omega, Nat.add_mod_right,
    Nat.mod_eq_of_lt h]

theorem Lists.lands_next (h : r.Lists l) (h_cursor : r.cursor = some i) :
    r.Lands .next ((i + 1) % r.listed.length) := by
  apply lands_of_target?
  · rw [target?, h_cursor]
    rfl
  · exact Nat.mod_lt _ (Nat.zero_lt_of_lt (h.cursor_lt i h_cursor))

theorem Lists.lands_previous (h : r.Lists l) (h_cursor : r.cursor = some i) :
    r.Lands .previous ((i + (r.listed.length - 1)) % r.listed.length) := by
  have h_lt := h.cursor_lt i h_cursor
  apply lands_of_target?
  · rw [target?, h_cursor, ← Nat.add_sub_assoc (Nat.one_le_of_lt h_lt)]
    rfl
  · exact Nat.mod_lt _ (Nat.zero_lt_of_lt h_lt)

theorem Lands.eq_of_cursor {j : Nat} (h : { r with cursor := some j }.Lands s i)
    (h_cursor : r.cursor = some i) : ({ r with cursor := some j }.step s).1 = r := by
  rw [h.step_eq, ← h_cursor]

/-- A step back undoes a step on. -/
theorem Lists.previous_next (h : r.Lists l) : ((r.step .next).1.step .previous).1 = r := by
  cases h_cursor : r.cursor with
  | none =>
    have h_stay := step_of_listed_nil (h.cursor_eq_none_iff.1 h_cursor)
    rw [h_stay, h_stay]
  | some i =>
    have h_next := h.lands_next h_cursor
    have h_lists := h.step .next
    rw [h_next.step_eq] at h_lists ⊢
    have h_previous := h_lists.lands_previous rfl
    rw [mod_pred_succ (h.cursor_lt i h_cursor)] at h_previous
    exact h_previous.eq_of_cursor h_cursor

/-- A step on undoes a step back. -/
theorem Lists.next_previous (h : r.Lists l) : ((r.step .previous).1.step .next).1 = r := by
  cases h_cursor : r.cursor with
  | none =>
    have h_stay := step_of_listed_nil (h.cursor_eq_none_iff.1 h_cursor)
    rw [h_stay, h_stay]
  | some i =>
    have h_previous := h.lands_previous h_cursor
    have h_lists := h.step .previous
    rw [h_previous.step_eq] at h_lists ⊢
    have h_next := h_lists.lands_next rfl
    rw [mod_succ_pred (h.cursor_lt i h_cursor)] at h_next
    exact h_next.eq_of_cursor h_cursor

/-! ## Looking up -/

/-- The matches of a page are looked up in the runs. -/
theorem Lists.onPage_eq (h : r.Lists l) (page : Nat) :
    r.onPage page = r.listed.filter fun m => m.page = page :=
  h.tiles.slice_eq [] rfl page

theorem Lists.mem_listed_iff (h : r.Lists l) {m : Match} : m ∈ r.listed ↔ m ∈ l :=
  h.sorted.perm.mem_iff

/-- A point belongs to a match of its page if it belongs to any. -/
theorem Lists.isAny_iff (h : r.Lists l) (page : Nat) (p : Point) :
    r.isAny page p = true ↔ ∃ m ∈ l, m.contains page p = true := by
  rw [isAny, h.onPage_eq, List.any_eq_true]
  constructor
  · rintro ⟨m, h_m, h_contains⟩
    exact ⟨m, h.mem_listed_iff.1 (List.mem_filter.1 h_m).1, h_contains⟩
  · rintro ⟨m, h_m, h_contains⟩
    refine ⟨m, List.mem_filter.2 ⟨h.mem_listed_iff.2 h_m, ?_⟩, h_contains⟩
    exact decide_eq_true (Match.contains_iff.1 h_contains).1

end

end Results

/-- After any steps, results are a sorted list with a cursor. The list holds the given matches in
    document order, those of one begin as they came; the cursor is missing only if there are none,
    and then every step comes to nothing. Steps on and back go around the list and undo each other,
    a step to a page lands on the first match that is not before the page or else on the first of
    all, and an index beyond the list leads nowhere. The matches of a page are those of the list on
    that page, in its order, and a point belongs to a match of its page if it belongs to any. -/
theorem ofList_steps (l : List Match) (steps : List Step) :
    let r := (Results.ofList l).run steps
    let n := r.listed.length
    StablySorted l r.listed ∧
    (r.cursor = none ↔ l = []) ∧
    (l = [] → ∀ s, r.step s = (r, none)) ∧
    (∀ i, r.cursor = some i →
      i < n ∧ r.Lands .next ((i + 1) % n) ∧ r.Lands .previous ((i + (n - 1)) % n)) ∧
    ((r.step .next).1.step .previous).1 = r ∧ ((r.step .previous).1.step .next).1 = r ∧
    (l ≠ [] → r.Lands .first 0 ∧ r.Lands .last (n - 1) ∧
      ∀ page, r.Lands (.nearestPage page) ((r.listed.findIdx? (page ≤ ·.page)).getD 0)) ∧
    (∀ i, if i < n then r.Lands (.index i) i else r.step (.index i) = (r, none)) ∧
    (∀ page, r.onPage page = r.listed.filter fun m => m.page = page) ∧
    ∀ page p, r.isAny page p = true ↔ ∃ m ∈ l, m.contains page p = true := by
  intro r n
  have h : r.Lists l := (Results.lists_ofList l).run steps
  have h_nil : r.listed = [] ↔ l = [] := by
    have h_length := h.sorted.perm.length_eq
    rw [← List.length_eq_zero_iff, h_length, List.length_eq_zero_iff]
  refine ⟨h.sorted, h.cursor_eq_none_iff.trans h_nil, fun h_l => ?_, fun i h_cursor => ?_,
    h.previous_next, h.next_previous, fun h_l => ?_, fun i => ?_, h.onPage_eq, h.isAny_iff⟩
  · exact Results.step_of_listed_nil (h_nil.2 h_l)
  · exact ⟨h.cursor_lt i h_cursor, h.lands_next h_cursor, h.lands_previous h_cursor⟩
  · -- where there is a match, each of these steps leads to one
    have h_lands : ∀ {s i}, r.target? s = some i → r.Lands s i := fun h_target =>
      Results.lands_of_target? h_target (h.target?_lt (mt h_nil.1 h_l) h_target)
    exact ⟨h_lands rfl, h_lands rfl, fun page => h_lands (h.target?_nearestPage page)⟩
  · split
    · exact Results.lands_of_target? (if_pos ‹_›) ‹_›
    · exact Results.step_of_target?_none (if_neg ‹_›)

/-- Two matches on page 4, one in front and one behind, and a page step into the gap. -/
theorem ofList_steps_gap :
    let r := (Results.ofList [⟨4, ⟨3, 0⟩, ⟨3, 4⟩⟩, ⟨9, ⟨0, 2⟩, ⟨0, 2⟩⟩, ⟨1, ⟨0, 0⟩, ⟨2, 1⟩⟩,
      ⟨4, ⟨0, 5⟩, ⟨1, 0⟩⟩]).run [.last, .next, .index 7]
    r.cursor = some 0 ∧ r.Lands .previous 3 ∧ r.Lands (.nearestPage 2) 1 ∧
      r.Lands (.nearestPage 10) 0 ∧ r.step (.index 4) = (r, none) := by
  have h_listed : ((Results.ofList [⟨4, ⟨3, 0⟩, ⟨3, 4⟩⟩, ⟨9, ⟨0, 2⟩, ⟨0, 2⟩⟩, ⟨1, ⟨0, 0⟩, ⟨2, 1⟩⟩,
      ⟨4, ⟨0, 5⟩, ⟨1, 0⟩⟩]).run [.last, .next, .index 7]).listed =
        [⟨1, ⟨0, 0⟩, ⟨2, 1⟩⟩, ⟨4, ⟨0, 5⟩, ⟨1, 0⟩⟩, ⟨4, ⟨3, 0⟩, ⟨3, 4⟩⟩, ⟨9, ⟨0, 2⟩, ⟨0, 2⟩⟩] := by
    cbv
  have h_cursor : ((Results.ofList [⟨4, ⟨3, 0⟩, ⟨3, 4⟩⟩, ⟨9, ⟨0, 2⟩, ⟨0, 2⟩⟩, ⟨1, ⟨0, 0⟩, ⟨2, 1⟩⟩,
      ⟨4, ⟨0, 5⟩, ⟨1, 0⟩⟩]).run [.last, .next, .index 7]).cursor = some 0 := by cbv
  obtain ⟨-, -, -, h_around, -, -, h_page, h_index, -⟩ :=
    ofList_steps [⟨4, ⟨3, 0⟩, ⟨3, 4⟩⟩, ⟨9, ⟨0, 2⟩, ⟨0, 2⟩⟩, ⟨1, ⟨0, 0⟩, ⟨2, 1⟩⟩,
      ⟨4, ⟨0, 5⟩, ⟨1, 0⟩⟩] [.last, .next, .index 7]
  have h_previous := (h_around 0 h_cursor).2.2
  have h_nearest := (h_page (List.cons_ne_nil _ _)).2.2
  have h_gap := h_nearest 2
  have h_behind := h_nearest 10
  have h_beyond := h_index 4
  rw [h_listed] at h_previous h_gap h_behind h_beyond
  exact ⟨h_cursor, h_previous, h_gap, h_behind, h_beyond⟩

end PagedSearch
