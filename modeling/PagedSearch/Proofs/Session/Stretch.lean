/-
  PagedSearch.Proofs.Session.Stretch

  Reading stretches while the stop flag is looked at before each one. What is
  read are the stretches in front of the first look at a raised flag (`ready`),
  so a page that is stopped in the middle comes to what these come to alone
  (`seek_ready`, `gather_ready`). That does not depend on what is left in the
  scanner if it is reset before (`seek_reset`, `gather_reset`).
-/
import PagedSearch.Proofs.Session.Feeding

namespace PagedSearch

/-- The stretches in front of the first look at a raised flag. -/
def ready (up : Nat → Bool) : List Stretch → List Stretch
  | [] => []
  | st :: parts => if up 0 then [] else st :: ready (fun look => up (look + 1)) parts

theorem ready_isPrefix (up : Nat → Bool) (parts : List Stretch) : ready up parts <+: parts := by
  induction parts generalizing up with
  | nil => exact List.nil_prefix
  | cons st parts ih =>
    rw [ready]
    split
    · exact List.nil_prefix
    · exact List.cons_prefix_cons.2 ⟨rfl, ih _⟩

/-- None is ready at a look that finds the flag up. -/
theorem ready_length_le {up : Nat → Bool} {look : Nat} (h : up look = true)
    (parts : List Stretch) : (ready up parts).length ≤ look := by
  induction parts generalizing up look with
  | nil => exact Nat.zero_le _
  | cons st parts ih =>
    rw [ready]
    split
    · exact Nat.zero_le _
    · rename_i h_down
      cases look with
      | zero => exact absurd h h_down
      | succ look => exact Nat.succ_le_succ (ih h)

/-- While the flag is down, all are ready. -/
theorem ready_lowered {up : Nat → Bool} (h : ∀ look, up look = false) (parts : List Stretch) :
    ready up parts = parts := by
  induction parts generalizing up with
  | nil => rfl
  | cons st parts ih => rw [ready, h, if_neg Bool.false_ne_true, ih fun look => h (look + 1)]

/-- If not one is left out, all are ready. -/
theorem ready_eq_self {up : Nat → Bool} {parts : List Stretch}
    (h : decide ((ready up parts).length < parts.length) = false) : ready up parts = parts :=
  (ready_isPrefix up parts).eq_of_length_le (Nat.le_of_not_lt (of_decide_eq_false h))

namespace Scanner

section

variable {scanner : Scanner} {chain : Chain} {up : Nat → Bool}

/-- Asking for a match moves the scan on and keeps all else. -/
theorem advance?_eq {next : Scanner} {span : Option (Span Place)}
    (h : scanner.advance? = some (next, span)) :
    ∃ scan pending, next = { scanner with scan, pending } := by
  rw [advance?, Option.map_eq_some_iff] at h
  obtain ⟨chain, -, h_eq⟩ := h
  exact ⟨_, _, (Prod.mk.inj h_eq).1.symm⟩

/-- So does asking for all of them. -/
theorem drain?_eq {next : Scanner} {spans : List (Span Place)}
    (h : scanner.drain? = some (next, spans)) :
    ∃ scan pending, next = { scanner with scan, pending } := by
  rw [drain?, Option.map_eq_some_iff] at h
  obtain ⟨chain, -, h_eq⟩ := h
  exact ⟨_, _, (Prod.mk.inj h_eq).1.symm⟩

theorem seek_query (up : Nat → Bool) (scanner : Scanner) (parts : List Stretch) :
    (scanner.seek up parts).scanner.query = scanner.query := by
  induction parts generalizing scanner up with
  | nil => rfl
  | cons st parts ih =>
    rw [seek]
    split
    · rfl
    · split
      · obtain ⟨scan, pending, rfl⟩ := advance?_eq ‹_›
        rfl
      · obtain ⟨scan, pending, rfl⟩ := advance?_eq ‹_›
        exact ih _ _
      · rfl

theorem gather_query (up : Nat → Bool) (scanner : Scanner) (parts : List Stretch) :
    (scanner.gather up parts).scanner.query = scanner.query := by
  induction parts generalizing scanner up with
  | nil => rfl
  | cons st parts ih =>
    rw [gather]
    split
    · rfl
    · split
      · obtain ⟨scan, pending, rfl⟩ := drain?_eq ‹_›
        exact ih _ _
      · rfl

/-! ## What is found, and what is left out -/

/-- A search finds the first match of the stretches that are ready. It is stopped if there is none
    and others are left. -/
theorem seek_ready (h : scanner.query.chain = some chain) (up : Nat → Bool)
    (parts : List Stretch) :
    (scanner.seek up parts).spans = (scanner.firstOf? (ready up parts)).toList ∧
      (scanner.seek up parts).stopped = ((scanner.firstOf? (ready up parts)).isNone &&
        decide ((ready up parts).length < parts.length)) := by
  induction parts generalizing scanner up with
  | nil => exact ⟨rfl, rfl⟩
  | cons st parts ih =>
    rw [seek, ready]
    by_cases h_up : up 0 = true
    · rw [if_pos h_up, if_pos h_up]
      exact ⟨rfl, rfl⟩
    · rw [if_neg h_up, if_neg h_up, firstOf?]
      rcases h_advance : (scanner.feed st.text).advance? with _ | ⟨next, _ | span⟩
      · rw [advance?, Option.map_eq_none_iff] at h_advance
        exact absurd (h.symm.trans h_advance) (Option.some_ne_none chain)
      · -- nothing is found in the stretch, and both go on with the same scanner
        obtain ⟨scan, pending, rfl⟩ := advance?_eq h_advance
        have h_rest := @ih { scanner.feed st.text with scan, pending } h fun look => up (look + 1)
        simp only [List.length_cons, Nat.add_lt_add_iff_right]
        exact h_rest
      · exact ⟨rfl, rfl⟩

/-- A list takes the matches of the stretches that are ready, and these are what is read. It is
    stopped if others are left. -/
theorem gather_ready (h : scanner.query.chain = some chain) (up : Nat → Bool)
    (parts : List Stretch) :
    (scanner.gather up parts).spans = scanner.allOf (ready up parts) ∧
      (scanner.gather up parts).read = ready up parts ∧
      (scanner.gather up parts).stopped = decide ((ready up parts).length < parts.length) := by
  induction parts generalizing scanner up with
  | nil => exact ⟨rfl, rfl, rfl⟩
  | cons st parts ih =>
    rw [gather, ready]
    by_cases h_up : up 0 = true
    · rw [if_pos h_up, if_pos h_up]
      exact ⟨rfl, rfl, rfl⟩
    · rw [if_neg h_up, if_neg h_up, allOf]
      rcases h_drain : (scanner.feed st.text).drain? with _ | ⟨next, spans⟩
      · rw [drain?, Option.map_eq_none_iff] at h_drain
        exact absurd (h.symm.trans h_drain) (Option.some_ne_none chain)
      · obtain ⟨scan, pending, rfl⟩ := drain?_eq h_drain
        obtain ⟨h_spans, h_read, h_stopped⟩ :=
          @ih { scanner.feed st.text with scan, pending } h fun look => up (look + 1)
        simp only [List.length_cons, Nat.add_lt_add_iff_right]
        exact ⟨congrArg (spans ++ ·) h_spans, congrArg (st :: ·) h_read, h_stopped⟩

/-- The first of some stretches have the first of their matches. -/
theorem allOf_prefix (scanner : Scanner) {front parts : List Stretch} (h : front <+: parts) :
    scanner.allOf front <+: scanner.allOf parts := by
  induction parts generalizing scanner front with
  | nil =>
    obtain rfl := List.prefix_nil.1 h
    exact List.nil_prefix
  | cons st parts ih =>
    cases front with
    | nil => exact List.nil_prefix
    | cons st' front =>
      obtain ⟨rfl, h_front⟩ := List.cons_prefix_cons.1 h
      rw [allOf, allOf]
      split
      · exact (List.prefix_append_right_inj _).2 (ih _ h_front)
      · exact List.nil_prefix

/-- A search reads at most the stretches that are ready, and all of them if it finds nothing. -/
theorem seek_read (h : scanner.query.chain = some chain) (up : Nat → Bool)
    (parts : List Stretch) :
    (scanner.seek up parts).read <+: ready up parts ∧
      ((scanner.seek up parts).spans = [] → (scanner.seek up parts).read = ready up parts) := by
  induction parts generalizing scanner up with
  | nil => exact ⟨List.nil_prefix, fun _ => rfl⟩
  | cons st parts ih =>
    rw [seek, ready]
    by_cases h_up : up 0 = true
    · rw [if_pos h_up, if_pos h_up]
      exact ⟨List.nil_prefix, fun _ => rfl⟩
    · rw [if_neg h_up, if_neg h_up]
      rcases h_advance : (scanner.feed st.text).advance? with _ | ⟨next, _ | span⟩
      · rw [advance?, Option.map_eq_none_iff] at h_advance
        exact absurd (h.symm.trans h_advance) (Option.some_ne_none chain)
      · obtain ⟨scan, pending, rfl⟩ := advance?_eq h_advance
        obtain ⟨h_read, h_all⟩ :=
          @ih { scanner.feed st.text with scan, pending } h fun look => up (look + 1)
        exact ⟨List.cons_prefix_cons.2 ⟨rfl, h_read⟩,
          fun h_spans => congrArg (st :: ·) (h_all h_spans)⟩
      · exact ⟨List.cons_prefix_cons.2 ⟨rfl, List.nil_prefix⟩,
          fun h_spans => absurd h_spans (List.cons_ne_nil _ _)⟩

/-! ## The flag is up or down -/

/-- While the stop flag is up, nothing is read. -/
theorem seek_raised (h : up 0 = true) (scanner : Scanner) (parts : List Stretch) :
    scanner.seek up parts = { scanner, stopped := !parts.isEmpty } := by
  cases parts with
  | nil => rfl
  | cons st parts => exact if_pos h

theorem gather_raised (h : up 0 = true) (scanner : Scanner) (parts : List Stretch) :
    scanner.gather up parts = { scanner, stopped := !parts.isEmpty } := by
  cases parts with
  | nil => rfl
  | cons st parts => exact if_pos h

/-- While it is down, the first match is found if there is one. -/
theorem seek_lowered (h : scanner.query.chain = some chain) (h_down : ∀ look, up look = false)
    (parts : List Stretch) :
    (scanner.seek up parts).stopped = false ∧
      (scanner.seek up parts).spans = (scanner.firstOf? parts).toList := by
  obtain ⟨h_spans, h_stopped⟩ := seek_ready h up parts
  rw [ready_lowered h_down] at h_spans h_stopped
  rw [h_stopped, decide_eq_false (Nat.lt_irrefl _), Bool.and_false]
  exact ⟨rfl, h_spans⟩

/-- While it is down, all matches are found. -/
theorem gather_lowered (h : scanner.query.chain = some chain) (h_down : ∀ look, up look = false)
    (parts : List Stretch) :
    (scanner.gather up parts).stopped = false ∧
      (scanner.gather up parts).spans = scanner.allOf parts := by
  obtain ⟨h_spans, -, h_stopped⟩ := gather_ready h up parts
  rw [ready_lowered h_down] at h_spans h_stopped
  exact ⟨h_stopped.trans (decide_eq_false (Nat.lt_irrefl _)), h_spans⟩

/-! ## What is left in the scanner -/

/-- A scanner that was reset finds what a fresh one finds. -/
theorem allOf_reset (h : scanner.query.chain = some chain) (parts : List Stretch) :
    scanner.reset.allOf parts = (fresh scanner.query.settings chain).allOf parts := by
  rw [@allOf_eq scanner.reset chain h, @allOf_eq (fresh _ chain) chain rfl]
  exact Scan.drain_restarted ..

theorem firstOf?_reset (h : scanner.query.chain = some chain) (parts : List Stretch) :
    scanner.reset.firstOf? parts = (fresh scanner.query.settings chain).firstOf? parts := by
  rw [@firstOf?_eq_head? scanner.reset chain h, @firstOf?_eq_head? (fresh _ chain) chain rfl,
    allOf_reset h]

/-- So it comes to the same on a page, wherever that is stopped. -/
theorem seek_reset (h : scanner.query.chain = some chain) (up : Nat → Bool)
    (parts : List Stretch) :
    let reading := (fresh scanner.query.settings chain).seek up parts
    (scanner.reset.seek up parts).spans = reading.spans ∧
      (scanner.reset.seek up parts).stopped = reading.stopped := by
  obtain ⟨h_spans, h_stopped⟩ := @seek_ready scanner.reset chain h up parts
  obtain ⟨h_fresh, h_halted⟩ := @seek_ready (fresh scanner.query.settings chain) chain rfl up parts
  rw [firstOf?_reset h] at h_spans h_stopped
  exact ⟨h_spans.trans h_fresh.symm, h_stopped.trans h_halted.symm⟩

theorem gather_reset (h : scanner.query.chain = some chain) (up : Nat → Bool)
    (parts : List Stretch) :
    let reading := (fresh scanner.query.settings chain).gather up parts
    (scanner.reset.gather up parts).spans = reading.spans ∧
      (scanner.reset.gather up parts).stopped = reading.stopped := by
  obtain ⟨h_spans, -, h_stopped⟩ := @gather_ready scanner.reset chain h up parts
  obtain ⟨h_fresh, -, h_halted⟩ :=
    @gather_ready (fresh scanner.query.settings chain) chain rfl up parts
  rw [allOf_reset h] at h_spans
  exact ⟨h_spans.trans h_fresh.symm, h_stopped.trans h_halted.symm⟩

/-- Where no match is found and nothing is left out, all stretches are read. -/
theorem seek_exhausted (h : scanner.query.chain = some chain) {parts : List Stretch}
    (h_spans : (scanner.seek up parts).spans = [])
    (h_stopped : (scanner.seek up parts).stopped = false) :
    (scanner.seek up parts).read = parts := by
  obtain ⟨h_first, h_left⟩ := seek_ready h up parts
  rw [h_spans] at h_first
  rw [Option.toList_eq_nil_iff.1 h_first.symm] at h_left
  rw [(seek_read h up parts).2 h_spans, ready_eq_self (h_left.symm.trans h_stopped)]

end

end Scanner

end PagedSearch
