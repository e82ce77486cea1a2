/-
  PagedSearch.Proofs.Chain.Covering

  What it means that one symbol covers another. `Subsumes σ τ` is covering by
  what is accepted: both symbols take one character, and `σ` takes every
  character that `τ` takes. `covers` guarantees it (`Subsumes.of_covers`) but
  is no equivalence, and not even transitive where a set is empty;
  `Subsumes` is transitive, and that is what chains of links need.
-/
import PagedSearch.Symbol

namespace PagedSearch

/-! ## Character sets -/

/-- A range lists every character that it contains. -/
theorem CharRange.mem_chars {r : CharRange} {c : Char} (h : r.contains c = true) :
    c ∈ r.chars := by
  simp only [CharRange.contains, Bool.and_eq_true, decide_eq_true_eq] at h
  obtain ⟨h_first, h_last⟩ := h
  have h_low : r.first.toNat ≤ c.toNat := h_first
  have h_high : c.toNat ≤ r.last.toNat := h_last
  rw [CharRange.chars, List.mem_filterMap]
  -- every code of the range is tried, and those of characters are kept
  refine ⟨c.toNat, ?_, ?_⟩
  · rw [List.mem_range'_1]
    omega
  · have h_valid : c.toNat.isValidChar := c.valid
    rw [CharRange.charOfCode?, dif_pos h_valid, Option.some.injEq]
    apply Char.ext
    apply UInt32.toNat_inj.mp
    rfl

/-- A set lists every character that it contains. -/
theorem CharSet.mem_listed {s : CharSet} {c : Char} (h : s.contains c = true) : c ∈ s.listed := by
  rw [CharSet.contains, List.any_eq_true] at h
  obtain ⟨r, h_mem, h_r⟩ := h
  exact List.mem_flatMap.2 ⟨r, h_mem, CharRange.mem_chars h_r⟩

theorem CharSet.contains_of_includes {s t : CharSet} (h : s.includes t = true) {c : Char}
    (h_c : t.contains c = true) : s.contains c = true := by
  rw [CharSet.includes, List.all_eq_true] at h
  exact h c (CharSet.mem_listed h_c)

theorem CharSet.eq_of_isOnly {s : CharSet} {a : Char} (h : s.isOnly a = true) {c : Char}
    (h_c : s.contains c = true) : a = c := by
  simp only [CharSet.isOnly, Bool.and_eq_true, List.all_eq_true, beq_iff_eq] at h
  rw [CharSet.contains, List.any_eq_true] at h_c
  obtain ⟨r, h_mem, h_r⟩ := h_c
  obtain ⟨h_first, h_last⟩ := h.2 r h_mem
  simp only [CharRange.contains, Bool.and_eq_true, decide_eq_true_eq] at h_r
  rw [h_first, h_last] at h_r
  exact Char.le_antisymm h_r.1 h_r.2

/-! ## Symbols -/

namespace Symbol

/-- Both symbols take one character, and the first takes all that the second takes. -/
structure Subsumes (σ τ : Symbol) : Prop where
  left_single : σ.isMany = false
  right_single : τ.isMany = false
  accepts_of : ∀ c, τ.accepts c = true → σ.accepts c = true

theorem Subsumes.trans {ρ σ τ : Symbol} (h_ρσ : Subsumes ρ σ) (h_στ : Subsumes σ τ) :
    Subsumes ρ τ where
  left_single := h_ρσ.left_single
  right_single := h_στ.right_single
  accepts_of c h_c := h_ρσ.accepts_of c (h_στ.accepts_of c h_c)

theorem Subsumes.of_covers {σ τ : Symbol} (h : σ.covers τ = true) : Subsumes σ τ := by
  cases σ with
  | many σ => simp [covers] at h
  | any =>
    cases τ with
    | many τ => simp [covers] at h
    | _ => exact ⟨rfl, rfl, fun c _ => rfl⟩
  | char a =>
    cases τ with
    | many τ => simp [covers] at h
    | any => simp [covers] at h
    | char b => exact ⟨rfl, rfl, fun c h_c => by simp_all [covers, accepts]⟩
    | set t =>
      -- a character covers only the sets that hold nothing else
      refine ⟨rfl, rfl, ?_⟩
      intro c h_c
      exact beq_iff_eq.2 (CharSet.eq_of_isOnly h h_c)
  | set s =>
    cases τ with
    | many τ => simp [covers] at h
    | any => simp [covers] at h
    | char b =>
      refine ⟨rfl, rfl, ?_⟩
      intro c h_c
      have h_eq : b = c := beq_iff_eq.1 h_c
      rw [← h_eq]
      exact h
    | set t => exact ⟨rfl, rfl, fun c h_c => CharSet.contains_of_includes h h_c⟩

/-- Among plain characters covering is equality. -/
theorem char_covers_char {a b : Char} : (char a).covers (char b) = true ↔ a = b := beq_iff_eq

end Symbol

end PagedSearch
