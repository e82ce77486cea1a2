/-
  PagedSearch.Proofs.Document.Significant

  The significant characters of a page with their points, from the first
  fragment to the last. This is the text that a search on the page is about,
  however the page is cut: what a search reads is all of it or what lies on
  one side of a point (`flatMap_stretches`), in the order of its direction.
  Points go up along it (`significant_pairwise`).
-/
import Mathlib.Data.List.Basic
import PagedSearch.Proofs.Scan.Occurrence
import PagedSearch.Session.Stretch

namespace PagedSearch

/-- `p` stands before `q` on its page. -/
def Point.Before (p q : Point) : Prop :=
  p.fragment < q.fragment ∨ (p.fragment = q.fragment ∧ p.offset < q.offset)

instance (p q : Point) : Decidable (p.Before q) :=
  inferInstanceAs (Decidable (_ ∨ _))

namespace Point

variable {p q r : Point}

theorem before_iff : p.Before q ↔
    p.fragment < q.fragment ∨ (p.fragment = q.fragment ∧ p.offset < q.offset) := Iff.rfl

theorem Before.trans (h_pq : p.Before q) (h_qr : q.Before r) : p.Before r := by
  rw [before_iff] at *
  omega

theorem Before.trans_le (h_pq : p.Before q) (h_qr : q.le r = true) : p.Before r := by
  rw [before_iff] at *
  rw [le_iff] at h_qr
  omega

theorem before_of_le_of_before (h_pq : p.le q = true) (h_qr : q.Before r) : p.Before r := by
  rw [before_iff] at *
  rw [le_iff] at h_pq
  omega

theorem not_before_self (p : Point) : ¬ p.Before p := by
  rw [before_iff]
  omega

theorem Before.le (h : p.Before q) : p.le q = true := by
  rw [before_iff] at h
  rw [le_iff]
  omega

theorem not_le_iff : ¬ p.le q = true ↔ q.Before p := by
  rw [le_iff, before_iff]
  omega

end Point

/-- Where points go up, a part lies within its span. -/
theorem Span.Delimits.le_of_mem {span : Span Point} {part : List (Char × Point)}
    {x : Char × Point} (h : span.Delimits part)
    (h_up : part.Pairwise fun x y => x.2.Before y.2) (h_x : x ∈ part) :
    span.first.le x.2 = true ∧ x.2.le span.last = true := by
  obtain ⟨y, h_head, h_first⟩ := Option.map_eq_some_iff.1 h.first_eq
  obtain ⟨z, h_end, h_last⟩ := Option.map_eq_some_iff.1 h.last_eq
  rw [← h_first, ← h_last]
  constructor
  · obtain ⟨tail, rfl⟩ := List.head?_eq_some_iff.1 h_head
    rcases List.mem_cons.1 h_x with rfl | h_x
    · exact Point.le_refl x.2
    · exact Point.Before.le ((List.pairwise_cons.1 h_up).1 x h_x)
  · obtain ⟨front, rfl⟩ := List.getLast?_eq_some_iff.1 h_end
    rcases List.mem_append.1 h_x with h_x | h_x
    · exact Point.Before.le ((List.pairwise_append.1 h_up).2.2 x h_x z (List.mem_singleton_self z))
    · rw [List.mem_singleton.1 h_x]
      exact Point.le_refl z.2

/-- Where points go up, a part ends where it begins or behind. -/
theorem Span.Delimits.first_le {span : Span Point} {part : List (Char × Point)}
    (h : span.Delimits part) (h_up : part.Pairwise fun x y => x.2.Before y.2) :
    span.first.le span.last = true := by
  obtain ⟨y, h_y, h_last⟩ := h.last_mem
  rw [← h_last]
  exact (h.le_of_mem h_up h_y).1

/-! ## One fragment -/

/-- The significant characters of a part of fragment `i` that starts at offset `base`. -/
def Settings.pointed (s : Settings) (i base : Nat) (t : Text) : List (Char × Point) :=
  (t.zipIdx base).filterMap fun (c, offset) =>
    if s.skips (s.foldChar c) then none else some (s.foldChar c, ⟨i, offset⟩)

/-- The significant characters of a stretch with their points, in the order of reading. -/
def Stretch.significant (s : Settings) (st : Stretch) : List (Char × Point) :=
  s.inOrder (s.pointed st.fragment st.base st.text)

theorem mem_pointed {s : Settings} {i base : Nat} {t : Text} {x : Char × Point}
    (h : x ∈ s.pointed i base t) : x.2.fragment = i ∧ base ≤ x.2.offset ∧
      x.2.offset < base + t.length := by
  obtain ⟨⟨c, offset⟩, h_mem, h_x⟩ := List.mem_filterMap.1 h
  simp only [Option.ite_none_left_eq_some, Option.some.injEq] at h_x
  rw [← h_x.2]
  exact ⟨rfl, List.le_snd_of_mem_zipIdx h_mem, List.snd_lt_add_of_mem_zipIdx h_mem⟩

theorem pointed_append (s : Settings) (i base : Nat) (t u : Text) :
    s.pointed i base (t ++ u) = s.pointed i base t ++ s.pointed i (base + t.length) u := by
  rw [Settings.pointed, List.zipIdx_append, List.filterMap_append]
  rfl

theorem pointed_pairwise (s : Settings) (i base : Nat) (t : Text) :
    (s.pointed i base t).Pairwise fun x y => x.2.Before y.2 := by
  rw [Settings.pointed, List.pairwise_filterMap]
  refine (zipIdx_pairwise t base).imp ?_
  rintro ⟨c, j⟩ ⟨d, k⟩ h_lt x h_x y h_y
  simp only [Option.ite_none_left_eq_some, Option.some.injEq] at h_x h_y
  rw [← h_x.2, ← h_y.2]
  exact .inr ⟨rfl, h_lt⟩

/-- What is cut off a fragment in front, up to the point included. -/
theorem filter_pointed_behind (s : Settings) (p : Point) (t : Text) :
    (s.pointed p.fragment 0 t).filter (fun x => decide (p.Before x.2)) =
      s.pointed p.fragment (p.offset + 1) (t.drop (p.offset + 1)) := by
  by_cases h_len : p.offset + 1 ≤ t.length
  · have h_split := pointed_append s p.fragment 0 (t.take (p.offset + 1)) (t.drop (p.offset + 1))
    rw [List.take_append_drop, List.length_take, Nat.min_eq_left h_len, Nat.zero_add] at h_split
    rw [h_split, List.filter_append, List.filter_eq_nil_iff.2, List.filter_eq_self.2,
      List.nil_append]
    · intro x h_x
      obtain ⟨h_fragment, h_base, -⟩ := mem_pointed h_x
      exact decide_eq_true (.inr ⟨h_fragment.symm, h_base⟩)
    · intro x h_x h_before
      obtain ⟨h_fragment, -, h_lt⟩ := mem_pointed h_x
      rw [List.length_take] at h_lt
      have h_before := Point.before_iff.1 (of_decide_eq_true h_before)
      omega
  · -- the point lies at the end of the fragment or beyond it
    rw [List.drop_of_length_le (by omega), List.filter_eq_nil_iff.2]
    · rfl
    · intro x h_x h_before
      obtain ⟨h_fragment, -, h_lt⟩ := mem_pointed h_x
      have h_before := Point.before_iff.1 (of_decide_eq_true h_before)
      omega

/-- What is cut off a fragment behind, from the point on. -/
theorem filter_pointed_before (s : Settings) (p : Point) (t : Text) :
    (s.pointed p.fragment 0 t).filter (fun x => decide (x.2.Before p)) =
      s.pointed p.fragment 0 (t.take p.offset) := by
  have h_split := pointed_append s p.fragment 0 (t.take p.offset) (t.drop p.offset)
  rw [List.take_append_drop] at h_split
  rw [h_split, List.filter_append, List.filter_eq_self.2, List.filter_eq_nil_iff.2,
    List.append_nil]
  · intro x h_x h_before
    obtain ⟨h_fragment, h_base, h_lt⟩ := mem_pointed h_x
    rw [List.length_take] at h_base h_lt
    rw [List.length_drop] at h_lt
    have h_before := Point.before_iff.1 (of_decide_eq_true h_before)
    omega
  · intro x h_x
    obtain ⟨h_fragment, -, h_lt⟩ := mem_pointed h_x
    rw [List.length_take] at h_lt
    exact decide_eq_true (.inr ⟨h_fragment, by omega⟩)

/-! ## A page -/

/-- The significant characters of a page's fragments with their points. -/
def Settings.significantOn (s : Settings) (fragments : List Text) : List (Char × Point) :=
  fragments.zipIdx.flatMap fun (t, i) => s.pointed i 0 t

/-- The points of a page go up. -/
theorem significantOn_pairwise (s : Settings) (fragments : List Text) :
    (s.significantOn fragments).Pairwise fun x y => x.2.Before y.2 := by
  rw [Settings.significantOn, List.pairwise_flatMap]
  constructor
  · rintro ⟨t, i⟩ -
    exact pointed_pairwise s i 0 t
  · -- across fragments the index decides
    refine (zipIdx_pairwise fragments 0).imp ?_
    rintro ⟨t, i⟩ ⟨u, j⟩ h_lt x h_x y h_y
    refine .inl ?_
    rw [(mem_pointed h_x).1, (mem_pointed h_y).1]
    exact h_lt

/-- A point lies ahead if there is nothing to go on from, or if it is on the far side of the
    point to go on from. -/
def Direction.Ahead (dir : Direction) : Option Point → Point → Prop
  | none, _ => True
  | some p, q => match dir with
    | .forward => p.Before q
    | .backward => q.Before p

instance (dir : Direction) : (resume : Option Point) → (q : Point) → Decidable (dir.Ahead resume q)
  | none, _ => inferInstanceAs (Decidable True)
  | some p, q => match dir with
    | .forward => inferInstanceAs (Decidable (p.Before q))
    | .backward => inferInstanceAs (Decidable (q.Before p))

theorem filter_ahead_none (dir : Direction) (l : List (Char × Point)) :
    l.filter (fun x => decide (dir.Ahead none x.2)) = l :=
  List.filter_eq_self.2 fun _ _ => decide_eq_true trivial

theorem behind?_significant {s : Settings} (h_dir : s.direction = .forward) (p : Point)
    (i : Nat) (t : Text) :
    (Stretch.behind? p i t).toList.flatMap (Stretch.significant s) =
      (s.pointed i 0 t).filter fun x => decide (p.Before x.2) := by
  rw [Stretch.behind?]
  by_cases h_lt : i < p.fragment
  · rw [if_pos h_lt, List.filter_eq_nil_iff.2]
    · rfl
    · intro x h_x h_before
      have h_fragment := (mem_pointed h_x).1
      have h_before := Point.before_iff.1 (of_decide_eq_true h_before)
      omega
  · rw [if_neg h_lt]
    by_cases h_eq : i = p.fragment
    · subst h_eq
      rw [if_pos rfl, filter_pointed_behind, Option.toList_some, List.flatMap_singleton,
        Stretch.significant, Settings.inOrder, h_dir]
    · rw [if_neg h_eq, Option.toList_some, List.flatMap_singleton, Stretch.significant,
        Settings.inOrder, h_dir, List.filter_eq_self.2]
      intro x h_x
      have h_fragment := (mem_pointed h_x).1
      exact decide_eq_true (.inl (by omega))

theorem before?_significant {s : Settings} (h_dir : s.direction = .backward) (p : Point)
    (i : Nat) (t : Text) :
    (Stretch.before? p i t).toList.flatMap (Stretch.significant s) =
      ((s.pointed i 0 t).filter fun x => decide (x.2.Before p)).reverse := by
  rw [Stretch.before?]
  by_cases h_lt : p.fragment < i
  · rw [if_pos h_lt, List.filter_eq_nil_iff.2]
    · rfl
    · intro x h_x h_before
      have h_fragment := (mem_pointed h_x).1
      have h_before := Point.before_iff.1 (of_decide_eq_true h_before)
      omega
  · rw [if_neg h_lt]
    by_cases h_eq : i = p.fragment
    · subst h_eq
      rw [if_pos rfl, filter_pointed_before, Option.toList_some, List.flatMap_singleton,
        Stretch.significant, Settings.inOrder, h_dir]
    · rw [if_neg h_eq, Option.toList_some, List.flatMap_singleton, Stretch.significant,
        Settings.inOrder, h_dir, List.filter_eq_self.2]
      intro x h_x
      have h_fragment := (mem_pointed h_x).1
      exact decide_eq_true (.inl (by omega))

/-- A search reads the characters of the page that lie ahead, in its order. -/
theorem flatMap_stretches (s : Settings) (resume : Option Point) (fragments : List Text) :
    (stretches s.direction resume fragments).flatMap (Stretch.significant s) =
      s.inOrder ((s.significantOn fragments).filter fun x =>
        decide (s.direction.Ahead resume x.2)) := by
  cases h_dir : s.direction with
  | forward =>
    rw [Settings.inOrder, h_dir]
    cases resume with
    | none =>
      rw [stretches, List.flatMap_map, filter_ahead_none, Settings.significantOn]
      congr 1
      funext ⟨t, i⟩
      rw [Stretch.significant, Settings.inOrder, h_dir]
    | some p =>
      rw [stretches, List.filterMap_eq_flatMap_toList, List.flatMap_assoc, Settings.significantOn,
        List.filter_flatMap]
      congr 1
      funext ⟨t, i⟩
      exact behind?_significant h_dir p i t
  | backward =>
    rw [Settings.inOrder, h_dir]
    cases resume with
    | none =>
      rw [stretches, List.flatMap_map, filter_ahead_none, Settings.significantOn,
        List.reverse_flatMap]
      congr 1
      funext ⟨t, i⟩
      rw [Stretch.significant, Settings.inOrder, h_dir]
      rfl
    | some p =>
      rw [stretches, List.filterMap_eq_flatMap_toList, List.flatMap_assoc, Settings.significantOn,
        List.filter_flatMap, List.reverse_flatMap]
      congr 1
      funext ⟨t, i⟩
      exact before?_significant h_dir p i t

end PagedSearch
