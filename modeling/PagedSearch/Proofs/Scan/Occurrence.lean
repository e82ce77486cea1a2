/-
  PagedSearch.Proofs.Scan.Occurrence

  Where a word stands in a text whose characters have places. An occurrence
  is a part of the text that spells the word; a span gives the places of its
  first and last character. `Picked w s spans` is the greedy choice from the
  left: the leftmost occurrence, then the leftmost one behind it, and so on
  until there is none.
-/
import PagedSearch.Scan

namespace PagedSearch

variable {α : Type}

/-- The indices of a list go up. -/
theorem zipIdx_pairwise {β : Type} (l : List β) (n : Nat) :
    (l.zipIdx n).Pairwise fun x y => x.2 < y.2 := by
  have h := List.pairwise_lt_range' (s := n) (n := l.length) 1
  rw [← List.zipIdx_map_snd, List.pairwise_map] at h
  exact h

/-- Read from the other end, indices count from there. -/
theorem zipIdx_reverse {β : Type} (l : List β) :
    l.reverse.zipIdx = (l.zipIdx.map fun x => (x.1, l.length - 1 - x.2)).reverse := by
  apply List.ext_getElem
  · simp only [List.length_zipIdx, List.length_reverse, List.length_map]
  · intro i h_i _
    rw [List.length_zipIdx, List.length_reverse] at h_i
    simp only [List.getElem_zipIdx, List.getElem_reverse, List.getElem_map, List.length_map,
      List.length_zipIdx, Prod.mk.injEq, true_and]
    omega

/-- An element of a list made of parts stands in one of the parts. -/
theorem exists_of_flatMap_eq {α β : Type} {f : α → List β} {l : List α} {xs ys : List β} {y : β}
    (h : l.flatMap f = xs ++ y :: ys) : ∃ front a back pre post, l = front ++ a :: back ∧
      f a = pre ++ y :: post ∧ xs = front.flatMap f ++ pre ∧ ys = post ++ back.flatMap f := by
  induction l generalizing xs with
  | nil => simp at h
  | cons b l ih =>
    rw [List.flatMap_cons, List.append_eq_append_iff] at h
    rcases h with ⟨xs', rfl, h_rest⟩ | ⟨ys', h_b, h_ys⟩
    · -- it stands behind the first part
      obtain ⟨front, a, back, pre, post, rfl, h_a, rfl, h_ys⟩ := ih h_rest
      exact ⟨b :: front, a, back, pre, post, rfl, h_a, by rw [List.flatMap_cons, List.append_assoc],
        h_ys⟩
    · rcases List.cons_eq_append_iff.1 h_ys with ⟨rfl, h_l⟩ | ⟨post, rfl, rfl⟩
      · obtain ⟨front, a, back, pre, post, rfl, h_a, h_front, h_ys⟩ := @ih [] h_l
        rw [List.append_nil] at h_b
        refine ⟨b :: front, a, back, pre, post, rfl, h_a, ?_, h_ys⟩
        rw [List.flatMap_cons, List.append_assoc, ← h_front, List.append_nil, h_b]
      · exact ⟨[], b, l, xs, post, rfl, h_b, rfl, rfl⟩

/-- The span holds the places of the first and the last character of a part of a text. -/
structure Span.Delimits (span : Span α) (part : List (Char × α)) : Prop where
  first_eq : part.head?.map Prod.snd = some span.first
  last_eq : part.getLast?.map Prod.snd = some span.last

namespace Span.Delimits

variable {span : Span α} {part : List (Char × α)}

theorem first_mem (h : span.Delimits part) : ∃ x ∈ part, x.2 = span.first := by
  obtain ⟨x, h_x, h_first⟩ := Option.map_eq_some_iff.1 h.first_eq
  exact ⟨x, List.mem_of_mem_head? h_x, h_first⟩

theorem last_mem (h : span.Delimits part) : ∃ x ∈ part, x.2 = span.last := by
  obtain ⟨x, h_x, h_last⟩ := Option.map_eq_some_iff.1 h.last_eq
  exact ⟨x, List.mem_of_getLast? h_x, h_last⟩

/-- Read from the other end, the part begins where it ended. -/
theorem reverse (h : span.Delimits part) :
    (⟨span.last, span.first⟩ : Span α).Delimits part.reverse where
  first_eq := by rw [List.head?_reverse, h.last_eq]
  last_eq := by rw [List.getLast?_reverse, h.first_eq]

/-- A part has one span. -/
theorem unique {other : Span α} (h : span.Delimits part) (h_other : other.Delimits part) :
    span = other := by
  have h_first := h.first_eq.symm.trans h_other.first_eq
  have h_last := h.last_eq.symm.trans h_other.last_eq
  rw [Option.some.injEq] at h_first h_last
  cases span
  cases other
  rw [Span.mk.injEq]
  exact ⟨h_first, h_last⟩

end Span.Delimits

/-- The text is cut in three, and the part in the middle spells the word. -/
structure Occurrence (w : Text) (s before part behind : List (Char × α)) : Prop where
  split : s = before ++ part ++ behind
  spelled : part.map Prod.fst = w

namespace Occurrence

variable {w : Text} {s before part behind before' part' behind' : List (Char × α)}
  {span span' : Span α}

/-- Read from the other end, the word occurs from right to left. -/
theorem reverse (h : Occurrence w s before part behind) :
    Occurrence w.reverse s.reverse behind.reverse part.reverse before.reverse where
  split := by rw [h.split, List.reverse_append, List.reverse_append, List.append_assoc]
  spelled := by rw [List.map_reverse, h.spelled]

theorem part_length (h : Occurrence w s before part behind) : part.length = w.length := by
  rw [← h.spelled, List.length_map]

/-- Where places go up, what stands in front of an occurrence has earlier places. -/
theorem lt_of_mem {r : α → α → Prop} (h_r : s.Pairwise fun x y => r x.2 y.2)
    (h : Occurrence w s before part behind) {x y : Char × α} (h_x : x ∈ before) (h_y : y ∈ part) :
    r x.2 y.2 := by
  rw [h.split, List.append_assoc, List.pairwise_append] at h_r
  exact h_r.2.2 x h_x y (List.mem_append_left _ h_y)

/-- As much of an occurrence as ends in front of another one is in the text in front of it. -/
theorem append_prefix_before (h : Occurrence w s before part behind)
    (h' : Occurrence w s before' part' behind') {front : List (Char × α)} (h_front : front <+: part)
    (h_le : before.length + front.length ≤ before'.length) : before ++ front <+: before' := by
  have h_left : before ++ front <+: s := by
    rw [h.split, List.append_assoc, List.prefix_append_right_inj]
    exact h_front.trans (List.prefix_append _ _)
  have h_right : before' <+: s := by
    rw [h'.split, List.append_assoc]
    exact List.prefix_append _ _
  refine List.prefix_of_prefix_length_le h_left h_right ?_
  rwa [List.length_append]

/-- Where places go up, an occurrence further left begins earlier. -/
theorem first_lt {r : α → α → Prop} (h_r : s.Pairwise fun x y => r x.2 y.2)
    (h : Occurrence w s before part behind) (h' : Occurrence w s before' part' behind')
    (h_span : span.Delimits part) (h_span' : span'.Delimits part')
    (h_lt : before.length < before'.length) : r span.first span'.first := by
  obtain ⟨x, h_x, h_first⟩ := Option.map_eq_some_iff.1 h_span.first_eq
  obtain ⟨part, rfl⟩ := List.head?_eq_some_iff.1 h_x
  obtain ⟨y, h_y, h_first'⟩ := h_span'.first_mem
  -- the first character of one stands in front of the other
  have h_front : before ++ [x] <+: before' := h.append_prefix_before h' ⟨part, rfl⟩ h_lt
  rw [← h_first, ← h_first']
  exact h'.lt_of_mem h_r (h_front.subset (List.mem_append_right _ List.mem_cons_self)) h_y

/-- Where places go up, an occurrence that lies wholly further left ends before the other begins. -/
theorem last_lt_first {r : α → α → Prop} (h_r : s.Pairwise fun x y => r x.2 y.2)
    (h : Occurrence w s before part behind) (h' : Occurrence w s before' part' behind')
    (h_span : span.Delimits part) (h_span' : span'.Delimits part')
    (h_le : before.length + w.length ≤ before'.length) : r span.last span'.first := by
  obtain ⟨x, h_x, h_last⟩ := h_span.last_mem
  obtain ⟨y, h_y, h_first⟩ := h_span'.first_mem
  rw [← h.part_length] at h_le
  have h_front : before ++ part <+: before' :=
    h.append_prefix_before h' (List.prefix_refl part) h_le
  rw [← h_last, ← h_first]
  exact h'.lt_of_mem h_r (h_front.subset (List.mem_append_right _ h_x)) h_y

/-- The end of an occurrence that reaches into another one is a beginning of the word. -/
theorem drop_prefix (h : Occurrence w s before part behind)
    (h' : Occurrence w s before' part' behind') {k : Nat} (h_k : k ≤ w.length)
    (h_length : before'.length = before.length + k) : w.drop k <+: w := by
  have h_rest : ∀ {b p q : List (Char × α)}, Occurrence w s b p q →
      (s.map Prod.fst).drop b.length = w ++ q.map Prod.fst := by
    intro b p q h_occ
    rw [h_occ.split, List.append_assoc, List.map_append, List.map_append, h_occ.spelled,
      List.drop_left' (List.length_map _)]
  have h_left : w.drop k <+: (s.map Prod.fst).drop before'.length := by
    rw [h_length, ← List.drop_drop, h_rest h, List.drop_append_of_le_length h_k]
    exact List.prefix_append _ _
  have h_right : w <+: (s.map Prod.fst).drop before'.length := by
    rw [h_rest h']
    exact List.prefix_append _ _
  refine List.prefix_of_prefix_length_le h_left h_right ?_
  rw [List.length_drop]
  exact Nat.sub_le _ _

/-- Occurrences with as much in front of them are one. -/
theorem part_unique (h : Occurrence w s before part behind)
    (h' : Occurrence w s before' part' behind') (h_length : before.length = before'.length) :
    part = part' := by
  have h_split := h.split.symm.trans h'.split
  rw [List.append_assoc, List.append_assoc] at h_split
  obtain ⟨-, h_rest⟩ := List.append_inj h_split h_length
  exact (List.append_inj h_rest (h.part_length.trans h'.part_length.symm)).1

end Occurrence

/-- An occurrence with no occurrence further left. -/
structure Leftmost (w : Text) (s before part behind : List (Char × α)) : Prop
    extends Occurrence w s before part behind where
  leftmost : ∀ {before' part' behind'}, Occurrence w s before' part' behind' →
    before.length ≤ before'.length

/-- The spans of the occurrences that are picked greedily from the left. -/
inductive Picked (w : Text) : List (Char × α) → List (Span α) → Prop where
  | none {s} : (∀ before part behind, ¬ Occurrence w s before part behind) → Picked w s []
  | next {s before part behind span spans} : Leftmost w s before part behind →
      span.Delimits part → Picked w behind spans → Picked w s (span :: spans)

/-- A word occurs in a text exactly if it is an infix of its characters. -/
theorem exists_occurrence_iff {w : Text} {s : List (Char × α)} :
    (∃ before part behind, Occurrence w s before part behind) ↔ w <:+: s.map Prod.fst := by
  constructor
  · rintro ⟨before, part, behind, h_split, h_spelled⟩
    refine ⟨before.map Prod.fst, behind.map Prod.fst, ?_⟩
    rw [h_split, List.map_append, List.map_append, h_spelled]
  · rintro ⟨t, u, h_eq⟩
    obtain ⟨tw, behind, h_s, h_tw, h_u⟩ := List.map_eq_append_iff.1 h_eq.symm
    obtain ⟨before, part, h_tw', h_t, h_w⟩ := List.map_eq_append_iff.1 h_tw
    exact ⟨before, part, behind, by rw [h_s, h_tw'], h_w⟩

/-- An occurrence at the end of what was read is the leftmost one if the word did not occur
    before the last character was read. -/
theorem Leftmost.of_read {w : Text} {read before part behind : List (Char × α)}
    (h_occ : Occurrence w (read ++ behind) before part behind)
    (h_absent : ¬ w <:+: read.dropLast.map Prod.fst) :
    Leftmost w (read ++ behind) before part behind := by
  refine { h_occ with leftmost := ?_ }
  intro before' part' behind' h_other
  refine Nat.le_of_not_lt fun h_lt => h_absent ?_
  -- the other occurrence ends further left, so the last character read is not part of it
  have h_read : read = before ++ part := List.append_cancel_right h_occ.split
  have h_len : part'.length = part.length := by
    rw [← List.length_map (f := Prod.fst), h_other.spelled, ← h_occ.spelled, List.length_map]
  have h_front : before' ++ part' <+: read.dropLast := by
    have h_all : before' ++ part' <+: read ++ behind := by
      rw [h_other.split]
      exact List.prefix_append _ _
    refine List.prefix_of_prefix_length_le h_all ?_ ?_
    · exact (List.dropLast_prefix read).trans (List.prefix_append _ _)
    · rw [List.length_dropLast, h_read, List.length_append, List.length_append]
      omega
  refine List.IsInfix.trans ?_ (h_front.map Prod.fst).isInfix
  exact exists_occurrence_iff.1 ⟨before', part', [], by rw [List.append_nil], h_other.spelled⟩

end PagedSearch
