/-
  PagedSearch.Proofs.Document.Characters

  All characters of a page with their points, from the first fragment to the
  last. The significant ones are those that the settings keep
  (`significantOn_eq`). A character cuts one fragment (`charactersOn_cut`). As
  points go up, two characters in order delimit a part of the page
  (`exists_delimited`), and only one (`delimits_unique`). Parts that matches
  delimit can be rewritten in one way only (`Rewritten.unique`).
-/
import PagedSearch.Proofs.Document.Significant

namespace PagedSearch

/-- The characters of a part of fragment `i` that starts at offset `base`. -/
def charactersIn (i base : Nat) (t : Text) : List (Char × Point) :=
  (t.zipIdx base).map fun x => (x.1, ⟨i, x.2⟩)

/-- The characters of fragments with their points, the first fragment having index `n`. -/
def charactersFrom (n : Nat) (fragments : List Text) : List (Char × Point) :=
  (fragments.zipIdx n).flatMap fun x => charactersIn x.2 0 x.1

/-- The characters of a page's fragments with their points. -/
def charactersOn (fragments : List Text) : List (Char × Point) := charactersFrom 0 fragments

/-! ## One fragment -/

theorem charactersIn_append (i base : Nat) (t u : Text) :
    charactersIn i base (t ++ u) = charactersIn i base t ++ charactersIn i (base + t.length) u := by
  rw [charactersIn, List.zipIdx_append, List.map_append]
  rfl

@[simp] theorem charactersIn_map_fst (i base : Nat) (t : Text) :
    (charactersIn i base t).map Prod.fst = t := by
  rw [charactersIn, List.map_map]
  exact List.zipIdx_map_fst base t

/-- An element of an indexed list cuts the list in two; its index tells how much is in front. -/
theorem zipIdx_cut {α : Type} {l : List α} {n i : Nat} {a : α} {before rest : List (α × Nat)}
    (h : l.zipIdx n = before ++ (a, i) :: rest) :
    ∃ front back, l = front ++ a :: back ∧ i = n + front.length ∧ before = front.zipIdx n ∧
      rest = back.zipIdx (n + front.length + 1) := by
  have h_list := congrArg (List.map Prod.fst) h
  rw [List.zipIdx_map_fst, List.map_append, List.map_cons] at h_list
  rw [h_list, List.zipIdx_append, List.zipIdx_cons] at h
  obtain ⟨h_before, h_rest⟩ := List.append_inj h (by rw [List.length_zipIdx, List.length_map])
  obtain ⟨h_index, h_rest⟩ := List.cons.inj h_rest
  exact ⟨_, _, h_list, (Prod.mk.inj h_index).2.symm, h_before.symm, h_rest.symm⟩

/-! ## A page -/

theorem charactersFrom_cons (n : Nat) (t : Text) (fragments : List Text) :
    charactersFrom n (t :: fragments) = charactersIn n 0 t ++ charactersFrom (n + 1) fragments := by
  rw [charactersFrom, List.zipIdx_cons, List.flatMap_cons]
  rfl

theorem charactersFrom_append (n : Nat) (fragments more : List Text) :
    charactersFrom n (fragments ++ more) =
      charactersFrom n fragments ++ charactersFrom (n + fragments.length) more := by
  rw [charactersFrom, List.zipIdx_append, List.flatMap_append]
  rfl

@[simp] theorem charactersFrom_map_fst (n : Nat) (fragments : List Text) :
    (charactersFrom n fragments).map Prod.fst = fragments.flatten := by
  induction fragments generalizing n with
  | nil => rfl
  | cons t fragments ih =>
    rw [charactersFrom_cons, List.map_append, charactersIn_map_fst, ih, List.flatten_cons]

/-- The characters in front of a place in a fragment, and those from there on. -/
theorem charactersOn_append_cons (front back : List Text) (u v : Text) :
    charactersOn (front ++ (u ++ v) :: back) =
      (charactersOn front ++ charactersIn front.length 0 u) ++
        (charactersIn front.length u.length v ++ charactersFrom (front.length + 1) back) := by
  rw [charactersOn, charactersFrom_append, charactersFrom_cons, Nat.zero_add, charactersIn_append,
    Nat.zero_add, charactersOn, List.append_assoc, List.append_assoc]

/-- The points of the characters go up. -/
theorem charactersOn_pairwise (fragments : List Text) :
    (charactersOn fragments).Pairwise fun x y => x.2.Before y.2 := by
  rw [charactersOn, charactersFrom, List.pairwise_flatMap]
  constructor
  · rintro ⟨t, i⟩ -
    rw [charactersIn, List.pairwise_map]
    exact (zipIdx_pairwise t 0).imp fun h_lt => .inr ⟨rfl, h_lt⟩
  · refine (zipIdx_pairwise fragments 0).imp ?_
    rintro ⟨t, i⟩ ⟨u, j⟩ h_lt x h_x y h_y
    obtain ⟨_, -, rfl⟩ := List.mem_map.1 h_x
    obtain ⟨_, -, rfl⟩ := List.mem_map.1 h_y
    exact .inl h_lt

/-- A character of a page has its place in a fragment that exists. -/
theorem exists_of_mem_charactersOn {fragments : List Text} {x : Char × Point}
    (h : x ∈ charactersOn fragments) :
    ∃ t, fragments[x.2.fragment]? = some t ∧ x.2.offset < t.length := by
  obtain ⟨⟨t, i⟩, h_t, h_x⟩ := List.mem_flatMap.1 h
  obtain ⟨⟨c, offset⟩, h_c, rfl⟩ := List.mem_map.1 h_x
  refine ⟨t, List.mem_zipIdx_iff_getElem?.1 h_t, ?_⟩
  have h_lt := List.snd_lt_add_of_mem_zipIdx h_c
  rw [Nat.zero_add] at h_lt
  exact h_lt

/-- The significant characters of a page are those that the settings keep, folded. -/
theorem significantOn_eq (s : Settings) (fragments : List Text) :
    s.significantOn fragments = (charactersOn fragments).filterMap fun x =>
      if s.skips (s.foldChar x.1) then none else some (s.foldChar x.1, x.2) := by
  rw [charactersOn, charactersFrom, List.filterMap_flatMap, Settings.significantOn]
  apply List.flatMap_congr
  rintro ⟨t, i⟩ -
  rw [charactersIn, List.filterMap_map]
  rfl

/-- A significant character of a page has the point of a character of the page. -/
theorem exists_of_mem_significantOn {s : Settings} {fragments : List Text} {x : Char × Point}
    (h : x ∈ s.significantOn fragments) : ∃ y ∈ charactersOn fragments, y.2 = x.2 := by
  rw [significantOn_eq] at h
  obtain ⟨y, h_y, h_x⟩ := List.mem_filterMap.1 h
  simp only [Option.ite_none_left_eq_some, Option.some.injEq] at h_x
  exact ⟨y, h_y, by rw [← h_x.2]⟩

/-- A character cuts one fragment in two; all in front of it stands in the fragments in front or in
    the first part. -/
theorem charactersOn_cut {fragments : List Text} {before rest : List (Char × Point)} {c : Char}
    {p : Point} (h : charactersOn fragments = before ++ (c, p) :: rest) :
    ∃ front u v back, fragments = front ++ (u ++ c :: v) :: back ∧
      p = ⟨front.length, u.length⟩ ∧
      before = charactersOn front ++ charactersIn front.length 0 u ∧
      rest = charactersIn front.length (u.length + 1) v ++
        charactersFrom (front.length + 1) back := by
  -- the cut is in one fragment, and there at one character
  obtain ⟨_, ⟨t, i⟩, _, pre, post, h_page, h_fragment, rfl, rfl⟩ := exists_of_flatMap_eq h
  obtain ⟨front, back, rfl, rfl, rfl, rfl⟩ := zipIdx_cut h_page
  obtain ⟨chars, tail, h_text, rfl, h_tail⟩ := List.map_eq_append_iff.1 h_fragment
  obtain ⟨⟨c', offset⟩, rest, rfl, h_point, rfl⟩ := List.map_eq_cons_iff.1 h_tail
  obtain ⟨u, v, h_t, rfl, rfl, rfl⟩ := zipIdx_cut h_text
  simp only [Nat.zero_add, Prod.mk.injEq] at h_t h_point ⊢
  obtain ⟨rfl, rfl⟩ := h_point
  exact ⟨front, u, v, back, by rw [← h_t], rfl, rfl, rfl⟩

/-! ## Cuts and parts -/

/-- Two cuts of a list are the same cut, or the second one lies behind the first. -/
theorem cut_eq_or_behind {α : Type} {front front' back back' : List α} {a a' : α}
    (h : front ++ a :: back = front' ++ a' :: back') (h_le : front.length ≤ front'.length) :
    (front' = front ∧ a' = a ∧ back' = back) ∨
      ∃ mid, front' = front ++ a :: mid ∧ back = mid ++ a' :: back' := by
  rw [List.append_eq_append_iff] at h
  rcases h with ⟨mid, rfl, h_back⟩ | ⟨mid, rfl, h_back⟩
  · rcases List.cons_eq_append_iff.1 h_back with ⟨rfl, h_eq⟩ | ⟨mid, rfl, h_eq⟩
    · obtain ⟨rfl, rfl⟩ := List.cons.inj h_eq
      exact .inl ⟨List.append_nil _, rfl, rfl⟩
    · exact .inr ⟨mid, rfl, h_eq⟩
  · have h_mid : mid = [] := by
      rw [List.length_append] at h_le
      exact List.eq_nil_of_length_eq_zero (by omega)
    subst h_mid
    obtain ⟨rfl, rfl⟩ := List.cons.inj h_back
    exact .inl ⟨(List.append_nil _).symm, rfl, rfl⟩

section

variable {chars : List (Char × Point)}

/-- Where points go up, there is one cut at a point. -/
theorem cut_unique {front front' back back' : List (Char × Point)} {x x' : Char × Point}
    (h_up : chars.Pairwise fun x y => x.2.Before y.2) (h : chars = front ++ x :: back)
    (h' : chars = front' ++ x' :: back') (h_point : x.2 = x'.2) : front = front' := by
  -- a cut behind another one would have its point before itself
  have h_behind : ∀ {front front' back back' : List (Char × Point)} {x x' : Char × Point},
      chars = front ++ x :: back → chars = front' ++ x' :: back' → x.2 = x'.2 →
      front.length ≤ front'.length → front = front' := by
    intro front front' back back' x x' h h' h_point h_le
    rcases cut_eq_or_behind (h.symm.trans h') h_le with ⟨h_front, -, -⟩ | ⟨mid, rfl, -⟩
    · exact h_front.symm
    · rw [h', List.pairwise_append] at h_up
      have h_before := h_up.2.2 x (List.mem_append_right _ List.mem_cons_self) x' List.mem_cons_self
      rw [h_point] at h_before
      exact absurd h_before (Point.not_before_self _)
  rcases Nat.le_total front.length front'.length with h_le | h_le
  · exact h_behind h h' h_point h_le
  · exact (h_behind h' h h_point.symm h_le).symm

/-- Where points go up, a span delimits one part. -/
theorem delimits_unique {before before' part part' behind behind' : List (Char × Point)}
    {span : Span Point} (h_up : chars.Pairwise fun x y => x.2.Before y.2)
    (h : chars = before ++ part ++ behind) (h' : chars = before' ++ part' ++ behind')
    (h_span : span.Delimits part) (h_span' : span.Delimits part') :
    before = before' ∧ behind = behind' := by
  obtain ⟨x, h_x, h_first⟩ := Option.map_eq_some_iff.1 h_span.first_eq
  obtain ⟨x', h_x', h_first'⟩ := Option.map_eq_some_iff.1 h_span'.first_eq
  obtain ⟨y, h_y, h_last⟩ := Option.map_eq_some_iff.1 h_span.last_eq
  obtain ⟨y', h_y', h_last'⟩ := Option.map_eq_some_iff.1 h_span'.last_eq
  constructor
  · -- the part begins at the only cut at its first point
    obtain ⟨tail, rfl⟩ := List.head?_eq_some_iff.1 h_x
    obtain ⟨tail', rfl⟩ := List.head?_eq_some_iff.1 h_x'
    rw [List.append_assoc, List.cons_append] at h h'
    exact cut_unique h_up h h' (h_first.trans h_first'.symm)
  · -- and ends at the only cut at its last point
    obtain ⟨front, rfl⟩ := List.getLast?_eq_some_iff.1 h_y
    obtain ⟨front', rfl⟩ := List.getLast?_eq_some_iff.1 h_y'
    rw [← List.append_assoc, List.append_assoc, List.singleton_append] at h h'
    have h_front := cut_unique h_up h h' (h_last.trans h_last'.symm)
    rw [h, h_front] at h'
    exact (List.cons.inj (List.append_cancel_left h')).2

/-- Two characters in order delimit a part of the page. -/
theorem exists_delimited {x y : Char × Point}
    (h_up : chars.Pairwise fun x y => x.2.Before y.2) (h_x : x ∈ chars) (h_y : y ∈ chars)
    (h_le : x.2.le y.2 = true) :
    ∃ before part behind, chars = before ++ part ++ behind ∧
      (⟨x.2, y.2⟩ : Span Point).Delimits part := by
  obtain ⟨before, rest, rfl⟩ := List.append_of_mem h_x
  rw [List.pairwise_append] at h_up
  rcases List.mem_append.1 h_y with h_y | h_y
  · -- a character in front of the first one would be out of order
    have h_before := h_up.2.2 y h_y x List.mem_cons_self
    rw [Point.before_iff] at h_before
    rw [Point.le_iff] at h_le
    omega
  rcases List.mem_cons.1 h_y with rfl | h_y
  · exact ⟨before, [y], rest, by rw [List.append_assoc, List.singleton_append], rfl, rfl⟩
  · obtain ⟨mid, behind, rfl⟩ := List.append_of_mem h_y
    refine ⟨before, x :: mid ++ [y], behind, ?_, rfl, ?_⟩
    · rw [List.append_assoc, List.append_assoc, List.singleton_append, List.cons_append]
    · rw [List.getLast?_concat, Option.map_some]

/-- What stands in front of a part ends with what stands between a place further in front and the
    part. -/
theorem exists_between {front rest before part behind : List (Char × Point)} {span : Span Point}
    {x : Char × Point} (h_up : chars.Pairwise fun x y => x.2.Before y.2)
    (h_cut : chars = front ++ rest) (h_split : chars = before ++ part ++ behind)
    (h_span : span.Delimits part) (h_mem : x ∈ rest)
    (h_first : x.2 = span.first) :
    ∃ mid, before = front ++ mid ∧ rest = mid ++ part ++ behind := by
  obtain ⟨mid, back, rfl⟩ := List.append_of_mem h_mem
  obtain ⟨y, h_head, h_y⟩ := Option.map_eq_some_iff.1 h_span.first_eq
  obtain ⟨part', rfl⟩ := List.head?_eq_some_iff.1 h_head
  have h_cut_first : chars = (front ++ mid) ++ x :: back := by
    rw [h_cut, List.append_assoc]
  have h_split_first : chars = before ++ y :: (part' ++ behind) := by
    rw [h_split, List.append_assoc, List.cons_append]
  have h_front := cut_unique h_up h_cut_first h_split_first (h_first.trans h_y.symm)
  subst h_front
  refine ⟨mid, rfl, ?_⟩
  rw [h_cut, List.append_assoc, List.append_assoc, List.append_cancel_left_eq] at h_split
  rw [h_split, List.append_assoc]

/-- Where points go up, what is in front of a part stands before the part's span, the part within it
    and what is behind the part after it. -/
theorem Span.Delimits.order {before part behind : List (Char × Point)} {span : Span Point}
    (h : span.Delimits part)
    (h_up : (before ++ part ++ behind).Pairwise fun x y => x.2.Before y.2) :
    (∀ x ∈ before, x.2.Before span.first) ∧
      (∀ x ∈ part, span.first.le x.2 = true ∧ x.2.le span.last = true) ∧
      ∀ x ∈ behind, span.last.Before x.2 := by
  obtain ⟨x, h_x, h_first⟩ := h.first_mem
  obtain ⟨y, h_y, h_last⟩ := h.last_mem
  rw [List.append_assoc, List.pairwise_append, List.pairwise_append] at h_up
  obtain ⟨-, ⟨h_part, -, h_behind⟩, h_before⟩ := h_up
  refine ⟨fun z h_z => ?_, fun z h_z => h.le_of_mem h_part h_z, fun z h_z => ?_⟩
  · rw [← h_first]
    exact h_before z h_z x (List.mem_append_left behind h_x)
  · rw [← h_last]
    exact h_behind y h_y z h_z

/-- A character behind the end of a span stands behind the part that the span delimits. -/
theorem mem_behind {before part behind : List (Char × Point)} {span : Span Point} {x : Char × Point}
    (h_up : chars.Pairwise fun x y => x.2.Before y.2) (h_split : chars = before ++ part ++ behind)
    (h_span : span.Delimits part) (h_mem : x ∈ chars)
    (h_behind : span.last.Before x.2) : x ∈ behind := by
  subst h_split
  obtain ⟨h_before, h_part, -⟩ := h_span.order h_up
  -- in front of the part's end it would be out of order
  have h_not := Point.not_le_iff.2 h_behind
  rcases List.mem_append.1 h_mem with h_mem | h_mem
  · rcases List.mem_append.1 h_mem with h_mem | h_mem
    · obtain ⟨y, h_y, h_last⟩ := h_span.last_mem
      have h_le := (h_part y h_y).1
      rw [h_last] at h_le
      exact absurd ((h_before x h_mem).trans_le h_le).le h_not
    · exact absurd (h_part x h_mem).2 h_not
  · exact h_mem

end

/-! ## Rewriting parts -/

/-- In characters with points, the parts that matches delimit, one behind the other, are rewritten.
    What stands between them is kept. -/
inductive Rewritten (rewrite : Match → Text → Text) :
    List Match → List (Char × Point) → Text → Prop where
  | none {chars} : Rewritten rewrite [] chars (chars.map Prod.fst)
  | next {m found before part behind text} : (⟨m.first, m.last⟩ : Span Point).Delimits part →
      Rewritten rewrite found behind text →
      Rewritten rewrite (m :: found) (before ++ part ++ behind)
        (before.map Prod.fst ++ rewrite m (part.map Prod.fst) ++ text)

/-- Where points go up, matches can be rewritten in one way only. -/
theorem Rewritten.unique {rewrite : Match → Text → Text} {text text' : Text} {found : List Match}
    {chars : List (Char × Point)} (h_up : chars.Pairwise fun x y => x.2.Before y.2)
    (h : Rewritten rewrite found chars text) (h' : Rewritten rewrite found chars text') :
    text = text' := by
  -- the next match delimits one part, so both go on behind it
  induction h generalizing text' with
  | none =>
    cases h'
    rfl
  | @next m found before part behind text h_span _ ih =>
    generalize h_chars : before ++ part ++ behind = chars at h' h_up
    cases h' with
    | @next _ _ before' part' behind' text' h_span' h_rest' =>
      obtain ⟨rfl, rfl⟩ := delimits_unique h_up h_chars.symm rfl h_span h_span'
      rw [List.append_left_inj, List.append_cancel_left_eq] at h_chars
      have h_behind := (List.pairwise_append.1 h_up).2.1
      rw [h_chars, ih h_behind h_rest']

end PagedSearch
