/-
  PagedSearch.Match

  Where a pattern occurs in a document. Points of a page are ordered by
  fragment, then by offset; a match runs from its first to its last
  character, both included.
-/
import PagedSearch.Text.Basic

namespace PagedSearch

/-- A character of a page: the index of its fragment and its offset in the fragment. -/
structure Point where
  fragment : Nat
  offset : Nat
deriving DecidableEq, Repr, Inhabited

namespace Point

/-- True when `p` stands before `q` or is `q`. -/
def le (p q : Point) : Bool :=
  p.fragment < q.fragment || (p.fragment == q.fragment && p.offset ≤ q.offset)

theorem le_iff {p q : Point} :
    p.le q = true ↔
      p.fragment < q.fragment ∨ (p.fragment = q.fragment ∧ p.offset ≤ q.offset) := by
  simp [le]

theorem le_refl (p : Point) : p.le p = true := le_iff.2 (.inr ⟨rfl, Nat.le_refl _⟩)

theorem le_trans {p q r : Point} (h_pq : p.le q = true) (h_qr : q.le r = true) :
    p.le r = true := by
  rw [le_iff] at h_pq h_qr ⊢
  omega

theorem le_total (p q : Point) : (p.le q || q.le p) = true := by
  rw [Bool.or_eq_true, le_iff, le_iff]
  omega

end Point

/-- An occurrence: its page, its first and its last character. -/
structure Match where
  page : Nat
  first : Point
  last : Point
deriving DecidableEq, Repr, Inhabited

namespace Match

/-- How many fragments a match reaches over. -/
def spanned (m : Match) : Nat := m.last.fragment - m.first.fragment + 1

theorem first_add_spanned {m : Match} (h : m.first.le m.last = true) :
    m.first.fragment + m.spanned = m.last.fragment + 1 := by
  rw [Point.le_iff] at h
  rw [spanned]
  omega

/-- True of the points from the first to the last character of a match. -/
def contains (m : Match) (page : Nat) (p : Point) : Bool :=
  m.page == page && m.first.le p && p.le m.last

theorem contains_iff {m : Match} {page : Nat} {p : Point} :
    m.contains page p = true ↔ m.page = page ∧ m.first.le p = true ∧ p.le m.last = true := by
  simp [contains, and_assoc]

/-- Document order: by page, then by first character. -/
def le (m n : Match) : Bool :=
  m.page < n.page || (m.page == n.page && m.first.le n.first)

theorem le_iff {m n : Match} :
    m.le n = true ↔ m.page < n.page ∨ (m.page = n.page ∧ m.first.le n.first = true) := by
  simp [le]

theorem le_trans {l m n : Match} (h_lm : l.le m = true) (h_mn : m.le n = true) :
    l.le n = true := by
  rw [le_iff] at h_lm h_mn ⊢
  rcases h_lm with h_lm | ⟨h_lm, h_first⟩ <;> rcases h_mn with h_mn | ⟨h_mn, h_first'⟩
  · exact .inl (by omega)
  · exact .inl (by omega)
  · exact .inl (by omega)
  · exact .inr ⟨by omega, Point.le_trans h_first h_first'⟩

theorem le_total (m n : Match) : (m.le n || n.le m) = true := by
  rw [Bool.or_eq_true, le_iff, le_iff]
  have h := Point.le_total m.first n.first
  rw [Bool.or_eq_true] at h
  rcases Nat.lt_trichotomy m.page n.page with h_lt | h_eq | h_gt
  · exact .inl (.inl h_lt)
  · exact h.imp (fun h_le => .inr ⟨h_eq, h_le⟩) (fun h_le => .inr ⟨h_eq.symm, h_le⟩)
  · exact .inr (.inl h_gt)

end Match

end PagedSearch
