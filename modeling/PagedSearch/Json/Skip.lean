/-
  PagedSearch.Json.Skip

  Passing over JSON values that do not matter. A value inside lists and
  objects is passed over with a stack of what is still open, so nesting may
  be as deep as the text is long. Each step reads at least one character
  (`skipStep_length`).
-/
import PagedSearch.Json.Quotation
import PagedSearch.Json.Number

namespace PagedSearch

/-! ## Words -/

/-- Passes over the characters of a word. -/
def skipWord : Text → Text → Except JsonFault Text
  | [], t => .ok t
  | _ :: _, [] => .error .truncated
  | w :: word, c :: t => if c = w then skipWord word t else .error .malformed

theorem skipWord_length_le {word t rest : Text} (h : skipWord word t = .ok rest) :
    rest.length ≤ t.length := by
  fun_induction skipWord word t with
  | case1 => cases h; exact Nat.le_refl _
  | case2 => cases h
  | case3 word c t ih =>
    have h_ih := ih h
    simp only [List.length_cons]
    omega
  | case4 => cases h

/-! ## One step -/

/-- What a value stands in. -/
inductive Frame where
  | list
  | object
deriving DecidableEq, Repr

/-- Where a walk over a text stands: the lists and objects that are open, the innermost first,
    whether a value has just ended or is to come, and the text to go. -/
structure Walk where
  frames : List Frame
  ended : Bool
  rest : Text
deriving DecidableEq, Repr

/-- Goes on with what a part of a value leaves, if there was no fault in it. -/
def Walk.behind (frames : List Frame) (ended : Bool) :
    Except JsonFault Text → Except JsonFault Walk
  | .error e => .error e
  | .ok rest => .ok ⟨frames, ended, rest⟩

/-- Passes over the name of a member and the colon behind it. -/
def skipName (t : Text) : Except JsonFault Text :=
  match skipBlanks t with
  | [] => .error .truncated
  | c :: rest =>
    if c = '"' then
      match skipString rest with
      | .error e => .error e
      | .ok rest =>
        match skipBlanks rest with
        | [] => .error .truncated
        | c :: rest => if c = ':' then .ok rest else .error .malformed
    else .error .malformed

/-- Enters a list or an object whose bracket has been read: it ends at once, or a value
    follows. -/
def enterFrame (frame : Frame) (outer : List Frame) (t : Text) : Except JsonFault Walk :=
  match skipBlanks t with
  | [] => .error .truncated
  | c :: rest =>
    match frame with
    | .list =>
      if c = ']' then .ok ⟨outer, true, rest⟩ else .ok ⟨.list :: outer, false, c :: rest⟩
    | .object =>
      if c = '\x7d' then .ok ⟨outer, true, rest⟩
      else Walk.behind (.object :: outer) false (skipName (c :: rest))

/-- Passes over the start of a value, up to its end if it holds no other values. -/
def startValue (frames : List Frame) (t : Text) : Except JsonFault Walk :=
  match skipBlanks t with
  | [] => .error .truncated
  | c :: rest =>
    if c = 'n' then Walk.behind frames true (skipWord "ull".toList rest)
    else if c = 't' then Walk.behind frames true (skipWord "rue".toList rest)
    else if c = 'f' then Walk.behind frames true (skipWord "alse".toList rest)
    else if c = '"' then Walk.behind frames true (skipString rest)
    else if c = '-' then Walk.behind frames true (skipNumber rest)
    else if isDigit c then Walk.behind frames true (skipNumber (c :: rest))
    else if c = '[' then enterFrame .list frames rest
    else if c = '\x7b' then enterFrame .object frames rest
    else .error .malformed

/-- Passes over what stands behind a value in a list or an object. -/
def endValue (frame : Frame) (outer : List Frame) (t : Text) : Except JsonFault Walk :=
  match skipBlanks t with
  | [] => .error .truncated
  | c :: rest =>
    match frame with
    | .list =>
      if c = ',' then .ok ⟨.list :: outer, false, rest⟩
      else if c = ']' then .ok ⟨outer, true, rest⟩
      else .error .malformed
    | .object =>
      if c = ',' then Walk.behind (.object :: outer) false (skipName rest)
      else if c = '\x7d' then .ok ⟨outer, true, rest⟩
      else .error .malformed

/-! ## Each step reads something -/

theorem Walk.behind_rest {frames : List Frame} {ended : Bool} {r : Except JsonFault Text}
    {w : Walk} (h : Walk.behind frames ended r = .ok w) : r = .ok w.rest := by
  cases r with
  | error e => cases h
  | ok rest => cases h; rfl

theorem length_of_skipBlanks {t rest : Text} {c : Char} (h : skipBlanks t = c :: rest) :
    rest.length < t.length := by
  have h_le := skipBlanks_length_le t
  rw [h, List.length_cons] at h_le
  exact h_le

theorem skipName_length {t rest : Text} (h : skipName t = .ok rest) :
    rest.length < t.length := by
  unfold skipName at h
  split at h
  · cases h
  · rename_i h_t
    have h_lt := length_of_skipBlanks h_t
    split at h
    · split at h
      · cases h
      · rename_i h_string
        have h_lt' := skipString_length h_string
        split at h
        · cases h
        · rename_i h_r
          have h_lt'' := length_of_skipBlanks h_r
          split at h
          · cases h
            omega
          · cases h
    · cases h

theorem enterFrame_length {frame : Frame} {outer : List Frame} {t : Text} {w : Walk}
    (h : enterFrame frame outer t = .ok w) : w.rest.length ≤ t.length := by
  unfold enterFrame at h
  split at h
  · cases h
  · rename_i h_t
    have h_lt := length_of_skipBlanks h_t
    split at h
    · split at h <;> cases h <;> simp only [List.length_cons] <;> omega
    · split at h
      · cases h
        exact Nat.le_of_lt h_lt
      · have h_name := skipName_length (Walk.behind_rest h)
        simp only [List.length_cons] at h_name
        omega

theorem startValue_length {frames : List Frame} {t : Text} {w : Walk}
    (h : startValue frames t = .ok w) : w.rest.length < t.length := by
  unfold startValue at h
  split at h
  · cases h
  · rename_i c rest h_t
    have h_lt := length_of_skipBlanks h_t
    split at h
    · have := skipWord_length_le (Walk.behind_rest h); omega
    split at h
    · have := skipWord_length_le (Walk.behind_rest h); omega
    split at h
    · have := skipWord_length_le (Walk.behind_rest h); omega
    split at h
    · have := skipString_length (Walk.behind_rest h); omega
    split at h
    · have := skipNumber_length (Walk.behind_rest h); omega
    split at h
    · have := skipNumber_length (Walk.behind_rest h)
      simp only [List.length_cons] at this
      omega
    split at h
    · have := enterFrame_length h; omega
    split at h
    · have := enterFrame_length h; omega
    · cases h

theorem endValue_length {frame : Frame} {outer : List Frame} {t : Text} {w : Walk}
    (h : endValue frame outer t = .ok w) : w.rest.length < t.length := by
  unfold endValue at h
  split at h
  · cases h
  · rename_i c rest h_t
    have h_lt := length_of_skipBlanks h_t
    split at h
    · split at h
      · cases h; exact h_lt
      · split at h <;> cases h
        exact h_lt
    · split at h
      · have := skipName_length (Walk.behind_rest h); omega
      · split at h <;> cases h
        exact h_lt

/-! ## Values -/

/-- Passes over the rest of a walk. -/
def skipWalk (frames : List Frame) (ended : Bool) (t : Text) : Except JsonFault Text :=
  if ended then
    match frames with
    | [] => .ok t
    | frame :: outer =>
      match _h : endValue frame outer t with
      | .error e => .error e
      | .ok w => skipWalk w.frames w.ended w.rest
  else
    match _h : startValue frames t with
    | .error e => .error e
    | .ok w => skipWalk w.frames w.ended w.rest
termination_by t.length
decreasing_by
  · exact endValue_length _h
  · exact startValue_length _h

/-- Passes over a value. -/
def skipValue (t : Text) : Except JsonFault Text := skipWalk [] false t

theorem skipWalk_length_le {frames : List Frame} {ended : Bool} {t rest : Text}
    (h : skipWalk frames ended t = .ok rest) : rest.length ≤ t.length := by
  fun_induction skipWalk frames ended t with
  | case1 => cases h; exact Nat.le_refl _
  | case2 => cases h
  | case3 _ _ _ w h_end ih =>
    have h_lt := endValue_length h_end
    have h_ih := ih h
    omega
  | case4 => cases h
  | case5 _ _ _ _ w h_start ih =>
    have h_lt := startValue_length h_start
    have h_ih := ih h
    omega

/-! ## Values of another shape -/

/-- The fault of a value that starts a text and is not of the shape asked for: a fault inside a
    word, number or string comes first. -/
def mismatch (t : Text) : JsonFault :=
  match t with
  | [] => .truncated
  | c :: rest =>
    if c = 'n' then ofRest (skipWord "ull".toList rest)
    else if c = 't' then ofRest (skipWord "rue".toList rest)
    else if c = 'f' then ofRest (skipWord "alse".toList rest)
    else if c = '-' then ofNumber (readNumber .truncated rest)
    else if isDigit c then ofNumber (readNumber .truncated (c :: rest))
    else if c = '"' then ofRest ((readString rest).map Prod.snd)
    else if c = '[' ∨ c = '\x7b' then .mismatched
    else .malformed
where
  /-- The fault of a word or string that is read to its end. -/
  ofRest : Except JsonFault Text → JsonFault
    | .ok _ => .mismatched
    | .error e => e
  /-- The fault of a number, which must be small enough to be one. -/
  ofNumber : Except JsonFault (Magnitude × Text) → JsonFault
    | .ok (m, _) => if m.overflows then .malformed else .mismatched
    | .error e => e

end PagedSearch
