/-
  PagedSearch.Json.Quotation

  Strings of JSON. `readString` gives the characters of a string, with the
  two halves of a surrogate pair put together; `skipString` passes over a
  string whose characters do not matter, where a surrogate may stand alone.
  Both leave less text than they were given.
-/
import PagedSearch.Json.Fault

namespace PagedSearch

/-! ## Escapes -/

/-- The value of a hexadecimal digit. -/
def hexValue? (c : Char) : Option Nat :=
  if '0' ≤ c ∧ c ≤ '9' then some (c.toNat - '0'.toNat)
  else if 'a' ≤ c ∧ c ≤ 'f' then some (c.toNat - 'a'.toNat + 10)
  else if 'A' ≤ c ∧ c ≤ 'F' then some (c.toNat - 'A'.toNat + 10)
  else none

/-- The value of four hexadecimal digits. -/
def hexValue4? (a b c d : Char) : Option Nat := do
  return (((← hexValue? a) * 16 + (← hexValue? b)) * 16 + (← hexValue? c)) * 16 + (← hexValue? d)

/-- Reads four hexadecimal digits. A text of fewer than four bytes is cut short. -/
def readHex4 (t : Text) : Except JsonFault (Nat × Text) :=
  match t with
  | a :: b :: c :: d :: rest =>
    match hexValue4? a b c d with
    | some n => .ok (n, rest)
    | none => .error .malformed
  | short =>
    if byteCount short < 4 then .error .truncated else .error .malformed

/-- The character that a letter stands for behind a backslash. -/
def escapedChar? (c : Char) : Option Char :=
  if c = '"' then some '"'
  else if c = '\\' then some '\\'
  else if c = '/' then some '/'
  else if c = 'b' then some '\x08'
  else if c = 'f' then some '\x0c'
  else if c = 'n' then some '\n'
  else if c = 'r' then some '\r'
  else if c = 't' then some '\t'
  else none

/-- True of the first halves of surrogate pairs. -/
def isHighSurrogate (n : Nat) : Bool := 0xD800 ≤ n && n ≤ 0xDBFF

/-- True of the second halves of surrogate pairs. -/
def isLowSurrogate (n : Nat) : Bool := 0xDC00 ≤ n && n ≤ 0xDFFF

/-- The character of a surrogate pair. -/
def ofSurrogates (high low : Nat) : Char :=
  Char.ofNat ((high - 0xD800) * 0x400 + (low - 0xDC00) + 0x10000)

/-- Reads the second half of a surrogate pair, escape and all. -/
def readLowSurrogate (high : Nat) : Text → Except JsonFault (Char × Text)
  | [] => .error .truncated
  | [c] => if c = '\\' then .error .truncated else .error .malformed
  | c :: d :: rest =>
    if c = '\\' ∧ d = 'u' then
      match readHex4 rest with
      | .error e => .error e
      | .ok (low, rest) =>
        if isLowSurrogate low then .ok (ofSurrogates high low, rest) else .error .malformed
    else .error .malformed

/-- Reads the character that an escape stands for, from behind the backslash. -/
def readEscape : Text → Except JsonFault (Char × Text)
  | [] => .error .truncated
  | c :: rest =>
    if c = 'u' then
      match readHex4 rest with
      | .error e => .error e
      | .ok (n, rest) =>
        if isLowSurrogate n then .error .malformed
        else if isHighSurrogate n then readLowSurrogate n rest
        else .ok (Char.ofNat n, rest)
    else
      match escapedChar? c with
      | some d => .ok (d, rest)
      | none => .error .malformed

/-- Passes over an escape, from behind the backslash; surrogates may stand alone. -/
def skipEscape : Text → Except JsonFault Text
  | [] => .error .truncated
  | c :: rest =>
    if c = 'u' then
      match readHex4 rest with
      | .error e => .error e
      | .ok (_, rest) => .ok rest
    else if (escapedChar? c).isSome then .ok rest
    else .error .malformed

theorem readHex4_length {t rest : Text} {n : Nat} (h : readHex4 t = .ok (n, rest)) :
    rest.length < t.length := by
  unfold readHex4 at h
  split at h
  · split at h
    · cases h
      simp only [List.length_cons]
      omega
    · cases h
  · split at h <;> cases h

theorem readLowSurrogate_length {high : Nat} {t rest : Text} {c : Char}
    (h : readLowSurrogate high t = .ok (c, rest)) : rest.length < t.length := by
  unfold readLowSurrogate at h
  split at h
  · cases h
  · split at h <;> cases h
  · split at h
    · split at h
      · cases h
      · rename_i h_hex
        have h_lt := readHex4_length h_hex
        split at h
        · simp only [Except.ok.injEq, Prod.mk.injEq] at h
          simp only [← h.2, List.length_cons]
          omega
        · cases h
    · cases h

theorem readEscape_length {t rest : Text} {c : Char} (h : readEscape t = .ok (c, rest)) :
    rest.length < t.length := by
  unfold readEscape at h
  split at h
  · cases h
  · split at h
    · split at h
      · cases h
      · rename_i h_hex
        have h_lt := readHex4_length h_hex
        split at h
        · cases h
        · split at h
          · have h_low := readLowSurrogate_length h
            simp only [List.length_cons]
            omega
          · simp only [Except.ok.injEq, Prod.mk.injEq] at h
            simp only [← h.2, List.length_cons]
            omega
    · split at h
      · cases h
        simp
      · cases h

theorem skipEscape_length {t rest : Text} (h : skipEscape t = .ok rest) :
    rest.length < t.length := by
  unfold skipEscape at h
  split at h
  · cases h
  · split at h
    · split at h
      · cases h
      · rename_i h_hex
        have h_lt := readHex4_length h_hex
        cases h
        simp only [List.length_cons]
        omega
    · split at h <;> cases h
      simp

/-! ## Strings -/

/-- Reads a string from behind its opening quotation mark. -/
def readString (t : Text) : Except JsonFault (Text × Text) :=
  match t with
  | [] => .error .truncated
  | c :: rest =>
    if c = '"' then .ok ([], rest)
    else if c = '\\' then
      match _h : readEscape rest with
      | .error e => .error e
      | .ok (d, rest) => (readString rest).map fun (s, left) => (d :: s, left)
    else if c.toNat < 0x20 then .error .malformed
    else (readString rest).map fun (s, left) => (c :: s, left)
termination_by t.length
decreasing_by
  · have := readEscape_length _h
    simp only [List.length_cons]
    omega
  · simp

/-- Passes over a string from behind its opening quotation mark. -/
def skipString (t : Text) : Except JsonFault Text :=
  match t with
  | [] => .error .truncated
  | c :: rest =>
    if c = '"' then .ok rest
    else if c = '\\' then
      match _h : skipEscape rest with
      | .error e => .error e
      | .ok rest => skipString rest
    else if c.toNat < 0x20 then .error .malformed
    else skipString rest
termination_by t.length
decreasing_by
  · have := skipEscape_length _h
    simp only [List.length_cons]
    omega
  · simp

theorem readString_length {t s left : Text} (h : readString t = .ok (s, left)) :
    left.length < t.length := by
  fun_induction readString t generalizing s left with
  | case1 => cases h
  | case2 => cases h; simp
  | case3 => cases h
  | case4 rest d behind h_escape _ ih =>
    have h_lt := readEscape_length h_escape
    cases h_read : readString behind with
    | error e => simp [h_read, Except.map] at h
    | ok r =>
      obtain ⟨value, left⟩ := r
      have h_ih := ih h_read
      simp only [h_read, Except.map, Except.ok.injEq, Prod.mk.injEq] at h
      simp only [← h.2, List.length_cons]
      omega
  | case5 => cases h
  | case6 c rest _ _ _ ih =>
    cases h_read : readString rest with
    | error e => simp [h_read, Except.map] at h
    | ok r =>
      obtain ⟨value, left⟩ := r
      have h_ih := ih h_read
      simp only [h_read, Except.map, Except.ok.injEq, Prod.mk.injEq] at h
      simp only [← h.2, List.length_cons]
      omega

theorem skipString_length {t left : Text} (h : skipString t = .ok left) :
    left.length < t.length := by
  fun_induction skipString t with
  | case1 => cases h
  | case2 => cases h; simp
  | case3 => cases h
  | case4 rest behind h_escape _ ih =>
    have h_lt := skipEscape_length h_escape
    have h_ih := ih h
    simp only [List.length_cons]
    omega
  | case5 => cases h
  | case6 c rest _ _ _ ih =>
    have h_ih := ih h
    simp only [List.length_cons]
    omega

end PagedSearch
