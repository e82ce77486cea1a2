/-
  PagedSearch.Json.Number

  Numbers of JSON. Only their form matters, and whether they are small enough
  for a double.

  A number is taken as a 64-bit word times a power of ten. Digits that do not
  fit into the word any more are left out. The word and the power of ten are
  each rounded to a double, and so is their product, which decides whether
  the number is too great. A number near the greatest double may thus come
  out on the other side of it.
-/
import PagedSearch.Json.Double
import PagedSearch.Json.Fault
import PagedSearch.Text.Numeral

namespace PagedSearch

/-- True of the decimal digits. -/
def isDigit (c : Char) : Bool := '0' ≤ c && c ≤ '9'

/-- A number without its sign: a word times a power of ten. -/
structure Magnitude where
  word : Nat
  exponent : Int
deriving DecidableEq, Repr

/-- A number with a decimal digit behind its last one. -/
def appendDigit (n : Nat) (c : Char) : Nat := 10 * n + (c.toNat - '0'.toNat)

/-- The number that a text of digits stands for. -/
def digitsValue (digits : Text) : Nat := digits.foldl appendDigit 0

/-- Appends digits to a word as far as they fit, and counts the digits from the first one on
    that does not. -/
def appendFitting (word : Nat) : Text → Nat × Nat
  | [] => (word, 0)
  | c :: digits =>
    if appendDigit word c < wordBound then appendFitting (appendDigit word c) digits
    else (word, digits.length + 1)

/-- The magnitude of a number from its digits in front of and behind the decimal point and its
    exponent. -/
def Magnitude.ofParts (whole fraction : Text) (exponent : Int) : Magnitude :=
  let (word, wholeLeft) := appendFitting 0 whole
  let (word, fractionLeft) := appendFitting word fraction
  -- Each digit left out in front of the point counts for a power of ten, each one appended
  -- from behind the point takes one away.
  ⟨word, exponent + wholeLeft - (fraction.length - fractionLeft)⟩

/-- A text without the sign in front. -/
def dropSign (t : Text) : Text :=
  if t.head? = some '+' ∨ t.head? = some '-' then t.tail else t

/-- Reads an exponent, if there is one. `atEnd` is the fault of a text that ends in a number. -/
def readExponent (atEnd : JsonFault) (t : Text) : Except JsonFault (Int × Text) :=
  match t with
  | [] => .ok (0, [])
  | e :: rest =>
    if e = 'e' ∨ e = 'E' then
      let unsigned := dropSign rest
      match unsigned with
      | [] => .error atEnd
      | c :: _ =>
        if isDigit c then
          let n := digitsValue (unsigned.takeWhile isDigit)
          .ok (if rest.head? = some '-' then -n else n, unsigned.dropWhile isDigit)
        else .error .malformed
    else .ok (0, e :: rest)

/-- Reads the digits behind a decimal point, if there is one. -/
def readFraction (atEnd : JsonFault) (t : Text) : Except JsonFault (Text × Text) :=
  match t with
  | '.' :: rest =>
    match rest with
    | [] => .error atEnd
    | c :: _ =>
      if isDigit c then .ok (rest.takeWhile isDigit, rest.dropWhile isDigit)
      else .error .malformed
  | t => .ok ([], t)

/-- Reads the digits in front of a decimal point; a zero stands alone. -/
def readWhole (atEnd : JsonFault) (t : Text) : Except JsonFault (Text × Text) :=
  match t with
  | [] => .error atEnd
  | c :: rest =>
    if c = '0' then
      if rest.head?.any isDigit then .error .malformed else .ok (['0'], rest)
    else if isDigit c then .ok (t.takeWhile isDigit, t.dropWhile isDigit)
    else .error .malformed

/-- Reads a number from behind its sign. -/
def readNumber (atEnd : JsonFault) (t : Text) : Except JsonFault (Magnitude × Text) :=
  match readWhole atEnd t with
  | .error e => .error e
  | .ok (whole, rest) =>
    match readFraction atEnd rest with
    | .error e => .error e
    | .ok (fraction, rest) =>
      match readExponent atEnd rest with
      | .error e => .error e
      | .ok (exponent, rest) => .ok (Magnitude.ofParts whole fraction exponent, rest)

/-- Passes over a number from behind its sign; one that is cut short is malformed. -/
def skipNumber (t : Text) : Except JsonFault Text :=
  match readNumber .malformed t with
  | .error e => .error e
  | .ok (_, rest) => .ok rest

/-- The greatest power of ten that a word is multiplied by. -/
def maxPower : Nat := 308

/-- True of the numbers that are too great for a double. -/
def Magnitude.overflows (m : Magnitude) : Bool :=
  if m.word = 0 ∨ m.exponent < 0 then false
  else if maxPower < m.exponent then true
  else doubleBound ≤ toDouble (toDouble m.word * toDouble (Nat.pow 10 m.exponent.toNat))

/-! ## Nothing is read twice -/

theorem dropWhile_length_lt {p : Char → Bool} {c : Char} {rest : Text} (h : p c = true) :
    ((c :: rest).dropWhile p).length < (c :: rest).length := by
  rw [List.dropWhile_cons_of_pos h, List.length_cons]
  exact Nat.lt_succ_of_le (List.dropWhile_suffix p).length_le

theorem readWhole_length {atEnd : JsonFault} {t whole rest : Text}
    (h : readWhole atEnd t = .ok (whole, rest)) : rest.length < t.length := by
  unfold readWhole at h
  split at h
  · cases h
  · split at h
    · split at h <;> cases h
      simp
    · split at h
      · rename_i h_digit
        cases h
        exact dropWhile_length_lt h_digit
      · cases h

theorem readFraction_length_le {atEnd : JsonFault} {t fraction rest : Text}
    (h : readFraction atEnd t = .ok (fraction, rest)) : rest.length ≤ t.length := by
  unfold readFraction at h
  split at h
  · split at h
    · cases h
    · split at h
      · rename_i h_digit
        cases h
        exact Nat.le_succ_of_le (Nat.le_of_lt (dropWhile_length_lt h_digit))
      · cases h
  · cases h
    exact Nat.le_refl _

theorem readExponent_length_le {atEnd : JsonFault} {t rest : Text} {exponent : Int}
    (h : readExponent atEnd t = .ok (exponent, rest)) : rest.length ≤ t.length := by
  unfold readExponent at h
  split at h
  · cases h
    exact Nat.le_refl _
  · split at h
    · rename_i e behind _
      have h_sign : (dropSign behind).length ≤ behind.length := by
        unfold dropSign
        split
        · rw [List.length_tail]
          exact Nat.sub_le _ _
        · exact Nat.le_refl _
      simp only at h
      split at h
      · cases h
      · split at h
        · cases h
          have h_le := (@List.dropWhile_suffix Char (dropSign behind) isDigit).length_le
          simp only [List.length_cons]
          omega
        · cases h
    · cases h
      exact Nat.le_refl _

theorem skipNumber_length {t rest : Text} (h : skipNumber t = .ok rest) :
    rest.length < t.length := by
  unfold skipNumber readNumber at h
  split at h
  · cases h
  · rename_i h_number
    split at h_number
    · cases h_number
    · rename_i h_whole
      have h_lt := readWhole_length h_whole
      split at h_number
      · cases h_number
      · rename_i h_fraction
        have h_le := readFraction_length_le h_fraction
        split at h_number
        · cases h_number
        · rename_i h_exponent
          have h_le' := readExponent_length_le h_exponent
          cases h_number
          cases h
          omega

end PagedSearch
