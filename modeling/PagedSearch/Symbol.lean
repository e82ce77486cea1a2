/-
  PagedSearch.Symbol

  What one position of a pattern accepts: a character, a set of characters,
  any character, or a repetition of one of these. `covers` compares two
  symbols by what they accept; a repetition takes a varying amount of text,
  so it neither covers nor is covered.
-/
import PagedSearch.Text.Basic

namespace PagedSearch

/-! ## Character sets -/

/-- The characters from `first` to `last`, both included. -/
structure CharRange where
  first : Char
  last : Char
  first_le_last : first ≤ last
deriving DecidableEq, Repr

namespace CharRange

/-- The range of one character. -/
def single (c : Char) : CharRange := ⟨c, c, Nat.le_refl _⟩

/-- True of the characters of a range. -/
def contains (r : CharRange) (c : Char) : Bool := r.first ≤ c && c ≤ r.last

/-- The character of a code point, if it has one. -/
def charOfCode? (n : Nat) : Option Char :=
  if h : n.isValidChar then some (Char.ofNatAux n h) else none

/-- The characters of a range in ascending order. -/
def chars (r : CharRange) : List Char :=
  (List.range' r.first.toNat (r.last.toNat + 1 - r.first.toNat)).filterMap charOfCode?

end CharRange

/-- A set of characters, as the ranges that make it up; they may overlap. -/
structure CharSet where
  ranges : List CharRange
deriving DecidableEq, Repr

namespace CharSet

/-- The set of the characters of a text. -/
def ofList (t : Text) : CharSet := ⟨t.map CharRange.single⟩

/-- True of the members of a set. -/
def contains (s : CharSet) (c : Char) : Bool := s.ranges.any (·.contains c)

/-- True of the set without members. -/
def isEmpty (s : CharSet) : Bool := s.ranges.isEmpty

/-- The members, range by range. -/
def listed (s : CharSet) : List Char := s.ranges.flatMap CharRange.chars

/-- Drops every element that equals the one behind it. -/
def dropRepeats (l : List Char) : List Char :=
  l.foldr (fun c kept => if kept.head? = some c then kept else c :: kept) []

/-- The members in ascending order, each once. -/
def members (s : CharSet) : List Char :=
  dropRepeats (s.listed.mergeSort (· ≤ ·))

/-- How many members a set has. -/
def size (s : CharSet) : Nat := s.members.length

/-- True of the sets whose only member is `a`. -/
def isOnly (s : CharSet) (a : Char) : Bool :=
  !s.ranges.isEmpty && s.ranges.all fun r => r.first == a && r.last == a

/-- True when every member of `t` is a member of `s`. -/
def includes (s t : CharSet) : Bool := t.listed.all s.contains

end CharSet

/-! ## Symbols -/

/-- What one position of a pattern accepts. -/
inductive Symbol where
  /-- Exactly this character. -/
  | char (c : Char)
  /-- One member of a set. -/
  | set (s : CharSet)
  /-- Any one character. -/
  | any
  /-- As many characters in a row as the inner symbol accepts, possibly none. -/
  | many (inner : Symbol)
deriving DecidableEq, Repr

namespace Symbol

instance : Inhabited Symbol := ⟨.any⟩

/-- True of the characters that a symbol takes. -/
def accepts : Symbol → Char → Bool
  | .char a, c => a == c
  | .set s, c => s.contains c
  | .any, _ => true
  | .many inner, c => inner.accepts c

/-- True of repetitions. -/
def isMany : Symbol → Bool
  | .many _ => true
  | _ => false

/-- True of the symbols that stand for one fixed character. -/
def isChar : Symbol → Bool
  | .char _ => true
  | _ => false

/-- True when the first symbol may take the place of the second in a partial match: it takes
    one character, and every character that the second one takes. -/
def covers : Symbol → Symbol → Bool
  | .many _, _ => false
  | _, .many _ => false
  | .any, _ => true
  | _, .any => false
  | .char a, .char b => a == b
  | .char a, .set t => t.isOnly a
  | .set s, .char b => s.contains b
  | .set s, .set t => s.includes t

@[simp] theorem covers_many (σ τ : Symbol) : σ.covers (.many τ) = false := by
  cases σ <;> rfl

@[simp] theorem many_covers (σ τ : Symbol) : (Symbol.many σ).covers τ = false := rfl

end Symbol

end PagedSearch
