/-
  PagedSearch.Proofs.Json.Grammar

  The texts of JSON values, as far as strings, lists and objects go, whoever
  writes or reads them. A character of a string may be written as it is, with a
  letter behind a backslash, or by its code, those beyond the basic plane by two
  surrogates. Blanks may stand around every value and every name.

  A shape has a value for whatever it describes (`JsonShape.value`), and takes
  values for what it describes (`JsonShape.Takes`): an object may leave its
  field out. What it has a value for is what it takes the value for
  (`JsonShape.takes_value`).
-/
import Mathlib.Data.List.Forall2
import PagedSearch.Json.Library

namespace PagedSearch

/-! ## Strings -/

/-- The digit of a number below 16, in letters of either case. -/
def IsHexDigit (n : Nat) (c : Char) : Prop := n < 16 ∧ (c = n.digitChar ∨ c = n.digitChar.toUpper)

/-- The four digits of a number. -/
inductive Hex4 (n : Nat) : Text → Prop where
  | digits {a b c d : Char} : IsHexDigit (n / 0x1000) a → IsHexDigit (n / 0x100 % 0x10) b →
      IsHexDigit (n / 0x10 % 0x10) c → IsHexDigit (n % 0x10) d → Hex4 n [a, b, c, d]

/-- The characters that have a letter of their own behind a backslash. -/
def escapeLetters : List (Char × Char) :=
  [('"', '"'), ('\\', '\\'), ('/', '/'), ('\x08', 'b'), ('\x0c', 'f'), ('\n', 'n'), ('\r', 'r'),
    ('\t', 't')]

/-- The texts of a character in a string. -/
inductive CharacterText (c : Char) : Text → Prop where
  | plain : c ≠ '"' → c ≠ '\\' → 0x20 ≤ c.toNat → CharacterText c [c]
  | letter {l : Char} : (c, l) ∈ escapeLetters → CharacterText c ['\\', l]
  | code {t : Text} : Hex4 c.toNat t → CharacterText c ('\\' :: 'u' :: t)
  | surrogates {t u : Text} : 0x10000 ≤ c.toNat →
      Hex4 (0xD800 + (c.toNat - 0x10000) / 0x400) t →
      Hex4 (0xDC00 + (c.toNat - 0x10000) % 0x400) u →
      CharacterText c ('\\' :: 'u' :: (t ++ '\\' :: 'u' :: u))

/-- What stands between the quotation marks of a string. -/
inductive CharactersText : Text → Text → Prop where
  | nil : CharactersText [] []
  | cons {c : Char} {s t u : Text} : CharacterText c t → CharactersText s u →
      CharactersText (c :: s) (t ++ u)

/-! ## Values -/

/-- The values that are strings, lists and objects. -/
inductive JsonValue where
  | text (s : Text)
  | list (items : List JsonValue)
  | object (members : List (Text × JsonValue))

/-- True of the texts that mean nothing between the parts of a value. -/
def Blank (t : Text) : Prop := ∀ c ∈ t, c = ' ' ∨ c = '\t' ∨ c = '\n' ∨ c = '\r'

mutual

/-- The texts of a value. -/
inductive ValueText : JsonValue → Text → Prop where
  | text {s t : Text} : CharactersText s t → ValueText (.text s) ('"' :: (t ++ ['"']))
  | list {items : List JsonValue} {t : Text} : ItemsText items t →
      ValueText (.list items) ('[' :: (t ++ [']']))
  | object {members : List (Text × JsonValue)} {t : Text} : MembersText members t →
      ValueText (.object members) ('\x7b' :: (t ++ ['\x7d']))

/-- The texts of a value with blanks around it. -/
inductive JsonText : JsonValue → Text → Prop where
  | spaced {v : JsonValue} {front t back : Text} : Blank front → ValueText v t → Blank back →
      JsonText v (front ++ (t ++ back))

/-- What stands between the brackets of a list. -/
inductive ItemsText : List JsonValue → Text → Prop where
  | nil {t : Text} : Blank t → ItemsText [] t
  | last {v : JsonValue} {t : Text} : JsonText v t → ItemsText [v] t
  | cons {v w : JsonValue} {items : List JsonValue} {t u : Text} : JsonText v t →
      ItemsText (w :: items) u → ItemsText (v :: w :: items) (t ++ ',' :: u)

/-- The texts of a member of an object. -/
inductive MemberText : Text × JsonValue → Text → Prop where
  | named {name t value front back : Text} {v : JsonValue} : Blank front →
      CharactersText name t → Blank back → JsonText v value →
      MemberText (name, v) (front ++ '"' :: (t ++ '"' :: (back ++ ':' :: value)))

/-- What stands between the braces of an object. -/
inductive MembersText : List (Text × JsonValue) → Text → Prop where
  | nil {t : Text} : Blank t → MembersText [] t
  | last {member : Text × JsonValue} {t : Text} : MemberText member t → MembersText [member] t
  | cons {member next : Text × JsonValue} {members : List (Text × JsonValue)} {t u : Text} :
      MemberText member t → MembersText (next :: members) u →
      MembersText (member :: next :: members) (t ++ ',' :: u)

end

/-! ## Shapes -/

namespace JsonShape

/-- The value that a shape has for something. -/
def value : {α : Type} → JsonShape α → α → JsonValue
  | _, .text, s => .text s
  | _, .listOf item, l => .list (l.map item.value)
  | _, .record name field _, a => .object [(name, field.value a)]

/-- What a shape takes a value for. -/
def Takes : {α : Type} → JsonShape α → JsonValue → α → Prop
  | _, .text, v, s => v = .text s
  | _, .listOf item, v, l => ∃ items, v = .list items ∧ List.Forall₂ item.Takes items l
  | _, .record name field default, v, a =>
    (v = .object [] ∧ a = default) ∨ ∃ w, v = .object [(name, w)] ∧ field.Takes w a

theorem takes_value {α : Type} (shape : JsonShape α) (a : α) : shape.Takes (shape.value a) a := by
  induction shape with
  | text => exact rfl
  | listOf item ih =>
    refine ⟨a.map item.value, rfl, ?_⟩
    rw [List.forall₂_map_left_iff, List.forall₂_same]
    intro x _
    exact ih x
  | record name field default ih => exact .inr ⟨field.value a, rfl, ih a⟩

end JsonShape

end PagedSearch
