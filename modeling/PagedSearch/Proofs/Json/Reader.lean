/-
  PagedSearch.Proofs.Json.Reader

  Readers read JSON. Every text of a character is read as that character
  (`readString_character`), so every text of a string as that string
  (`readString_characters`). From the items this passes to lists
  (`Reads.listOf`) and from the field to records (`Reads.record`): whatever
  blanks stand in front of a value that a shape takes and whatever text stands
  behind it, the reader of the shape reads it (`JsonShape.reads`).
-/
import PagedSearch.Json.Builtin
import PagedSearch.Proofs.Json.Grammar

namespace PagedSearch

/-! ## Escapes -/

theorem hexValue?_digitChar : ∀ n < 16,
    hexValue? n.digitChar = some n ∧ hexValue? n.digitChar.toUpper = some n := by
  decide

theorem IsHexDigit.value {n : Nat} {c : Char} (h : IsHexDigit n c) : hexValue? c = some n := by
  obtain ⟨h_n, rfl | rfl⟩ := h
  · exact (hexValue?_digitChar n h_n).1
  · exact (hexValue?_digitChar n h_n).2

theorem readHex4_eq {n : Nat} {t : Text} (h : Hex4 n t) (rest : Text) :
    readHex4 (t ++ rest) = .ok (n, rest) := by
  obtain ⟨h_a, h_b, h_c, h_d⟩ := h
  have h_value : ((n / 0x1000 * 16 + n / 0x100 % 0x10) * 16 + n / 0x10 % 0x10) * 16 + n % 0x10 =
      n := by omega
  simp only [List.cons_append, List.nil_append, readHex4, hexValue4?, h_a.value, h_b.value,
    h_c.value, h_d.value, bind, Option.bind, pure, h_value]

/-- No character has a surrogate for its code. -/
theorem toNat_not_surrogate (c : Char) : c.toNat < 0xD800 ∨ 0xDFFF < c.toNat ∧ c.toNat < 0x110000 :=
  c.valid

theorem readEscape_code {c : Char} {t : Text} (h : Hex4 c.toNat t) (rest : Text) :
    readEscape ('u' :: (t ++ rest)) = .ok (c, rest) := by
  have h_code := toNat_not_surrogate c
  have h_low : isLowSurrogate c.toNat = false := by
    simp only [isLowSurrogate, Bool.and_eq_false_iff, decide_eq_false_iff_not]
    omega
  have h_high : isHighSurrogate c.toNat = false := by
    simp only [isHighSurrogate, Bool.and_eq_false_iff, decide_eq_false_iff_not]
    omega
  simp only [readEscape, if_true, readHex4_eq h, h_low, h_high, Bool.false_eq_true, if_false,
    Char.ofNat_toNat]

/-- The two halves of a surrogate pair are put together. -/
theorem readEscape_surrogates {c : Char} {t u : Text} (h_c : 0x10000 ≤ c.toNat)
    (h_t : Hex4 (0xD800 + (c.toNat - 0x10000) / 0x400) t)
    (h_u : Hex4 (0xDC00 + (c.toNat - 0x10000) % 0x400) u) (rest : Text) :
    readEscape ('u' :: (t ++ '\\' :: 'u' :: (u ++ rest))) = .ok (c, rest) := by
  have h_code := toNat_not_surrogate c
  have h_not_low : isLowSurrogate (0xD800 + (c.toNat - 0x10000) / 0x400) = false := by
    simp only [isLowSurrogate, Bool.and_eq_false_iff, decide_eq_false_iff_not]
    omega
  have h_high : isHighSurrogate (0xD800 + (c.toNat - 0x10000) / 0x400) = true := by
    simp only [isHighSurrogate, Bool.and_eq_true, decide_eq_true_eq]
    omega
  have h_low : isLowSurrogate (0xDC00 + (c.toNat - 0x10000) % 0x400) = true := by
    simp only [isLowSurrogate, Bool.and_eq_true, decide_eq_true_eq]
    omega
  -- ten bits of the code above the basic plane are in either half
  have h_pair : ofSurrogates (0xD800 + (c.toNat - 0x10000) / 0x400)
      (0xDC00 + (c.toNat - 0x10000) % 0x400) = c := by
    have h_number : (0xD800 + (c.toNat - 0x10000) / 0x400 - 0xD800) * 0x400 +
        (0xDC00 + (c.toNat - 0x10000) % 0x400 - 0xDC00) + 0x10000 = c.toNat := by omega
    rw [ofSurrogates, h_number, Char.ofNat_toNat]
  simp only [readEscape, if_true, readHex4_eq h_t, h_not_low, h_high, Bool.false_eq_true, if_false,
    readLowSurrogate, and_self, readHex4_eq h_u, h_low, h_pair]

theorem readEscape_letter {c l : Char} (h : (c, l) ∈ escapeLetters) (rest : Text) :
    readEscape (l :: rest) = .ok (c, rest) := by
  have h_letters : ∀ p ∈ escapeLetters, p.2 ≠ 'u' ∧ escapedChar? p.2 = some p.1 := by decide
  obtain ⟨h_u, h_escaped⟩ := h_letters (c, l) h
  rw [readEscape, if_neg h_u, h_escaped]

/-! ## Strings -/

theorem readString_escaped {d : Char} {rest behind : Text} (h : readEscape rest = .ok (d, behind)) :
    readString ('\\' :: rest) = (readString behind).map fun (s, left) => (d :: s, left) := by
  rw [readString, if_neg (by decide), if_pos rfl, h]

/-- Every text of a character is read as that character. -/
theorem readString_character {c : Char} {t : Text} (h : CharacterText c t) (rest : Text) :
    readString (t ++ rest) = (readString rest).map fun (s, left) => (c :: s, left) := by
  cases h with
  | plain h_quote h_slash h_control =>
    show readString (c :: rest) = _
    rw [readString, if_neg h_quote, if_neg h_slash, if_neg (Nat.not_lt_of_le h_control)]
  | letter h => exact readString_escaped (readEscape_letter h rest)
  | code h => exact readString_escaped (readEscape_code h rest)
  | surrogates h_c h_t h_u =>
    have h_read := readString_escaped (readEscape_surrogates h_c h_t h_u rest)
    simp only [List.cons_append, List.append_assoc]
    exact h_read

theorem readString_characters {s t : Text} (h : CharactersText s t) (rest : Text) :
    readString (t ++ '"' :: rest) = .ok (s, rest) := by
  induction h with
  | nil => rw [List.nil_append, readString, if_pos rfl]
  | cons h_c _ ih =>
    rw [List.append_assoc, readString_character h_c, ih]
    rfl

/-! ## Blanks -/

theorem isJsonBlank_eq_true_iff {c : Char} :
    isJsonBlank c = true ↔ c = ' ' ∨ c = '\t' ∨ c = '\n' ∨ c = '\r' := by
  simp only [isJsonBlank, Bool.or_eq_true, beq_iff_eq]
  tauto

theorem skipBlanks_append {blanks t : Text} {c : Char} (h : Blank blanks)
    (h_c : isJsonBlank c = false) : skipBlanks (blanks ++ c :: t) = c :: t := by
  have h_blanks : ∀ b ∈ blanks, isJsonBlank b = true := fun b h_b =>
    isJsonBlank_eq_true_iff.2 (h b h_b)
  rw [skipBlanks, List.dropWhile_append_of_pos h_blanks, List.dropWhile_cons_of_neg (by simp [h_c])]

theorem skipBlanks_eq_nil {blanks : Text} (h : Blank blanks) : skipBlanks blanks = [] := by
  have h_blanks : ∀ b ∈ blanks, isJsonBlank b = true := fun b h_b =>
    isJsonBlank_eq_true_iff.2 (h b h_b)
  have h_append : skipBlanks (blanks ++ []) = [] := List.dropWhile_append_of_pos h_blanks
  rw [List.append_nil] at h_append
  exact h_append

/-- A value looks neither like a blank nor like the end of a list. -/
theorem ValueText.starts {v : JsonValue} {t : Text} (h : ValueText v t) :
    ∃ c u, t = c :: u ∧ isJsonBlank c = false ∧ c ≠ ']' := by
  cases h with
  | text => exact ⟨'"', _, rfl, rfl, by decide⟩
  | list => exact ⟨'[', _, rfl, rfl, by decide⟩
  | object => exact ⟨'\x7b', _, rfl, rfl, by decide⟩

namespace JsonReader

section

variable {α : Type} {reader : JsonReader α}

/-! ## Lists -/

theorem nextValue_first {blanks t : Text} {c : Char} (h : Blank blanks)
    (h_c : isJsonBlank c = false) (h_end : c ≠ ']') :
    nextValue true (blanks ++ c :: t) = .ok (.item (c :: t)) := by
  rw [nextValue, skipBlanks_append h h_c]
  exact (if_neg h_end).trans (if_pos rfl)

theorem nextValue_comma {blanks blanks' t : Text} {c : Char} (h : Blank blanks)
    (h' : Blank blanks') (h_c : isJsonBlank c = false) (h_end : c ≠ ']') :
    nextValue false (blanks ++ ',' :: (blanks' ++ c :: t)) = .ok (.item (c :: t)) := by
  have h_skip : skipBlanks (blanks ++ ',' :: (blanks' ++ c :: t)) = ',' :: (blanks' ++ c :: t) :=
    skipBlanks_append h rfl
  simp only [nextValue, h_skip, skipBlanks_append h' h_c, h_end, Char.reduceEq, Bool.false_eq_true,
    if_true, if_false]

theorem nextValue_end {blanks : Text} (h : Blank blanks) (isFirst : Bool) (rest : Text) :
    nextValue isFirst (blanks ++ ']' :: rest) = .ok (.stop rest) := by
  rw [nextValue, skipBlanks_append h rfl]
  exact if_pos rfl

theorem readValues_stop {isFirst : Bool} {t rest : Text}
    (h : nextValue isFirst t = .ok (.stop rest)) :
    readValues reader isFirst t = .ok ([], rest) := by
  rw [readValues, h]

theorem readValues_item {isFirst : Bool} {t value rest : Text} {a : α}
    (h : nextValue isFirst t = .ok (.item value)) (h_value : reader.read value = .ok (a, rest)) :
    readValues reader isFirst t =
      (readValues reader false rest).map fun (l, left) => (a :: l, left) := by
  rw [readValues, h]
  dsimp only
  rw [h_value]

/-- What stands in front of a value of a list leads to the value, whatever blanks there are. -/
def Leads (isFirst : Bool) (front : Text) : Prop :=
  ∀ {blanks t : Text} {c : Char}, Blank blanks → isJsonBlank c = false → c ≠ ']' →
    nextValue isFirst (front ++ (blanks ++ c :: t)) = .ok (.item (c :: t))

theorem leads_first : Leads true [] := nextValue_first

theorem leads_comma {blanks : Text} (h : Blank blanks) : Leads false (blanks ++ [',']) := by
  intro blanks' t c h' h_c h_end
  rw [List.append_assoc, List.singleton_append]
  exact nextValue_comma h h' h_c h_end

/-- The reader reads what a shape takes, whatever blanks stand in front and whatever text behind. -/
def Reads (reader : JsonReader α) (takes : JsonValue → α → Prop) : Prop :=
  ∀ {v : JsonValue} {a : α} {t : Text}, takes v a → ValueText v t →
    ∀ {blanks : Text}, Blank blanks → ∀ rest, reader.read (blanks ++ (t ++ rest)) = .ok (a, rest)

variable {takes : JsonValue → α → Prop}

/-- A value of a list is read up to the blanks behind it. -/
theorem readValues_spaced (h : reader.Reads takes) {v : JsonValue} {a : α} {t : Text}
    {isFirst : Bool} {front : Text} (h_a : takes v a) (h_t : JsonText v t)
    (h_front : Leads isFirst front) :
    ∃ back, Blank back ∧ ∀ rest, readValues reader isFirst (front ++ (t ++ rest)) =
      (readValues reader false (back ++ rest)).map fun (l, left) => (a :: l, left) := by
  obtain ⟨h_blanks, h_value, h_back⟩ := h_t
  refine ⟨_, h_back, fun rest => ?_⟩
  obtain ⟨c, u, rfl, h_c, h_end⟩ := h_value.starts
  have h_nil : Blank [] := fun _ h_c => absurd h_c List.not_mem_nil
  have h_read := h h_a h_value h_nil
  simp only [List.append_assoc, List.cons_append]
  exact readValues_item (h_front h_blanks h_c h_end) (h_read _)

theorem readValues_items (h : reader.Reads takes) {items : List JsonValue} {l : List α} {t : Text}
    {isFirst : Bool} {front : Text} (h_l : List.Forall₂ takes items l) (h_t : ItemsText items t)
    (h_nil : items ≠ []) (h_front : Leads isFirst front) (rest : Text) :
    readValues reader isFirst (front ++ (t ++ ']' :: rest)) = .ok (l, rest) := by
  induction h_l generalizing t isFirst front with
  | nil => exact absurd rfl h_nil
  | @cons v a items l h_a h_l ih =>
    cases h_t with
    | last h_t =>
      obtain ⟨back, h_back, h_read⟩ := readValues_spaced h h_a h_t h_front
      cases h_l
      rw [h_read, readValues_stop (nextValue_end h_back false rest)]
      rfl
    | @cons _ w items t u h_t h_u =>
      obtain ⟨back, h_back, h_read⟩ := readValues_spaced h h_a h_t h_front
      -- the blanks behind the value and the comma lead to the next one
      have h_others := ih h_u (List.cons_ne_nil _ _) (leads_comma h_back)
      rw [List.append_assoc, List.singleton_append] at h_others
      rw [List.append_assoc, h_read, List.cons_append, h_others]
      rfl

theorem Reads.listOf (h : reader.Reads takes) : (JsonReader.listOf reader).Reads fun v l =>
    ∃ items, v = .list items ∧ List.Forall₂ takes items l := by
  rintro v l t ⟨items, rfl, h_l⟩ h_t blanks h_blanks rest
  cases h_t with
  | @list _ t h_items =>
    show readList reader (blanks ++ '[' :: (t ++ [']'] ++ rest)) = _
    rw [readList, skipBlanks_append h_blanks rfl, List.append_assoc, List.singleton_append]
    refine (if_pos rfl).trans ?_
    cases h_l with
    | nil =>
      cases h_items with
      | nil h_nil => exact readValues_stop (nextValue_end h_nil true rest)
    | cons h_a h_l =>
      exact readValues_items h (.cons h_a h_l) h_items (List.cons_ne_nil _ _) leads_first rest

/-! ## Records -/

theorem nextMember_first {blanks : Text} (h : Blank blanks) (t : Text) :
    nextMember true (blanks ++ '"' :: t) = .ok (.item t) := by
  have h_skip : skipBlanks (blanks ++ '"' :: t) = '"' :: t := skipBlanks_append h rfl
  simp only [nextMember, h_skip, Char.reduceEq, if_true, if_false]

theorem nextMember_end {blanks : Text} (h : Blank blanks) (isFirst : Bool) (rest : Text) :
    nextMember isFirst (blanks ++ '\x7d' :: rest) = .ok (.stop rest) := by
  rw [nextMember, skipBlanks_append h rfl]
  exact if_pos rfl

theorem readMembers_stop {name : Text} {isFirst : Bool} {found : Option α} {t rest : Text}
    (h : nextMember isFirst t = .ok (.stop rest)) :
    readMembers name reader isFirst found t = .ok (found, rest) := by
  rw [readMembers, h]

theorem skipColon_blanks {blanks : Text} (h : Blank blanks) (t : Text) :
    skipColon (blanks ++ ':' :: t) = .ok t := by
  rw [skipColon, skipBlanks_append h rfl]
  exact if_pos rfl

/-- The member with the field's name is read. -/
theorem readMembers_field {name : Text} {isFirst : Bool} {t member colon behind rest : Text} {a : α}
    (h : nextMember isFirst t = .ok (.item member))
    (h_name : readString member = .ok (name, colon)) (h_colon : skipColon colon = .ok behind)
    (h_value : reader.read behind = .ok (a, rest)) :
    readMembers name reader isFirst none t = readMembers name reader false (some a) rest := by
  have h_member : readMember name reader none name colon = .ok (some a, rest) := by
    simp only [readMember, if_true, Option.isSome_none, Bool.false_eq_true, if_false, h_colon,
      h_value, Except.map]
  rw [readMembers, h]
  dsimp only
  rw [h_name]
  dsimp only
  rw [h_member]

/-- The one member of an object is read if it is the field, and none is if there is none. -/
theorem Reads.record (h : reader.Reads takes) (name : Text) (default : α) :
    (JsonReader.record name reader default).Reads fun v a =>
      (v = .object [] ∧ a = default) ∨ ∃ w, v = .object [(name, w)] ∧ takes w a := by
  intro v a t h_a h_t blanks h_blanks rest
  have h_record : ∀ members, readRecord name reader default (blanks ++ '\x7b' :: members) =
      (readMembers name reader true none members).map fun x => (x.1.getD default, x.2) := by
    intro members
    rw [readRecord, skipBlanks_append h_blanks rfl]
    simp only [Char.reduceEq, if_false, if_true]
  rcases h_a with ⟨rfl, rfl⟩ | ⟨w, rfl, h_a⟩
  · -- the object ends before a member was found
    cases h_t with
    | @object _ t h_members =>
      cases h_members with
      | nil h_nil =>
        show readRecord name reader a (blanks ++ '\x7b' :: (t ++ ['\x7d'] ++ rest)) = _
        rw [h_record, List.append_assoc, List.singleton_append,
          readMembers_stop (nextMember_end h_nil true rest)]
        rfl
  · obtain ⟨members, rfl, h_members⟩ : ∃ members, t = '\x7b' :: (members ++ ['\x7d']) ∧
        MembersText [(name, w)] members := by
      cases h_t with
      | object h_members => exact ⟨_, rfl, h_members⟩
    cases h_members with
    | last h_member =>
      obtain ⟨h_front, h_name, h_colon, h_value⟩ := h_member
      obtain ⟨h_before, h_value, h_back⟩ := h_value
      show readRecord name reader default (blanks ++ '\x7b' :: (_ ++ ['\x7d'] ++ rest)) = _
      simp only [List.append_assoc, List.cons_append, List.nil_append]
      -- the first member has the field's name, and behind it the object ends
      rw [h_record, readMembers_field (nextMember_first h_front _) (readString_characters h_name _)
        (skipColon_blanks h_colon _) (h h_a h_value h_before _),
        readMembers_stop (nextMember_end h_back false rest)]
      rfl

theorem Reads.text : JsonReader.text.Reads fun v s => v = .text s := by
  rintro v s t rfl h_t blanks h_blanks rest
  cases h_t with
  | @text _ t h_characters =>
    show readText (blanks ++ '"' :: (t ++ ['"'] ++ rest)) = _
    rw [readText, skipBlanks_append h_blanks rfl, List.append_assoc, List.singleton_append]
    exact (if_pos rfl).trans (readString_characters h_characters rest)

end

end JsonReader

/-! ## Shapes -/

theorem JsonShape.reads {α : Type} (shape : JsonShape α) : shape.reader.Reads shape.Takes := by
  induction shape with
  | text => exact JsonReader.Reads.text
  | listOf item ih => exact ih.listOf
  | record name field default ih => exact ih.record name default

/-- The builtin library reads JSON. -/
theorem read_jsonText {α : Type} {shape : JsonShape α} {v : JsonValue} {a : α} {t : Text}
    (h_a : shape.Takes v a) (h_t : JsonText v t) :
    JsonLibrary.builtin.read shape t = .ok a := by
  obtain ⟨h_front, h_value, h_back⟩ := h_t
  show shape.reader.readAll _ = _
  rw [JsonReader.readAll, shape.reads h_a h_value h_front]
  exact if_pos (skipBlanks_eq_nil h_back)

end PagedSearch
