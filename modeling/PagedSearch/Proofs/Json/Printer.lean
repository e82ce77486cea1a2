/-
  PagedSearch.Proofs.Json.Printer

  Printers write JSON: a character is written in one of its texts
  (`characterText_escape`), line breaks and indentation are blanks
  (`blank_newLine`), and so what the printer of a shape writes is a text of the
  value that the shape has (`JsonShape.valueText_printer`).
-/
import PagedSearch.Json.Builtin
import PagedSearch.Proofs.Json.Grammar
import PagedSearch.Proofs.Text.Line

namespace PagedSearch

/-! ## Strings -/

/-- A control character is written by its code. -/
theorem hex4_hexDigit : ∀ n < 0x20,
    IsHexDigit (n / 0x1000) '0' ∧ IsHexDigit (n / 0x100 % 0x10) '0' ∧
      IsHexDigit (n / 0x10 % 0x10) (JsonPrinter.hexDigit (n / 0x10)) ∧
      IsHexDigit (n % 0x10) (JsonPrinter.hexDigit (n % 0x10)) := by
  unfold IsHexDigit
  decide

theorem characterText_escape (c : Char) : CharacterText c (JsonPrinter.escape c) := by
  rw [JsonPrinter.escape]
  split
  · subst c; exact .letter (by decide)
  rename_i h_quote
  split
  · subst c; exact .letter (by decide)
  rename_i h_slash
  -- the control characters that have a letter of their own
  split
  · subst c; exact .letter (by decide)
  split
  · subst c; exact .letter (by decide)
  split
  · subst c; exact .letter (by decide)
  split
  · subst c; exact .letter (by decide)
  split
  · subst c; exact .letter (by decide)
  split
  · rename_i h_control
    obtain ⟨h_a, h_b, h_c, h_d⟩ := hex4_hexDigit c.toNat h_control
    exact .code (.digits h_a h_b h_c h_d)
  · rename_i h_control
    exact .plain h_quote h_slash (Nat.le_of_not_lt h_control)

theorem charactersText_escape (s : Text) : CharactersText s (s.flatMap JsonPrinter.escape) := by
  induction s with
  | nil => exact .nil
  | cons c s ih =>
    rw [List.flatMap_cons]
    exact .cons (characterText_escape c) ih

/-! ## Blanks -/

theorem blank_nil : Blank [] := fun _ h => absurd h List.not_mem_nil

theorem blank_space : Blank [' '] := by
  intro c h_c
  exact .inl (List.mem_singleton.1 h_c)

theorem blank_newLine (level : Nat) : Blank (JsonPrinter.newLine level) := by
  intro c h_c
  rcases List.mem_cons.1 h_c with rfl | h_c
  · exact .inr (.inr (.inl rfl))
  · exact .inl (List.eq_of_mem_replicate h_c)

/-! ## Values -/

section

variable {α : Type} {shape : JsonShape α} {printer : JsonPrinter α}

/-- Values are written on lines of their own. -/
theorem itemsText_joinWith {level : Nat} (a : α) (l : List α)
    (h : ∀ a, ValueText (shape.value a) (printer (level + 1) a)) :
    ItemsText ((a :: l).map shape.value) (JsonPrinter.newLine (level + 1) ++
      (joinWith (',' :: JsonPrinter.newLine (level + 1)) ((a :: l).map (printer (level + 1))) ++
        JsonPrinter.newLine level)) := by
  have h_line := blank_newLine (level + 1)
  -- the line of the last value ends without a comma
  induction l generalizing a with
  | nil => exact .last (.spaced h_line (h a) (blank_newLine level))
  | cons b l ih =>
    have h_items := ItemsText.cons (.spaced h_line (h a) blank_nil) (ih b)
    rw [List.append_nil, List.append_assoc] at h_items
    rw [List.map_cons (f := printer (level + 1)), joinWith_cons _ _ (by simp), List.append_assoc,
      List.append_assoc]
    exact h_items

theorem JsonShape.valueText_printer (shape : JsonShape α) (level : Nat) (a : α) :
    ValueText (shape.value a) (shape.printer level a) := by
  induction shape generalizing level with
  | text => exact .text (charactersText_escape a)
  | listOf item ih =>
    cases a with
    | nil => exact .list (.nil blank_nil)
    | cons a l =>
      have h_list := ValueText.list (itemsText_joinWith a l (ih (level + 1)))
      simp only [List.append_assoc] at h_list
      show ValueText _ (JsonPrinter.listOf item.printer level (a :: l))
      simp only [JsonPrinter.listOf, List.isEmpty_cons, Bool.false_eq_true, if_false,
        List.append_assoc, List.cons_append, List.nil_append]
      exact h_list
  | record name field default ih =>
    have h_value := JsonText.spaced blank_space (ih (level + 1) a) (blank_newLine level)
    have h_member := MemberText.named (blank_newLine (level + 1)) (charactersText_escape name)
      blank_nil h_value
    have h_object := ValueText.object (.last h_member)
    show ValueText _ (JsonPrinter.record name field.printer level a)
    simp only [List.append_assoc, List.cons_append, List.nil_append] at h_object
    simp only [JsonPrinter.record, JsonPrinter.quote, List.append_assoc, List.cons_append,
      List.nil_append]
    exact h_object

/-- The builtin library writes JSON. -/
theorem jsonText_write (shape : JsonShape α) (a : α) :
    JsonText (shape.value a) (JsonLibrary.builtin.write shape a) := by
  have h_text := JsonText.spaced blank_nil (shape.valueText_printer 0 a) blank_nil
  rw [List.nil_append, List.append_nil] at h_text
  exact h_text

end

end PagedSearch
