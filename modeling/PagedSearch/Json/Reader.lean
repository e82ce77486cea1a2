/-
  PagedSearch.Json.Reader

  Reading JSON straight into typed values, from left to right, so that the
  first fault that is met counts.

  A reader leaves less text than it was given (`JsonReader.shrinks`), so that
  lists and records of any reader come to an end. A record has one field; it
  is written as an object, in which other members are passed over, or as a
  list of at most one value, and its field has a default.
-/
import PagedSearch.Json.Skip

namespace PagedSearch

/-- Reads a value from the front of a text and gives what is left. -/
structure JsonReader (α : Type) where
  read : Text → Except JsonFault (α × Text)
  shrinks : ∀ {t : Text} {a : α} {rest : Text}, read t = .ok (a, rest) → rest.length < t.length

namespace JsonReader

variable {α : Type}

/-! ## Strings -/

/-- Reads a string. -/
def readText (t : Text) : Except JsonFault (Text × Text) :=
  match skipBlanks t with
  | [] => .error .truncated
  | c :: rest => if c = '"' then readString rest else .error (mismatch (c :: rest))

theorem readText_shrinks {t a rest : Text} (h : readText t = .ok (a, rest)) :
    rest.length < t.length := by
  unfold readText at h
  split at h
  · cases h
  · rename_i h_t
    have h_lt := length_of_skipBlanks h_t
    split at h
    · have h_string := readString_length h
      omega
    · cases h

/-- The reader of strings. -/
def text : JsonReader Text where
  read := readText
  shrinks := readText_shrinks

/-! ## Lists -/

/-- What comes next in a list or an object: its end, with the text behind it, or another part,
    with the text that starts with it. -/
inductive Next where
  | stop (rest : Text)
  | item (t : Text)
deriving DecidableEq, Repr

/-- Reads up to the next value of a list: nothing stands in front of the first one, a comma in
    front of the others. -/
def nextValue (isFirst : Bool) (t : Text) : Except JsonFault Next :=
  match skipBlanks t with
  | [] => .error .truncated
  | c :: rest =>
    if c = ']' then .ok (.stop rest)
    else if isFirst then .ok (.item (c :: rest))
    else if c = ',' then
      match skipBlanks rest with
      | [] => .error .truncated
      | d :: behind => if d = ']' then .error .malformed else .ok (.item (d :: behind))
    else .error .malformed

theorem nextValue_item_length_le {isFirst : Bool} {t value : Text}
    (h : nextValue isFirst t = .ok (.item value)) : value.length ≤ t.length := by
  unfold nextValue at h
  split at h
  · cases h
  · rename_i h_t
    have h_lt := length_of_skipBlanks h_t
    split at h
    · cases h
    split at h
    · cases h
      exact h_lt
    split at h
    · split at h
      · cases h
      · rename_i h_rest
        have h_lt' := length_of_skipBlanks h_rest
        split at h <;> cases h
        simp only [List.length_cons]
        omega
    · cases h

theorem nextValue_stop_length {isFirst : Bool} {t rest : Text}
    (h : nextValue isFirst t = .ok (.stop rest)) : rest.length < t.length := by
  unfold nextValue at h
  split at h
  · cases h
  · rename_i h_t
    have h_lt := length_of_skipBlanks h_t
    split at h
    · cases h
      exact h_lt
    split at h
    · cases h
    split at h
    · split at h
      · cases h
      · split at h <;> cases h
    · cases h

/-- Reads the values of a list up to its closing bracket. -/
def readValues (item : JsonReader α) (isFirst : Bool) (t : Text) :
    Except JsonFault (List α × Text) :=
  match _h : nextValue isFirst t with
  | .error e => .error e
  | .ok (.stop rest) => .ok ([], rest)
  | .ok (.item value) =>
    match _h_item : item.read value with
    | .error e => .error e
    | .ok (a, rest) => (readValues item false rest).map fun (l, left) => (a :: l, left)
termination_by t.length
decreasing_by
  have h_le := nextValue_item_length_le _h
  have h_lt := item.shrinks _h_item
  omega

theorem readValues_length {item : JsonReader α} {isFirst : Bool} {t rest : Text} {l : List α}
    (h : readValues item isFirst t = .ok (l, rest)) : rest.length < t.length := by
  fun_induction readValues item isFirst t generalizing l rest with
  | case1 => cases h
  | case2 _ _ _ h_next => cases h; exact nextValue_stop_length h_next
  | case3 => cases h
  | case4 isFirst t value h_next a left h_item ih =>
    have h_le := nextValue_item_length_le h_next
    have h_lt := item.shrinks h_item
    cases h_values : readValues item false left with
    | error e => simp [h_values, Except.map] at h
    | ok r =>
      obtain ⟨value, left⟩ := r
      have h_ih := ih h_values
      simp only [h_values, Except.map, Except.ok.injEq, Prod.mk.injEq] at h
      rw [← h.2]
      omega

/-- Reads a list. -/
def readList (item : JsonReader α) (t : Text) : Except JsonFault (List α × Text) :=
  match skipBlanks t with
  | [] => .error .truncated
  | c :: rest => if c = '[' then readValues item true rest else .error (mismatch (c :: rest))

theorem readList_shrinks {item : JsonReader α} {t rest : Text} {l : List α}
    (h : readList item t = .ok (l, rest)) : rest.length < t.length := by
  unfold readList at h
  split at h
  · cases h
  · rename_i h_t
    have h_lt := length_of_skipBlanks h_t
    split at h
    · have h_values := readValues_length h
      omega
    · cases h

/-- The reader of lists. -/
def listOf (item : JsonReader α) : JsonReader (List α) where
  read := readList item
  shrinks := readList_shrinks

/-! ## Records -/

/-- Reads a record that is written as a list, from behind the opening bracket. -/
def readPositional (field : JsonReader α) (default : α) (t : Text) :
    Except JsonFault (α × Text) :=
  match nextValue true t with
  | .error e => .error e
  | .ok (.stop rest) => .ok (default, rest)
  | .ok (.item value) =>
    match field.read value with
    | .error e => .error e
    | .ok (a, rest) =>
      match skipBlanks rest with
      | [] => .error .truncated
      | c :: behind => if c = ']' then .ok (a, behind) else .error .malformed

/-- Reads up to the next member of an object, and the quotation mark that opens its name. -/
def nextMember (isFirst : Bool) (t : Text) : Except JsonFault Next :=
  match skipBlanks t with
  | [] => .error .truncated
  | c :: rest =>
    if c = '\x7d' then .ok (.stop rest)
    else if isFirst then
      if c = '"' then .ok (.item rest) else .error .malformed
    else if c = ',' then
      match skipBlanks rest with
      | [] => .error .truncated
      | d :: behind => if d = '"' then .ok (.item behind) else .error .malformed
    else .error .malformed

/-- Passes over a colon. -/
def skipColon (t : Text) : Except JsonFault Text :=
  match skipBlanks t with
  | [] => .error .truncated
  | c :: rest => if c = ':' then .ok rest else .error .malformed

/-- Reads the value of a member from behind its name: the field's value, which must not have been
    found before, or one that is passed over. -/
def readMember (name : Text) (field : JsonReader α) (found : Option α) (key t : Text) :
    Except JsonFault (Option α × Text) :=
  if key = name then
    if found.isSome then .error .mismatched
    else match skipColon t with
      | .error e => .error e
      | .ok t => (field.read t).map fun (a, rest) => (some a, rest)
  else match skipColon t with
    | .error e => .error e
    | .ok t => (skipValue t).map fun rest => (found, rest)

theorem nextMember_stop_length {isFirst : Bool} {t rest : Text}
    (h : nextMember isFirst t = .ok (.stop rest)) : rest.length < t.length := by
  unfold nextMember at h
  split at h
  · cases h
  · rename_i h_t
    have h_lt := length_of_skipBlanks h_t
    split at h
    · cases h
      exact h_lt
    split at h
    · split at h <;> cases h
    split at h
    · split at h
      · cases h
      · split at h <;> cases h
    · cases h

theorem nextMember_item_length {isFirst : Bool} {t member : Text}
    (h : nextMember isFirst t = .ok (.item member)) : member.length < t.length := by
  unfold nextMember at h
  split at h
  · cases h
  · rename_i h_t
    have h_lt := length_of_skipBlanks h_t
    split at h
    · cases h
    split at h
    · split at h <;> cases h
      exact h_lt
    split at h
    · split at h
      · cases h
      · rename_i h_rest
        have h_lt' := length_of_skipBlanks h_rest
        split at h <;> cases h
        omega
    · cases h

theorem skipColon_length {t rest : Text} (h : skipColon t = .ok rest) :
    rest.length < t.length := by
  unfold skipColon at h
  split at h
  · cases h
  · rename_i h_t
    have h_lt := length_of_skipBlanks h_t
    split at h <;> cases h
    exact h_lt

theorem readMember_length {name key t rest : Text} {field : JsonReader α} {found found' : Option α}
    (h : readMember name field found key t = .ok (found', rest)) : rest.length < t.length := by
  unfold readMember at h
  split at h
  · split at h
    · cases h
    · split at h
      · cases h
      · rename_i behind h_colon
        have h_lt := skipColon_length h_colon
        cases h_field : field.read behind with
        | error e => simp [h_field, Except.map] at h
        | ok r =>
          obtain ⟨value, left⟩ := r
          have h_lt' := field.shrinks h_field
          simp only [h_field, Except.map, Except.ok.injEq, Prod.mk.injEq] at h
          rw [← h.2]
          omega
  · split at h
    · cases h
    · rename_i behind h_colon
      have h_lt := skipColon_length h_colon
      cases h_skip : skipValue behind with
      | error e => simp [h_skip, Except.map] at h
      | ok r =>
        have h_le := skipWalk_length_le h_skip
        simp only [h_skip, Except.map, Except.ok.injEq, Prod.mk.injEq] at h
        rw [← h.2]
        omega

/-- Reads the members of an object up to its closing brace; `found` is the field's value so
    far. -/
def readMembers (name : Text) (field : JsonReader α) (isFirst : Bool) (found : Option α)
    (t : Text) : Except JsonFault (Option α × Text) :=
  match _h : nextMember isFirst t with
  | .error e => .error e
  | .ok (.stop rest) => .ok (found, rest)
  | .ok (.item member) =>
    match _h_key : readString member with
    | .error e => .error e
    | .ok (key, behind) =>
      match _h_value : readMember name field found key behind with
      | .error e => .error e
      | .ok (found, rest) => readMembers name field false found rest
termination_by t.length
decreasing_by
  have h_lt := nextMember_item_length _h
  have h_key := readString_length _h_key
  have h_value := readMember_length _h_value
  omega

theorem readMembers_length {name t rest : Text} {field : JsonReader α} {isFirst : Bool}
    {found found' : Option α}
    (h : readMembers name field isFirst found t = .ok (found', rest)) :
    rest.length < t.length := by
  fun_induction readMembers name field isFirst found t with
  | case1 => cases h
  | case2 _ _ _ _ h_next => cases h; exact nextMember_stop_length h_next
  | case3 => cases h
  | case4 => cases h
  | case5 _ _ _ _ h_next _ _ h_key _ _ h_value ih =>
    have h_lt := nextMember_item_length h_next
    have h_key' := readString_length h_key
    have h_value' := readMember_length h_value
    have h_ih := ih h
    omega

theorem readPositional_length {field : JsonReader α} {default a : α} {t rest : Text}
    (h : readPositional field default t = .ok (a, rest)) : rest.length < t.length := by
  unfold readPositional at h
  split at h
  · cases h
  · rename_i h_next
    cases h
    exact nextValue_stop_length h_next
  · rename_i h_next
    have h_le := nextValue_item_length_le h_next
    split at h
    · cases h
    · rename_i h_field
      have h_lt := field.shrinks h_field
      split at h
      · cases h
      · rename_i h_rest
        have h_lt' := length_of_skipBlanks h_rest
        split at h <;> cases h
        omega

/-- Reads a record. -/
def readRecord (name : Text) (field : JsonReader α) (default : α) (t : Text) :
    Except JsonFault (α × Text) :=
  match skipBlanks t with
  | [] => .error .truncated
  | c :: rest =>
    if c = '[' then readPositional field default rest
    else if c = '\x7b' then
      (readMembers name field true none rest).map fun (found, left) => (found.getD default, left)
    else .error (mismatch (c :: rest))

theorem readRecord_shrinks {name : Text} {field : JsonReader α} {default : α} {t rest : Text}
    {a : α} (h : readRecord name field default t = .ok (a, rest)) : rest.length < t.length := by
  unfold readRecord at h
  split at h
  · cases h
  · rename_i c behind h_t
    have h_lt := length_of_skipBlanks h_t
    split at h
    · have h_list := readPositional_length h
      omega
    split at h
    · cases h_members : readMembers name field true none behind with
      | error e => simp [h_members, Except.map] at h
      | ok r =>
        obtain ⟨value, left⟩ := r
        have h_lt' := readMembers_length h_members
        simp only [h_members, Except.map, Except.ok.injEq, Prod.mk.injEq] at h
        rw [← h.2]
        omega
    · cases h

/-- The reader of records with the one field `name`. -/
def record (name : Text) (field : JsonReader α) (default : α) : JsonReader α where
  read := readRecord name field default
  shrinks := readRecord_shrinks

/-! ## Whole texts -/

/-- Reads a text that holds one value and nothing else but blanks. -/
def readAll (reader : JsonReader α) (t : Text) : Except JsonFault α :=
  match reader.read t with
  | .error e => .error e
  | .ok (a, rest) => if skipBlanks rest = [] then .ok a else .error .malformed

end JsonReader

end PagedSearch
