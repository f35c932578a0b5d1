import TlsProxy.Lib.Text

/-! A reader of the usual format: fields separated by commas, records ended by a
line break, and fields in quotes, in which commas and line breaks stand for
themselves and a quote is written twice. -/
namespace Csv

/-- Where in a field the reader is: before it, in a bare one, within quotes, after a quote, after a return. -/
inductive Mode
  | start
  | bare
  | quoted
  | closed
  | ended

def special (c : Char) : Bool := c == ',' || c == '"' || c == '\r' || c == '\n'

/-- The records in a text, from a place within a record; `none` if it is not in the format. -/
def read : Mode → Text → List Text → Text → Option (List (List Text))
  | .start, _, [], [] => some []
  | .quoted, _, _, [] | .ended, _, _, [] => none
  | _, field, fields, [] => some [fields ++ [field]]
  | .quoted, field, fields, c :: rest =>
    if c = '"' then read .closed field fields rest else read .quoted (field ++ [c]) fields rest
  | .ended, field, fields, c :: rest =>
    if c = '\n' then (read .start [] [] rest).map ((fields ++ [field]) :: ·) else none
  | mode, field, fields, c :: rest =>
    if c = ',' then read .start [] (fields ++ [field]) rest
    else if c = '\n' then (read .start [] [] rest).map ((fields ++ [field]) :: ·)
    else if c = '\r' then read .ended field fields rest
    else match mode, c with
      | .start, '"' => read .quoted field fields rest
      | .closed, '"' => read .quoted (field ++ ['"']) fields rest
      | .closed, _ | _, '"' => none
      | _, c => read .bare (field ++ [c]) fields rest

def parse (t : Text) : Option (List (List Text)) := read .start [] [] t

/-- A value as a field, in quotes if it has a comma or a quote in it. -/
def encode (value : Text) : Text :=
  if value.contains ',' || value.contains '"' then
    '"' :: value.flatMap (fun c => if c = '"' then ['"', '"'] else [c]) ++ ['"']
  else value

def encodeLine (values : List Text) : Text := Text.join [','] (values.map encode) ++ ['\n']

section Reading

variable {field : Text} {fields : List Text} {rest : Text}

theorem read_bare {c : Char} (plain : special c = false) {mode : Mode} (outside : mode = .start ∨ mode = .bare) :
    read mode field fields (c :: rest) = read .bare (field ++ [c]) fields rest := by
  simp only [special, Bool.or_eq_false_iff, beq_eq_false_iff_ne, ne_eq] at plain
  obtain ⟨⟨⟨comma, quote⟩, back⟩, line⟩ := plain
  rcases outside with rfl | rfl <;> simp [read, comma, line, back, quote]

theorem read_plain {value : Text} (plain : ∀ c ∈ value, special c = false) {mode : Mode}
    (outside : mode = .start ∨ mode = .bare) {next : Char} (ends : next = ',' ∨ next = '\n') :
    read mode field fields (value ++ next :: rest) = read .bare (field ++ value) fields (next :: rest) := by
  induction value generalizing field mode with
  | nil =>
    rw [List.append_nil, List.nil_append]
    rcases outside with rfl | rfl <;> rcases ends with rfl | rfl <;> simp [read]
  | cons c value ih =>
    obtain ⟨first, later⟩ := List.forall_mem_cons.mp plain
    rw [List.cons_append, read_bare first outside, ih later (.inr rfl), List.append_assoc]
    rfl

theorem read_quoted (value : Text) :
    read .quoted field fields (value.flatMap (fun c => if c = '"' then ['"', '"'] else [c]) ++ '"' :: rest) =
      read .closed (field ++ value) fields rest := by
  induction value generalizing field with
  | nil => simp [read]
  | cons c value ih =>
    rw [List.flatMap_cons, List.append_assoc]
    by_cases quote : c = '"'
    · subst quote
      simp only [↓reduceIte, List.cons_append, List.nil_append]
      simp only [read, ↓reduceIte]
      simp [ih]
    · simp only [quote, ↓reduceIte, List.cons_append, List.nil_append]
      simp only [read, quote, ↓reduceIte]
      simp [ih]

theorem read_encode {value : Text} (oneLine : ∀ c ∈ value, c ≠ '\r' ∧ c ≠ '\n') {next : Char}
    (ends : next = ',' ∨ next = '\n') :
    ∃ mode, (mode = .bare ∨ mode = .closed) ∧
      read .start [] fields (encode value ++ next :: rest) = read mode value fields (next :: rest) := by
  unfold encode
  split
  · refine ⟨.closed, .inr rfl, ?_⟩
    have opened : ∀ text, read .start [] fields ('"' :: text) = read .quoted [] fields text := by simp [read]
    rw [List.append_assoc, List.cons_append, opened]
    exact read_quoted value
  · rename_i bare
    refine ⟨.bare, .inl rfl, read_plain ?_ (.inl rfl) ends⟩
    grind [special]

theorem read_encode_comma {value : Text} (oneLine : ∀ c ∈ value, c ≠ '\r' ∧ c ≠ '\n') :
    read .start [] fields (encode value ++ ',' :: rest) = read .start [] (fields ++ [value]) rest := by
  obtain ⟨mode, rfl | rfl, reads⟩ := @read_encode fields rest value oneLine ',' (.inl rfl) <;> simp [reads, read]

theorem read_encode_newline {value : Text} (oneLine : ∀ c ∈ value, c ≠ '\r' ∧ c ≠ '\n') :
    read .start [] fields (encode value ++ '\n' :: rest) =
      (read .start [] [] rest).map ((fields ++ [value]) :: ·) := by
  obtain ⟨mode, rfl | rfl, reads⟩ := @read_encode fields rest value oneLine '\n' (.inr rfl) <;> simp [reads, read]

theorem read_encodeLine {values : List Text} (filled : values ≠ [])
    (oneLine : ∀ value ∈ values, ∀ c ∈ value, c ≠ '\r' ∧ c ≠ '\n') :
    read .start [] fields (encodeLine values ++ rest) = (read .start [] [] rest).map ((fields ++ values) :: ·) := by
  induction values generalizing fields with
  | nil => exact absurd rfl filled
  | cons value values ih =>
    obtain ⟨first, later⟩ := List.forall_mem_cons.mp oneLine
    cases values with
    | nil =>
      have line : encodeLine [value] ++ rest = encode value ++ '\n' :: rest := by simp [encodeLine, Text.join]
      rw [line, read_encode_newline first]
    | cons second others =>
      have line : encodeLine (value :: second :: others) ++ rest =
          encode value ++ ',' :: (encodeLine (second :: others) ++ rest) := by
        simp [encodeLine, Text.join, List.intercalate]
      rw [line, read_encode_comma first, ih (List.cons_ne_nil _ _) later, List.append_assoc]
      rfl

end Reading

theorem parse_flatMap_encodeLine {records : List (List Text)} (filled : ∀ values ∈ records, values ≠ [])
    (oneLine : ∀ values ∈ records, ∀ value ∈ values, ∀ c ∈ value, c ≠ '\r' ∧ c ≠ '\n') :
    parse (records.flatMap encodeLine) = some records := by
  unfold parse
  induction records with
  | nil => rfl
  | cons values records ih =>
    obtain ⟨firstFilled, laterFilled⟩ := List.forall_mem_cons.mp filled
    obtain ⟨first, later⟩ := List.forall_mem_cons.mp oneLine
    rw [List.flatMap_cons, read_encodeLine firstFilled first, ih laterFilled later]
    rfl

end Csv
