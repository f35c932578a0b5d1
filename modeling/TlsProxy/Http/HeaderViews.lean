import TlsProxy.Http.Fields

/-! `parse_head` and `body_framing` read the lines that open an entry, and skip
continuation lines. `header_value` searches every line after the request line. -/
namespace TlsProxy.Http
open Text

theorem stripCr_eq_nil {line : Text} (empty : stripCr line = []) : line = [] ∨ line = ['\r'] := by
  unfold stripCr at empty
  cases found : stripSuffix ['\r'] line with
  | none =>
    rw [found] at empty
    exact .inl empty
  | some rest =>
    rw [found, Option.getD_some] at empty
    subst empty
    exact .inr (stripSuffix_eq_some.mp found)

theorem findHeadEnd_skip {bytes : List UInt8} (clean : lf ∉ bytes) (rest : List UInt8) :
    findHeadEnd (bytes ++ rest) = (findHeadEnd rest).map (· + bytes.length) := by
  induction bytes with
  | nil => simp
  | cons b bytes ih =>
    simp only [List.mem_cons, not_or] at clean
    have other : b ≠ lf := fun same => clean.1 same.symm
    simp only [List.cons_append, findHeadEnd, other, false_and, ↓reduceIte, ih clean.2, Option.map_map]
    rfl

theorem findHeadEnd_ne_zero (bytes : List UInt8) : findHeadEnd bytes ≠ some 0 := by
  intro found
  cases bytes with
  | nil => cases found
  | cons b rest =>
    simp only [findHeadEnd] at found
    split at found
    · cases found
    · split at found
      · cases found
      · simp at found

theorem splitOn_two {c : Char} {t first second : Text} {parts : List Text}
    (split : t.splitOn c = first :: second :: parts) : ∃ rest, t = first ++ c :: rest := by
  have whole : [c].intercalate (t.splitOn c) = t := List.intercalate_splitOn c
  rw [split] at whole
  exact ⟨[c].intercalate (second :: parts), by rw [← whole]; simp [List.intercalate]⟩

theorem findHeadEnd_newline {rest : Text} {body : List UInt8}
    (ends : findHeadEnd (Utf8.encode ('\n' :: rest) ++ body) = some (Utf8.encode ('\n' :: rest)).length) :
    rest = ['\n'] ∨ rest = ['\r', '\n'] ∨
      findHeadEnd (Utf8.encode rest ++ body) = some (Utf8.encode rest).length ∧
        ∀ more, rest ≠ '\n' :: more ∧ rest ≠ '\r' :: '\n' :: more := by
  have newline : String.utf8EncodeChar '\n' = [lf] := by decide
  have return_ : String.utf8EncodeChar '\r' = [cr] := by decide
  rw [Utf8.encode_cons, newline, List.singleton_append, List.cons_append, findHeadEnd,
    List.length_cons] at ends
  split at ends
  · rename_i bare
    have one : (Utf8.encode rest).length = 1 := by grind
    obtain ⟨b, single⟩ := List.length_eq_one_iff.mp one
    rw [single] at bare
    have isLf : b = lf := by simpa using bare.2
    exact .inl (Utf8.encode_inj (by rw [single, isLf]; decide))
  · rename_i notBare
    split at ends
    · rename_i blank
      have two : (Utf8.encode rest).length = 2 := by grind
      obtain ⟨a, b, pair⟩ := List.length_eq_two.mp two
      rw [pair] at blank
      have isCr : a = cr := by simpa using blank.2.1
      have isLf : b = lf := by simpa using blank.2.2
      exact .inr (.inl (Utf8.encode_inj (by rw [pair, isCr, isLf]; decide)))
    · rename_i notBlank
      refine .inr (.inr ⟨by simpa using ends, fun more => ⟨?_, ?_⟩⟩)
      · grind [Utf8.encode_cons]
      · grind [Utf8.encode_cons]

theorem splitOn_of_findHeadEnd {head : Text} {body : List UInt8}
    (ends : findHeadEnd (Utf8.encode head ++ body) = some (Utf8.encode head).length) :
    ∃ first parts blank, head.splitOn '\n' = first :: (parts ++ [blank, []]) ∧ stripCr blank = [] ∧
      ∀ part ∈ parts, stripCr part ≠ [] := by
  induction head with
  | nil => exact absurd ends (findHeadEnd_ne_zero body)
  | cons c rest ih =>
    by_cases isNewline : c = '\n'
    · subst isNewline
      rcases findHeadEnd_newline ends with rfl | rfl | ⟨later, open_⟩
      · exact ⟨[], [], [], by decide, by decide, by simp⟩
      · exact ⟨[], [], ['\r'], by decide, by decide, by simp⟩
      · obtain ⟨first, parts, blank, split, isBlank, filled⟩ := ih later
        refine ⟨[], first :: parts, blank, ?_, isBlank, ?_⟩
        · grind [List.splitOn_cons_eq_if_modifyHead]
        · intro part member
          rcases List.mem_cons.mp member with rfl | inParts
          · -- an empty line here would be the blank line that ends the head
            intro empty
            obtain ⟨second, others, tail⟩ : ∃ second others, parts ++ [blank, []] = second :: others :=
              List.exists_cons_of_ne_nil (by simp)
            grind [splitOn_two, stripCr_eq_nil]
          · exact filled part inParts
    · have clean : lf ∉ String.utf8EncodeChar c := by
        intro member
        have inText : lf ∈ Utf8.encode [c] := by simpa [Utf8.encode] using member
        have isChar := (Utf8.ascii_mem_encode (c := '\n') (by decide) [c]).mp inText
        grind
      rw [Utf8.encode_cons, List.append_assoc, findHeadEnd_skip clean, List.length_append] at ends
      obtain ⟨n, found, total⟩ := Option.map_eq_some_iff.mp ends
      grind [List.splitOn_cons_eq_if_modifyHead, List.modifyHead_cons]

def HttpHead.headerLines (h : HttpHead) : List Text :=
  (headLines h.head).tail.takeWhile fun line => !line.isEmpty

/-- The fields whose values the loops of `parse_head` and `body_framing` read: those of the entries they
fold over (`Folded.scan_eq_foldlM`). -/
def HttpHead.parsedFields (h : HttpHead) : List (Text × Text) :=
  (entriesOf (headLines h.head).tail).filterMap fun e => field e.line

/-- The fields `header_value` searches. -/
def HttpHead.visibleFields (h : HttpHead) : List (Text × Text) := ((lines h.head).drop 1).filterMap field

def HttpHead.continuations (h : HttpHead) : List Text := h.headerLines.filter isFold

def firstValue (name : Text) (fields : List (Text × Text)) : Option Text :=
  (fields.find? fun f => f.1 == toAsciiLowercase name).map Prod.snd

def asksUpgrade (fields : List (Text × Text)) : Bool :=
  ((firstValue "connection".toList fields).any fun value =>
    (commaTokens value).any fun token => eqIgnoreAsciiCase token "upgrade".toList) &&
  (firstValue "upgrade".toList fields).isSome

theorem findSome_eq_firstValue (name : Text) (lines : List Text) :
    (lines.findSome? fun line =>
      match splitOnce ':' line with
      | some (key, value) => if eqIgnoreAsciiCase (trim key) name then some (trim value) else none
      | none => none) = firstValue name (lines.filterMap field) := by
  induction lines with
  | nil => rfl
  | cons line rest ih =>
    rw [List.findSome?_cons, ih]
    cases found : splitOnce ':' line with
    | none => grind [field]
    | some parts =>
      have named : field line = some (toAsciiLowercase (trim parts.1), trim parts.2) := by
        simp [field, found]
      rw [List.filterMap_cons_some named]
      by_cases same : eqIgnoreAsciiCase (trim parts.1) name = true
      · have key : toAsciiLowercase (trim parts.1) = toAsciiLowercase name := eqIgnoreAsciiCase_iff.mp same
        simp [same, firstValue, key]
      · have key : toAsciiLowercase (trim parts.1) ≠ toAsciiLowercase name :=
          fun equal => same (eqIgnoreAsciiCase_iff.mpr equal)
        simp [same, firstValue, key]

theorem headerValue_eq_firstValue (h : HttpHead) (name : Text) :
    h.headerValue name = firstValue name h.visibleFields :=
  findSome_eq_firstValue name _

theorem field_isSome_iff {line : Text} : (field line).isSome ↔ ':' ∈ line := by
  simp [field, Option.isSome_iff_ne_none, splitOnce_eq_none]

theorem field_stripCr (line : Text) : field (stripCr line) = field line := by
  rcases stripCr_cases line with same | ended
  · rw [← same]
  · conv_rhs => rw [ended]
    generalize stripCr line = rest
    cases found : splitOnce ':' rest with
    | none =>
      have absent : splitOnce ':' (rest ++ ['\r']) = none := by
        rw [splitOnce_eq_none, List.mem_append, not_or]
        exact ⟨splitOnce_eq_none.mp found, by decide⟩
      simp [field, found, absent]
    | some parts =>
      obtain ⟨whole, first⟩ := splitOnce_eq_some.mp found
      have longer : splitOnce ':' (rest ++ ['\r']) = some (parts.1, parts.2 ++ ['\r']) :=
        splitOnce_eq_some.mpr ⟨by rw [whole]; simp, first⟩
      grind [field, trim_append_whitespace, isWhitespace]

theorem visibleFields_eq_tail (h : HttpHead) : h.visibleFields = (headLines h.head).tail.filterMap field := by
  rw [HttpHead.visibleFields, lines, headLines]
  rcases List.eq_nil_or_concat' (h.head.splitOn '\n') with none_ | ⟨front, last, whole⟩
  · rw [none_]
    rfl
  · rw [whole, List.dropLast_concat, List.getLast?_concat, Option.toList_some]
    cases front with
    | nil => cases last <;> rfl
    | cons first others =>
      have end_ : ([last].filter fun last => !last.isEmpty).filterMap field = [stripCr last].filterMap field := by
        rw [List.filterMap_cons, field_stripCr, List.filterMap_nil]
        cases last with
        | nil => rfl
        | cons c rest => grind
      grind

theorem visibleFields_eq {buffered : List UInt8} {headLen : Nat} {h : HttpHead}
    (found : findHeadEnd buffered = some headLen)
    (accepted : parseHead buffered headLen (findHeadEnd_le found) = .ok h) :
    h.visibleFields = h.headerLines.filterMap field := by
  obtain ⟨same, length, -, -⟩ := parseHead_ok accepted
  have ends : findHeadEnd (Utf8.encode h.head ++ h.bodyPrefix) = some (Utf8.encode h.head).length := by
    rw [← h.buffered_eq, h.encode_head_length, same, length]
    exact found
  obtain ⟨first, parts, blank, split, isBlank, filled⟩ := splitOn_of_findHeadEnd ends
  have tail : (headLines h.head).tail = parts.map stripCr ++ [[], []] := by
    have empty : stripCr [] = [] := by decide
    simp [headLines, split, isBlank, empty]
  have read : h.headerLines = parts.map stripCr := by
    rw [HttpHead.headerLines, tail, List.takeWhile_append_of_pos]
    · simp
    · grind
  rw [visibleFields_eq_tail, tail, read, List.filterMap_append]
  exact List.append_nil _

theorem parsedFields_eq (h : HttpHead) :
    h.parsedFields = (h.headerLines.filter fun line => !isFold line).filterMap field := by
  have opening := Folded.group_entries_line List.isEmpty isFold (headLines h.head).tail
  rw [HttpHead.headerLines, ← opening, List.filterMap_map]
  rfl

/-- Two views of one block agree exactly when no continuation line looks like a field. -/
theorem filterMap_field_eq_iff (lines : List Text) :
    lines.filterMap field = (lines.filter fun line => !isFold line).filterMap field ↔
      ∀ line ∈ lines.filter isFold, ':' ∉ line := by
  induction lines with
  | nil => simp
  | cons line rest ih =>
    by_cases folded : isFold line = true
    · simp only [folded, Bool.not_true, Bool.false_eq_true, not_false_eq_true, List.filter_cons_of_neg,
        List.filter_cons_of_pos, List.forall_mem_cons]
      cases named : field line with
      | none => grind [field_isSome_iff]
      | some f =>
        have colon : ':' ∈ line := by
          rw [← field_isSome_iff, named]
          rfl
        have shorter : ((rest.filter fun line => !isFold line).filterMap field).length ≤
            (rest.filterMap field).length := (List.filter_sublist.filterMap field).length_le
        have different : f :: rest.filterMap field ≠ (rest.filter fun line => !isFold line).filterMap field := by
          grind
        grind
    · grind

/-- `header_value` and `upgrade_requested` answer from the fields they can see, and these are the fields
`parse_head` and `body_framing` read exactly when no continuation line contains a colon. -/
theorem headerFields_one_view {buffered : List UInt8} {headLen : Nat} {h : HttpHead}
    (found : findHeadEnd buffered = some headLen)
    (accepted : parseHead buffered headLen (findHeadEnd_le found) = .ok h) :
    (∀ name, h.headerValue name = firstValue name h.visibleFields) ∧
    h.upgradeRequested = asksUpgrade h.visibleFields ∧
    (h.visibleFields = h.parsedFields ↔ ∀ line ∈ h.continuations, ':' ∉ line) := by
  refine ⟨headerValue_eq_firstValue h, ?_, ?_⟩
  · simp only [HttpHead.upgradeRequested, asksUpgrade, headerValue_eq_firstValue]
  · rw [visibleFields_eq found accepted, parsedFields_eq]
    exact filterMap_field_eq_iff h.headerLines

/-- A folded value without a colon keeps the views together. -/
theorem headerFields_one_view_folded :
    let head := "GET / HTTP/1.1\r\nHost: a\r\nX-A: b,\r\n\tc\r\nConnection: close\r\n\r\n".toList
    let facts : HeadFacts := ⟨"GET".toList, "/".toList, "a".toList, none, "a".toList, none, []⟩
    let h := HttpHead.ofText facts false head []
    h.continuations = ["\tc".toList] ∧ h.visibleFields = h.parsedFields ∧ h.upgradeRequested = false := by
  intro head facts h
  have parsed : parseHeadText head = .ok facts := by decide +kernel
  have accepted := parseHead_encode head [] (by simp)
  rw [parsed] at accepted
  have found : findHeadEnd (Utf8.encode head ++ []) = some (Utf8.encode head).length := by decide +kernel
  have folds : h.continuations = ["\tc".toList] := by decide +kernel
  obtain ⟨-, upgrade, agree⟩ := headerFields_one_view (h := h) found accepted
  refine ⟨folds, agree.mpr ?_, upgrade.trans (by decide +kernel)⟩
  rw [folds]
  decide

/-- Continuation lines of `X-A` that `header_value` takes for headers of their own. -/
def foldedUpgrade : Text :=
  "GET / HTTP/1.1\r\nHost: a\r\nX-A: b\r\n Connection: upgrade\r\n Upgrade: websocket\r\n\r\n".toList

def foldedUpgradeHead : HttpHead :=
  HttpHead.ofText ⟨"GET".toList, "/".toList, "a".toList, none, "a".toList, none, []⟩ false foldedUpgrade []

theorem foldedUpgrade_seen :
    ∃ found : findHeadEnd (Utf8.encode foldedUpgrade ++ []) = some (Utf8.encode foldedUpgrade).length,
      parseHead (Utf8.encode foldedUpgrade ++ []) _ (findHeadEnd_le found) = .ok foldedUpgradeHead ∧
      foldedUpgradeHead.bodyFraming = .ok (.length 0) ∧
      foldedUpgradeHead.parsedFields = [(hostHeader, "a".toList), ("x-a".toList, "b".toList)] ∧
      foldedUpgradeHead.headerValue "connection".toList = some "upgrade".toList ∧
      foldedUpgradeHead.upgradeRequested = true ∧
      foldedUpgradeHead.visibleFields ≠ foldedUpgradeHead.parsedFields := by
  -- a list of characters is evaluated much faster than the literal
  have text : foldedUpgrade = _ := String.toList_ofList
  have parsed : parseHeadText foldedUpgrade = .ok foldedUpgradeHead.toHeadFacts := by
    rw [text]
    decide +kernel
  have accepted := parseHead_encode foldedUpgrade [] (by simp)
  rw [parsed] at accepted
  refine ⟨by rw [text]; decide +kernel, accepted, ?_⟩
  unfold foldedUpgradeHead
  rw [text]
  exact ⟨by decide +kernel, by decide +kernel, by decide +kernel, by decide +kernel, by decide +kernel⟩

end TlsProxy.Http
