import TlsProxy.Http.Head

/-! The line loops of `parse_head` and `body_framing` read the same entries, a
header line with its continuation lines. -/
namespace TlsProxy.Http
open Text

abbrev Entry := Folded.Entry (α := Text) List.isEmpty isFold

def field (line : Text) : Option (Text × Text) :=
  (splitOnce ':' line).map fun parts => (toAsciiLowercase (trim parts.1), trim parts.2)

def fieldValues (name : Text) (lines : List Text) : List Text :=
  lines.filterMap fun line => (field line).bind fun f => if f.1 = name then some f.2 else none

@[simp] theorem fieldValues_nil (name : Text) : fieldValues name [] = [] := rfl

@[simp] theorem fieldValues_append (name : Text) (a b : List Text) :
    fieldValues name (a ++ b) = fieldValues name a ++ fieldValues name b := by
  simp only [fieldValues, List.filterMap_append]

theorem fieldValues_cons {name key value line : Text} (h : field line = some (key, value))
    (lines : List Text) :
    fieldValues name (line :: lines) =
      (if key = name then [value] else []) ++ fieldValues name lines := by grind [fieldValues]

theorem field_eq_some {line key value : Text} (h : field line = some (key, value)) :
    ∃ name rest, splitOnce ':' line = some (name, rest) ∧ toAsciiLowercase (trim name) = key ∧
      trim rest = value := by
  obtain ⟨⟨name, rest⟩, found, same⟩ := Option.map_eq_some_iff.mp h
  grind

theorem field_eq_none {line : Text} (h : field line = none) : splitOnce ':' line = none :=
  Option.map_eq_none_iff.mp h

theorem headerLine_unnamed {line : Text} (h : field line = none) (s : HeaderScan) :
    headerLine s line = .error "malformed HTTP header line".toList := by
  simp only [headerLine, field_eq_none h]

theorem headerLine_host {line value : Text} (h : field line = some (hostHeader, value))
    (s : HeaderScan) :
    headerLine s line =
      if s.hostValue.isSome then .error "HTTP request contains multiple Host headers".toList
      else .ok { s with lastWasHost := true, hostValue := some value } := by
  obtain ⟨name, rest, found, key, rfl⟩ := field_eq_some h
  have host : eqIgnoreAsciiCase (trim name) hostHeader = true :=
    eqIgnoreAsciiCase_iff.mpr (key.trans (by decide))
  simp only [headerLine, found, host, ↓reduceIte]

theorem headerLine_other {line key value : Text} (h : field line = some (key, value))
    (other : key ≠ hostHeader) (s : HeaderScan) :
    ∃ next, headerLine s line = .ok next ∧ next.hostValue = s.hostValue ∧ next.lastWasHost = false := by
  obtain ⟨name, rest, found, rfl, rfl⟩ := field_eq_some h
  have host : eqIgnoreAsciiCase (trim name) hostHeader = false := by
    rw [Bool.eq_false_iff]
    intro same
    exact other ((eqIgnoreAsciiCase_iff.mp same).trans (by decide))
  simp only [headerLine, found, host, Bool.false_eq_true, ↓reduceIte]
  split
  · exact ⟨_, rfl, rfl, rfl⟩
  · split <;> exact ⟨_, rfl, rfl, rfl⟩

theorem option_toList_inj {α : Type*} {a b : Option α} : a.toList = b.toList ↔ a = b := by
  cases a <;> cases b <;> simp

/-- The loop of `parse_head`: every entry has a name, the Host entry is not folded and occurs once. -/
theorem parse_entries_iff (s : HeaderScan) (entries : List Entry) (reject : Text) (v : Option Text) :
    (∃ last, entries.foldlM (Folded.scanEntry headerLine HeaderScan.lastWasHost reject) s = .ok last ∧
      last.hostValue = v) ↔
    (∀ e ∈ entries, ∃ key value, field e.line = some (key, value) ∧
      (key = hostHeader → e.folds = [])) ∧
    s.hostValue.toList ++ fieldValues hostHeader (entries.map Folded.Entry.line) = v.toList := by
  induction entries generalizing s with
  | nil =>
    simp only [List.foldlM_nil, List.not_mem_nil, false_implies, implies_true, true_and,
      List.map_nil, fieldValues_nil, List.append_nil]
    constructor
    · rintro ⟨last, whole, rfl⟩
      cases whole
      rfl
    · intro same
      exact ⟨s, rfl, option_toList_inj.mp same⟩
  | cons e rest ih =>
    simp only [List.foldlM_cons, List.forall_mem_cons, List.map_cons, Folded.scanEntry, bind_assoc]
    cases found : field e.line with
    | none =>
      simp [headerLine_unnamed found, Bind.bind, Except.bind]
    | some parts =>
      obtain ⟨key, value⟩ := parts
      rw [fieldValues_cons found]
      by_cases host : key = hostHeader
      · subst host
        rw [headerLine_host found]
        cases occupied : s.hostValue with
        | some first =>
          constructor
          · simp [Bind.bind, Except.bind]
          · rintro ⟨-, same⟩
            cases v <;> simp at same
        | none =>
          by_cases plain : e.folds = []
          · have rule := ih { s with lastWasHost := true, hostValue := some value }
            simpa [plain, Bind.bind, Except.bind] using rule
          · simp [plain, Bind.bind, Except.bind]
      · obtain ⟨next, line, same, flag⟩ := headerLine_other found host s
        have rule := ih next
        simpa [line, same, flag, host, Bind.bind, Except.bind] using rule

theorem framingLine_contentLength {line value : Text}
    (h : field line = some (contentLengthHeader, value)) (s : FramingScan) :
    framingLine s line =
      match parseU64 value with
      | none => .error ("invalid Content-Length `".toList ++ value ++ "`".toList)
      | some parsed =>
        if s.contentLength.isSome then .error "duplicate Content-Length headers".toList
        else .ok { s with lastWasFraming := true, contentLength := some parsed } := by
  obtain ⟨name, rest, found, key, rfl⟩ := field_eq_some h
  unfold framingLine
  rw [found]
  cases parsed : parseU64 (trim rest) <;> simp only [key, ↓reduceIte, parsed]

theorem framingLine_transferEncoding {line value : Text}
    (h : field line = some (transferEncodingHeader, value)) (s : FramingScan) :
    framingLine s line =
      if s.transferEncoding.isSome then
        .error "multiple Transfer-Encoding headers are not supported".toList
      else .ok { s with lastWasFraming := true, transferEncoding := some (toAsciiLowercase value) } := by
  obtain ⟨name, rest, found, key, rfl⟩ := field_eq_some h
  have other : transferEncodingHeader ≠ contentLengthHeader := by decide
  simp only [framingLine, found, key, other, ↓reduceIte]

theorem framingLine_other {line key value : Text} (h : field line = some (key, value))
    (noLength : key ≠ contentLengthHeader) (noEncoding : key ≠ transferEncodingHeader)
    (s : FramingScan) : framingLine s line = .ok { s with lastWasFraming := false } := by
  obtain ⟨name, rest, found, rfl, rfl⟩ := field_eq_some h
  simp only [framingLine, found, noLength, noEncoding, ↓reduceIte]

/-- The loop of `body_framing` over named entries: framing entries are not folded, every
Content-Length parses, and each of the two fields occurs at most once. -/
theorem framing_entries_iff (s : FramingScan) (entries : List Entry) (reject : Text)
    (named : ∀ e ∈ entries, (field e.line).isSome) (c : Option Nat) (t : Option Text) :
    (∃ last, entries.foldlM (Folded.scanEntry framingLine FramingScan.lastWasFraming reject) s = .ok last ∧
      last.contentLength = c ∧ last.transferEncoding = t) ↔
    (∀ e ∈ entries, ∀ key value, field e.line = some (key, value) →
      key = contentLengthHeader ∨ key = transferEncodingHeader → e.folds = []) ∧
    s.contentLength.toList.map some ++
      (fieldValues contentLengthHeader (entries.map Folded.Entry.line)).map parseU64 = c.toList.map some ∧
    s.transferEncoding.toList ++
      (fieldValues transferEncodingHeader (entries.map Folded.Entry.line)).map toAsciiLowercase =
        t.toList := by
  induction entries generalizing s with
  | nil =>
    simp only [List.foldlM_nil, List.not_mem_nil, false_implies, implies_true, true_and,
      List.map_nil, fieldValues_nil, List.append_nil]
    constructor
    · rintro ⟨last, whole, rfl, rfl⟩
      cases whole
      exact ⟨rfl, rfl⟩
    · rintro ⟨sameLength, sameEncoding⟩
      refine ⟨s, rfl, ?_, option_toList_inj.mp sameEncoding⟩
      exact option_toList_inj.mp (List.map_injective_iff.mpr (fun _ _ => Option.some.inj) sameLength)
  | cons e rest ih =>
    have inner := fun s => ih s fun e member => named e (List.mem_cons_of_mem _ member)
    obtain ⟨⟨key, value⟩, found⟩ := Option.isSome_iff_exists.mp (named e List.mem_cons_self)
    have distinct : contentLengthHeader ≠ transferEncodingHeader := by decide
    simp only [List.foldlM_cons, List.forall_mem_cons, List.map_cons, Folded.scanEntry, bind_assoc,
      fieldValues_cons found]
    by_cases isLength : key = contentLengthHeader
    · subst isLength
      rw [framingLine_contentLength found]
      cases parsed : parseU64 value with
      | none =>
        constructor
        · simp [Bind.bind, Except.bind]
        · rintro ⟨-, same, -⟩
          cases c <;> cases occupied : s.contentLength <;> simp [parsed, occupied] at same
      | some n =>
        cases occupied : s.contentLength with
        | some first =>
          constructor
          · simp [Bind.bind, Except.bind]
          · rintro ⟨-, same, -⟩
            cases c <;> simp at same
        | none =>
          by_cases plain : e.folds = []
          · have rule := inner { s with lastWasFraming := true, contentLength := some n }
            simpa [plain, found, parsed, distinct, Bind.bind, Except.bind] using rule
          · simp [plain, found, distinct, Bind.bind, Except.bind]
    · by_cases isEncoding : key = transferEncodingHeader
      · subst isEncoding
        rw [framingLine_transferEncoding found]
        cases occupied : s.transferEncoding with
        | some first =>
          constructor
          · simp [Bind.bind, Except.bind]
          · rintro ⟨-, -, same⟩
            cases t <;> simp at same
        | none =>
          by_cases plain : e.folds = []
          · have rule := inner { s with
              lastWasFraming := true, transferEncoding := some (toAsciiLowercase value) }
            simpa [plain, found, isLength, Bind.bind, Except.bind] using rule
          · simp [plain, found, Bind.bind, Except.bind]
      · have rule := inner { s with lastWasFraming := false }
        rw [framingLine_other found isLength isEncoding]
        simpa [found, isLength, isEncoding, Bind.bind, Except.bind] using rule

def entriesOf (lines : List Text) : List Entry := (Folded.group List.isEmpty isFold lines).entries

def NamedEntries (entries : List Entry) : Prop :=
  ∀ e ∈ entries, ∃ key value, field e.line = some (key, value) ∧ (key = hostHeader → e.folds = [])

def FramingUnfolded (entries : List Entry) : Prop :=
  ∀ e ∈ entries, ∀ key value, field e.line = some (key, value) →
    key = contentLengthHeader ∨ key = transferEncodingHeader → e.folds = []

def entryValues (name : Text) (entries : List Entry) : List Text :=
  fieldValues name (entries.map Folded.Entry.line)

theorem entryValues_append (name : Text) (a b : List Entry) :
    entryValues name (a ++ b) = entryValues name a ++ entryValues name b := by grind [entryValues, fieldValues_append]

theorem parseHeaderLines_iff (lines : List Text) (v : Option Text) :
    (∃ last, parseHeaderLines lines = .ok last ∧ last.hostValue = v) ↔
      NamedEntries (entriesOf lines) ∧ entryValues hostHeader (entriesOf lines) = v.toList := by
  have rule := parse_entries_iff {} (entriesOf lines) "folded Host header is not supported".toList v
  simpa only [parseHeaderLines, Folded.scan_eq_foldlM, Bool.false_eq_true, false_and, ↓reduceIte,
    Option.toList_none, List.nil_append, entriesOf, NamedEntries, entryValues] using rule

theorem scanFraming_iff {lines : List Text} (named : NamedEntries (entriesOf lines))
    (c : Option Nat) (t : Option Text) :
    (∃ last, scanFraming lines = .ok last ∧ last.contentLength = c ∧ last.transferEncoding = t) ↔
      FramingUnfolded (entriesOf lines) ∧
      (entryValues contentLengthHeader (entriesOf lines)).map parseU64 = c.toList.map some ∧
      (entryValues transferEncodingHeader (entriesOf lines)).map toAsciiLowercase = t.toList := by
  have isNamed : ∀ e ∈ entriesOf lines, (field e.line).isSome := by
    intro e member
    obtain ⟨key, value, found, -⟩ := named e member
    rw [found]
    rfl
  have rule := framing_entries_iff {} (entriesOf lines)
    "folded body-framing headers are not supported".toList isNamed c t
  simpa only [scanFraming, Folded.scan_eq_foldlM, Bool.false_eq_true, false_and, ↓reduceIte,
    Option.toList_none, List.map_nil, List.nil_append, entriesOf, FramingUnfolded, entryValues] using rule

theorem parseHeadText_eq_ok {head : Text} {facts : HeadFacts} :
    parseHeadText head = .ok facts ↔ ∃ scan, validateRequestLine (requestLine head) = .ok (facts.method, facts.target) ∧
      parseHeaderLines (headLines head).tail = .ok scan ∧ scan.hostValue = some facts.hostRaw ∧
      splitHostPort facts.hostRaw = .ok (facts.host, facts.port) ∧ facts.authorization = scan.authorization ∧
      facts.loopTokens = scan.loopTokens := by
  constructor
  · intro accepted
    unfold parseHeadText at accepted
    cases request : validateRequestLine (requestLine head) with
    | error e => simp [request, Bind.bind, Except.bind] at accepted
    | ok parts =>
      cases scanned : parseHeaderLines (headLines head).tail with
      | error e => simp [request, scanned, Bind.bind, Except.bind] at accepted
      | ok scan =>
        cases value : scan.hostValue with
        | none => simp [request, scanned, value, Bind.bind, Except.bind] at accepted
        | some raw =>
          cases split : splitHostPort raw with
          | error e => simp [request, scanned, value, split, Bind.bind, Except.bind] at accepted
          | ok hostPort =>
            simp only [request, scanned, value, split, Bind.bind, Except.bind, Pure.pure, Except.pure,
              Except.ok.injEq] at accepted
            grind
  · rintro ⟨scan, request, scanned, value, split, credentials, tokens⟩
    simp only [parseHeadText, request, scanned, value, split, Bind.bind, Except.bind, Pure.pure, Except.pure,
      ← credentials, ← tokens]

theorem parseHeadText_hostPort {head : Text} {facts : HeadFacts} (accepted : parseHeadText head = .ok facts) :
    splitHostPort facts.hostRaw = .ok (facts.host, facts.port) := by
  obtain ⟨-, -, -, -, split, -⟩ := parseHeadText_eq_ok.mp accepted
  exact split

theorem parseHeadText_request {head : Text} {facts : HeadFacts} (accepted : parseHeadText head = .ok facts) :
    validateRequestLine (requestLine head) = .ok (facts.method, facts.target) := by
  obtain ⟨-, request, -⟩ := parseHeadText_eq_ok.mp accepted
  exact request

theorem parseHeadText_firstLine {head : Text} {facts : HeadFacts} (accepted : parseHeadText head = .ok facts) :
    ∃ line rest version, splitOnce '\n' head = some (line, rest) ∧
      splitAsciiWhitespace line = [facts.method, facts.target, version] ∧
      (stripPrefix "HTTP/1.".toList version).isSome ∧ facts.target.head? = some '/' := by
  obtain ⟨scan, request, scanned, value, -⟩ := parseHeadText_eq_ok.mp accepted
  obtain ⟨version, words, versioned, origin⟩ := validateRequestLine_eq_ok.mp request
  cases found : splitOnce '\n' head with
  | none =>
    -- a head of one line has no `Host` field
    rw [headLines, List.splitOn_eq_singleton (splitOnce_eq_none.mp found), List.map_singleton, List.tail_cons] at scanned
    cases scanned
    cases value
  | some parts =>
    have split : splitOnce '\n' head = some (parts.1, parts.2) := found
    obtain ⟨whole, clean⟩ := splitOnce_eq_some.mp split
    grind [requestLine, headLines_append_newline, splitAsciiWhitespace_stripCr]

theorem parseHeadText_iff (head : Text) (hostRaw : Text) :
    (∃ facts, parseHeadText head = .ok facts ∧ facts.hostRaw = hostRaw) ↔
      (validateRequestLine (requestLine head)).isOk ∧ (splitHostPort hostRaw).isOk ∧
      NamedEntries (entriesOf (headLines head).tail) ∧
      entryValues hostHeader (entriesOf (headLines head).tail) = [hostRaw] := by
  have rule := parseHeaderLines_iff (headLines head).tail (some hostRaw)
  rw [Option.toList_some] at rule
  rw [← rule]
  constructor
  · rintro ⟨facts, accepted, rfl⟩
    obtain ⟨scan, request, scanned, value, split, -⟩ := parseHeadText_eq_ok.mp accepted
    exact ⟨by rw [request]; rfl, by rw [split]; rfl, scan, scanned, value⟩
  · rintro ⟨request, split, scan, scanned, value⟩
    cases requested : validateRequestLine (requestLine head) with
    | error e =>
      rw [requested] at request
      cases request
    | ok parts =>
      cases named : splitHostPort hostRaw with
      | error e =>
        rw [named] at split
        cases split
      | ok hostPort =>
        refine ⟨⟨parts.1, parts.2, hostPort.1, hostPort.2, hostRaw, scan.authorization, scan.loopTokens⟩, ?_, rfl⟩
        exact parseHeadText_eq_ok.mpr ⟨scan, requested, scanned, value, named, rfl, rfl⟩

def resolveFraming (c : Option Nat) (t : Option Text) : Except Text BodyFraming :=
  FramingScan.framing { contentLength := c, transferEncoding := t }

theorem framing_eq_resolveFraming (s : FramingScan) :
    s.framing = resolveFraming s.contentLength s.transferEncoding := rfl

theorem framingOfText_iff {head : Text} (named : NamedEntries (entriesOf (headLines head).tail))
    (f : BodyFraming) :
    framingOfText head = .ok f ↔ ∃ c t, resolveFraming c t = .ok f ∧
      FramingUnfolded (entriesOf (headLines head).tail) ∧
      (entryValues contentLengthHeader (entriesOf (headLines head).tail)).map parseU64 =
        c.toList.map some ∧
      (entryValues transferEncodingHeader (entriesOf (headLines head).tail)).map toAsciiLowercase =
        t.toList := by
  constructor
  · intro framed
    cases scanned : scanFraming (headLines head).tail with
    | error e => simp [framingOfText, scanned, Bind.bind, Except.bind] at framed
    | ok last =>
      refine ⟨last.contentLength, last.transferEncoding, ?_, ?_⟩
      · rw [← framing_eq_resolveFraming]
        simpa [framingOfText, scanned, Bind.bind, Except.bind] using framed
      · grind [scanFraming_iff]
  · rintro ⟨c, t, resolved, rest⟩
    obtain ⟨last, scanned, rfl, rfl⟩ := (scanFraming_iff named c t).mpr rest
    rw [← framing_eq_resolveFraming] at resolved
    simpa [framingOfText, scanned, Bind.bind, Except.bind] using resolved

end TlsProxy.Http
