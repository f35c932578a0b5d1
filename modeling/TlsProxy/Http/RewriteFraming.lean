import TlsProxy.Http.Fields
import TlsProxy.Http.Rewrite

/-! The rewrite keeps or drops whole entries by field name, so what the upstream
parses is decided by which names survive the client's `Connection` tokens. -/
namespace TlsProxy.Http
open Text

theorem field_headerText (name value : Text) (h : ':' ∉ name) :
    field (headerText (name, value)) = some (toAsciiLowercase (trim name), trim value) := by
  have found : splitOnce ':' (headerText (name, value)) = some (name, ' ' :: value) :=
    splitOnce_eq_some.mpr ⟨by simp [headerText], h⟩
  grind [field, trim_cons_whitespace, isWhitespace]

def survives (dispose : Text → Disposition) (line : Text) : Bool :=
  (field line).all fun f => dispose f.1 = .keep

theorem rewriteLine_keep {dispose : Text → Disposition} {line : Text}
    (h : survives dispose line = true) (s : RewriteScan) :
    rewriteLine dispose s line = { s with skippingFolds := false, output := s.output ++ [line] } := by
  cases found : splitOnce ':' line with
  | none => simp only [rewriteLine, found]
  | some parts => grind [survives, field, rewriteLine]

theorem rewriteLine_drop {dispose : Text → Disposition} {line : Text}
    (h : survives dispose line = false) (s : RewriteScan) :
    (rewriteLine dispose s line).output = s.output ∧
      (rewriteLine dispose s line).skippingFolds = true := by
  cases found : splitOnce ':' line with
  | none => simp [survives, field, found] at h
  | some parts =>
    have drop : dispose (toAsciiLowercase (trim parts.1)) ≠ .keep := by
      simpa [survives, field, found] using h
    grind [rewriteLine]

theorem rewriteLines_output (dispose : Text → Disposition) (s : RewriteScan) (lines : List Text) :
    (rewriteLines dispose s lines).output =
      s.output ++ (if s.skippingFolds then [] else (Folded.group List.isEmpty isFold lines).leading) ++
        ((Folded.group List.isEmpty isFold lines).entries.filter fun e => survives dispose e.line).flatMap
          Folded.Entry.lines := by
  induction lines generalizing s with
  | nil => simp [rewriteLines, Folded.group, Folded.Block.empty]
  | cons line rest ih =>
    by_cases blank : line.isEmpty = true
    · simp [rewriteLines, Folded.group, blank, Folded.Block.empty]
    · by_cases folded : isFold line = true
      · by_cases skipping : s.skippingFolds = true <;>
          simp [rewriteLines, Folded.group, blank, folded, skipping, ih]
      · by_cases kept : survives dispose line = true
        · simp [rewriteLines, Folded.group, blank, folded, ih, rewriteLine_keep kept, kept,
            Folded.Entry.lines]
        · have dropped := rewriteLine_drop (by simpa using kept) s
          simp [rewriteLines, Folded.group, blank, folded, ih, dropped, kept]

theorem newline_not_mem_field_value {line name value : Text} (h : '\n' ∉ line)
    (found : splitOnce ':' line = some (name, value)) : '\n' ∉ trim value := by
  obtain ⟨rfl, -⟩ := splitOnce_eq_some.mp found
  grind [mem_of_mem_trim]

theorem rewriteLines_values (dispose : Text → Disposition) (s : RewriteScan) (lines : List Text)
    (clean : ∀ line ∈ lines, '\n' ∉ line)
    (start : ∀ value ∈ s.xffValues ++ s.forwardedValues, '\n' ∉ value) :
    ∀ value ∈ (rewriteLines dispose s lines).xffValues ++ (rewriteLines dispose s lines).forwardedValues,
      '\n' ∉ value := by
  induction lines generalizing s with
  | nil => exact start
  | cons line rest ih =>
    have later := fun s => ih s fun l member => clean l (List.mem_cons_of_mem _ member)
    unfold rewriteLines
    split
    · exact start
    · split
      · split <;> exact later _ start
      · refine later _ ?_
        unfold rewriteLine
        split
        · exact start
        · rename_i name value found
          have fresh := newline_not_mem_field_value (clean line List.mem_cons_self) found
          simp only [List.mem_append] at start ⊢
          split <;> simp only [List.mem_append, List.mem_singleton]
          · exact start
          · exact start
          · grind
          · grind

theorem headLines_crlfLines {lines : List Text} (clean : ∀ line ∈ lines, '\n' ∉ line) :
    headLines (crlfLines lines) = lines ++ [[]] := by
  induction lines with
  | nil => decide
  | cons line rest ih =>
    have split : (crlfLines (line :: rest)).splitOn '\n' =
        (line ++ ['\r']) :: (crlfLines rest).splitOn '\n' := by
      have absent : '\n' ∉ line ++ ['\r'] := by grind
      have layout : crlfLines (line :: rest) = (line ++ ['\r']) ++ '\n' :: crlfLines rest := by
        simp [crlfLines]
      rw [layout, List.splitOn_append_cons_self_of_not_mem absent]
    grind [headLines, stripCr_append_cr]

theorem crlfLines_inj {first second : List Text} (clean : ∀ line ∈ first, '\n' ∉ line)
    (cleanToo : ∀ line ∈ second, '\n' ∉ line) (same : crlfLines first = crlfLines second) : first = second := by
  have lines := headLines_crlfLines clean
  rw [same, headLines_crlfLines cleanToo] at lines
  exact (List.append_cancel_right lines).symm

theorem findHeadEnd_line {line rest : List UInt8} (clean : lf ∉ line) :
    findHeadEnd (line ++ lf :: rest) =
      if rest.head? = some lf then some (line.length + 2)
      else if rest.head? = some cr ∧ rest[1]? = some lf then some (line.length + 3)
      else (findHeadEnd rest).map (· + (line.length + 1)) := by
  induction line with
  | nil => simp [findHeadEnd]
  | cons b line ih =>
    simp only [List.mem_cons, not_or] at clean
    have other : b ≠ lf := fun same => clean.1 same.symm
    simp only [List.cons_append, findHeadEnd, other, false_and, ↓reduceIte, ih clean.2,
      List.length_cons]
    split
    · rfl
    · split
      · rfl
      · simp only [Option.map_map]
        congr 1

theorem encode_crlfLines_cons (line : Text) (rest : List Text) :
    Utf8.encode (crlfLines (line :: rest)) =
      (Utf8.encode line ++ [cr]) ++ lf :: Utf8.encode (crlfLines rest) := by
  have terminator : Utf8.encode ['\r', '\n'] = [cr, lf] := by decide
  have layout : crlfLines (line :: rest) = line ++ ['\r', '\n'] ++ crlfLines rest := by
    simp [crlfLines]
  grind [Utf8.encode_append]

theorem lf_not_mem_encode {line : Text} (clean : '\n' ∉ line) : lf ∉ Utf8.encode line :=
  fun member => clean ((Utf8.ascii_mem_encode (c := '\n') (by decide) line).mp member)

theorem line_not_blank {line : Text} (clean : '\n' ∉ line) (filled : line ≠ []) (rest : List UInt8) :
    (Utf8.encode line ++ [cr] ++ rest).head? ≠ some lf ∧
      (Utf8.encode line ++ [cr] ++ rest)[1]? ≠ some lf := by
  have absent : lf ∉ Utf8.encode line ++ [cr] := by
    rw [List.mem_append, not_or]
    exact ⟨lf_not_mem_encode clean, by decide⟩
  have long : 1 < (Utf8.encode line ++ [cr]).length := by
    obtain ⟨c, t, rfl⟩ := List.exists_cons_of_ne_nil filled
    grind [String.length_utf8EncodeChar, Char.utf8Size_pos, Utf8.encode_cons]
  constructor
  · grind [List.mem_of_head?]
  · grind

theorem findHeadEnd_crlfLines (first : Text) (lines : List Text) (body : List UInt8)
    (cleanFirst : '\n' ∉ first) (clean : ∀ line ∈ lines, '\n' ∉ line ∧ line ≠ []) :
    findHeadEnd (Utf8.encode (crlfLines (first :: (lines ++ [[]]))) ++ body) =
      some (Utf8.encode (crlfLines (first :: (lines ++ [[]])))).length := by
  have absent : ∀ line : Text, '\n' ∉ line → lf ∉ Utf8.encode line ++ [cr] := by
    intro line free
    rw [List.mem_append, not_or]
    exact ⟨lf_not_mem_encode free, by decide⟩
  induction lines generalizing first with
  | nil =>
    have blank : Utf8.encode (crlfLines [[]]) = [cr, lf] := by decide
    rw [List.nil_append, encode_crlfLines_cons, blank, List.append_assoc, List.cons_append,
      findHeadEnd_line (absent first cleanFirst)]
    have different : ¬ cr = lf := by decide
    simp [different]
  | cons line rest ih =>
    obtain ⟨free, filled⟩ := clean line List.mem_cons_self
    have next := ih line free fun l member => clean l (List.mem_cons_of_mem _ member)
    rw [List.cons_append, encode_crlfLines_cons first, List.append_assoc, List.cons_append,
      findHeadEnd_line (absent first cleanFirst), next]
    obtain ⟨notBare, notCrlf⟩ := line_not_blank free filled
      (lf :: Utf8.encode (crlfLines (rest ++ [[]])) ++ body)
    rw [encode_crlfLines_cons line]
    simp only [List.append_assoc, List.cons_append] at notBare notCrlf ⊢
    simp only [notBare, notCrlf, and_false, ↓reduceIte, Option.map_some, Option.some.injEq]
    simp only [List.length_append, List.length_cons]
    omega

/-- Names the rewrite treats by rule, whatever the client's tokens say. -/
def ruledNames : List Text :=
  ["x-forwarded-for".toList, "forwarded".toList, "authorization".toList, "x-forwarded-host".toList,
    "x-forwarded-proto".toList, "connection".toList, "upgrade".toList, "close".toList, []] ++
  hopByHopTable

theorem dispose_keep_iff {h : HttpHead} {upstreamHost : Option Text} {name : Text}
    (plain : name ∉ ruledNames) :
    h.dispose upstreamHost name = .keep ↔
      (name = hostHeader → upstreamHost = none) ∧ name ∉ h.connectionTokens := by
  simp only [ruledNames, List.mem_append, List.mem_cons, List.not_mem_nil, or_false, not_or] at plain
  obtain ⟨⟨notXff, notForwarded, notAuth, notXfh, notXfp, notConnection, notUpgrade, notClose, filled⟩,
    notTable⟩ := plain
  have hop : name ∈ h.hopByHop ↔ name ∈ h.connectionTokens := by
    have nonempty : name.isEmpty = false := by simpa using filled
    have isClose : (name != "close".toList) = true := by simpa only [bne_iff_ne] using notClose
    have isUpgrade : (name == "upgrade".toList) = false := by grind
    simp only [HttpHead.hopByHop, List.mem_append, notTable, false_or, List.mem_filter, nonempty,
      isClose, isUpgrade, Bool.not_false, Bool.and_self, Bool.false_and, and_true]
  have option : upstreamHost = none ↔ upstreamHost.isSome = false := by
    cases upstreamHost <;> simp
  simp only [HttpHead.dispose, notXff, notForwarded, notAuth, notXfh, notXfp, notConnection,
    notUpgrade, List.mem_cons, List.not_mem_nil, or_false, false_and, ↓reduceIte, hop, option]
  grind

theorem filterMap_filter_alike {α β : Type*} {keep : α → Bool} {value : α → Option β} {stays : Prop}
    [Decidable stays] {l : List α} (alike : ∀ x, (value x).isSome → (keep x = true ↔ stays)) :
    (l.filter keep).filterMap value = if stays then l.filterMap value else [] := by
  induction l with
  | nil => simp
  | cons x rest ih => grind

theorem fieldValues_survivors (dispose : Text → Disposition) (lines : List Text) (name : Text) :
    fieldValues name (lines.filter (survives dispose)) =
      if dispose name = .keep then fieldValues name lines else [] := by
  refine filterMap_filter_alike fun line named => ?_
  obtain ⟨value, read⟩ := Option.isSome_iff_exists.mp named
  obtain ⟨⟨key, _⟩, found, chosen⟩ := Option.bind_eq_some_iff.mp read
  grind [survives]

theorem entryValues_survivors (dispose : Text → Disposition) (entries : List Entry) (name : Text) :
    entryValues name (entries.filter fun e => survives dispose e.line) =
      if dispose name = .keep then entryValues name entries else [] := by
  rw [entryValues, entryValues, ← fieldValues_survivors, List.filter_map]
  rfl

def pushedNames : List Text :=
  ["X-Forwarded-For".toList, "X-Forwarded-Host".toList, "X-Forwarded-Proto".toList,
    "Forwarded".toList, "X-Tlsproxy-Rid".toList, "Connection".toList]

theorem pushedNames_plain :
    ∀ name ∈ pushedNames ++ ["Host".toList],
      ':' ∉ name ∧ '\n' ∉ name ∧ name ≠ [] ∧ isFold name = false := by decide

theorem pushedNames_unread :
    ∀ name ∈ pushedNames,
      toAsciiLowercase (trim name) ∉ [hostHeader, contentLengthHeader, transferEncodingHeader] := by decide

theorem headerText_opens {header : Text × Text} (filled : header.1 ≠ []) (opens : isFold header.1 = false) :
    (headerText header).isEmpty = false ∧ isFold (headerText header) = false := by
  obtain ⟨c, t, name⟩ := List.exists_cons_of_ne_nil filled
  rw [name] at opens
  simp only [headerText, name, List.cons_append, List.isEmpty_cons, true_and]
  exact opens

theorem newline_not_mem_forwardedFor (clientIp : IpAddr) : '\n' ∉ forwardedFor clientIp := by
  cases clientIp with
  | v4 ip =>
    change '\n' ∉ "for=".toList ++ ip.display
    grind [newline_not_mem_of_solid, IpAddr.solid_ipv4]
  | v6 ip =>
    change '\n' ∉ "for=\"[".toList ++ ip.display ++ "]\"".toList
    rw [List.mem_append, List.mem_append, not_or, not_or]
    grind [newline_not_mem_of_solid, IpAddr.solid_ipv6]

section Pushed

variable (h : HttpHead) (clientIp : IpAddr) (scheme : Text) (upstreamHost : Option Text)
  (loopToken : Text) (s : RewriteScan)

theorem pushedHeaders_name {header : Text × Text}
    (member : header ∈ h.pushedHeaders clientIp scheme upstreamHost loopToken s) :
    header.1 ∈ pushedNames ++ ["Host".toList] := by
  simp only [HttpHead.pushedHeaders, List.mem_append, List.mem_cons, List.not_mem_nil, or_false,
    List.mem_map] at member
  rcases member with (rfl | rfl | rfl | rfl | rfl | rfl) | ⟨host, -, rfl⟩ <;> dsimp only <;> decide

theorem fieldValues_pushed {name : Text}
    (read : name ∈ [hostHeader, contentLengthHeader, transferEncodingHeader]) :
    fieldValues name ((h.pushedHeaders clientIp scheme upstreamHost loopToken s).map headerText) =
      if name = hostHeader then upstreamHost.toList.map trim else [] := by
  have unread : ∀ key value lines, key ∈ pushedNames →
      fieldValues name (headerText (key, value) :: lines) = fieldValues name lines := by
    intro key value lines member
    have colon := (pushedNames_plain key (List.mem_append_left _ member)).1
    have different : toAsciiLowercase (trim key) ≠ name := by grind [pushedNames_unread]
    rw [fieldValues_cons (field_headerText _ value colon), if_neg different, List.nil_append]
  have last : fieldValues name ((upstreamHost.toList.map fun host => ("Host".toList, host)).map headerText) =
      if name = hostHeader then upstreamHost.toList.map trim else [] := by
    cases upstreamHost with
    | none => simp
    | some host =>
      have found := field_headerText "Host".toList host (by decide)
      have lower : toAsciiLowercase (trim "Host".toList) = hostHeader := by decide
      rw [lower] at found
      simp only [Option.toList_some, List.map_cons, List.map_nil, fieldValues_cons found,
        fieldValues_nil, List.append_nil, eq_comm]
  simp only [HttpHead.pushedHeaders, List.map_cons, List.cons_append, List.nil_append]
  repeat rw [unread _ _ _ (by decide)]
  exact last

theorem pushedHeaders_clean (cleanScheme : '\n' ∉ scheme) (cleanToken : '\n' ∉ loopToken)
    (cleanHost : ∀ u, upstreamHost = some u → '\n' ∉ u) (cleanRaw : '\n' ∉ h.hostRaw)
    (cleanValues : ∀ value ∈ s.xffValues ++ s.forwardedValues, '\n' ∉ value) :
    ∀ header ∈ h.pushedHeaders clientIp scheme upstreamHost loopToken s, '\n' ∉ headerText header := by
  intro header member
  have name := (pushedNames_plain _ (pushedHeaders_name h clientIp scheme upstreamHost loopToken s member)).2.1
  have separator : '\n' ∉ ": ".toList := by decide
  suffices value : '\n' ∉ header.2 by grind [headerText]
  have joined : ∀ values : List Text, (∀ v ∈ values, '\n' ∉ v) → '\n' ∉ join ", ".toList values := by
    intro values clean found
    rcases mem_join found with comma | ⟨v, inValues, inValue⟩
    · exact absurd comma (by decide)
    · exact clean v inValues inValue
  have element : '\n' ∉ forwardedFor clientIp ++ ";host=".toList ++ h.hostRaw ++ ";proto=".toList ++ scheme := by
    simp only [List.mem_append, not_or]
    grind [newline_not_mem_forwardedFor]
  simp only [HttpHead.pushedHeaders, List.mem_append, List.mem_cons, List.not_mem_nil, or_false,
    List.mem_map] at member
  rcases member with (rfl | rfl | rfl | rfl | rfl | rfl) | ⟨host, given, rfl⟩
  · refine joined _ fun v inValues => ?_
    rcases List.mem_append.mp inValues with old | new
    · grind
    · rw [List.mem_singleton.mp new]
      exact newline_not_mem_of_solid (IpAddr.solid_display clientIp)
  · exact cleanRaw
  · exact cleanScheme
  · refine joined _ fun v inValues => ?_
    grind
  · exact cleanToken
  · simp only
    split <;> decide
  · grind

end Pushed

theorem resolveFraming_dropped_iff {c : Option Nat} {t : Option Text} {f : BodyFraming}
    (resolved : resolveFraming c t = .ok f) (keepLength keepEncoding : Prop) [Decidable keepLength]
    [Decidable keepEncoding] :
    resolveFraming (if keepLength then c else none) (if keepEncoding then t else none) = .ok f ↔
      (f = .chunked → keepEncoding) ∧ (∀ n, f = .length n → 0 < n → keepLength) := by
  cases t with
  | none =>
    simp only [resolveFraming, FramingScan.framing, Except.ok.injEq] at resolved
    subst resolved
    by_cases kept : keepLength
    · simp [resolveFraming, FramingScan.framing, kept]
    · simp only [resolveFraming, FramingScan.framing, kept, ite_self, ↓reduceIte, Option.getD_none,
        Except.ok.injEq, BodyFraming.length.injEq, reduceCtorEq, false_implies, true_and]
      constructor
      · intro zero n same positive
        omega
      · grind
  | some encoding =>
    cases c with
    | some n => simp [resolveFraming, FramingScan.framing] at resolved
    | none =>
      by_cases chunked : encoding = "chunked".toList
      · subst chunked
        have isChunked : f = .chunked := by
          simpa [resolveFraming, FramingScan.framing, eq_comm] using resolved
        subst isChunked
        by_cases kept : keepEncoding
        · simpa [kept] using resolved
        · simp [resolveFraming, FramingScan.framing, kept]
      · simp only [resolveFraming, FramingScan.framing, Option.isSome_none, Bool.false_eq_true,
          ↓reduceIte, ne_eq, chunked, not_false_eq_true, reduceCtorEq] at resolved

/-- What the next hop must read back from the rewritten bytes. -/
def SameMessage (h : HttpHead) (f : BodyFraming) (upstreamHost : Option Text) (output : List UInt8) :
    Prop :=
  ∃ headLen, ∃ found : findHeadEnd output = some headLen, ∃ seen : HttpHead,
    parseHead output headLen (findHeadEnd_le found) = .ok seen ∧ seen.bodyFraming = .ok f ∧
    seen.hostRaw = upstreamHost.getD h.hostRaw ∧
    (upstreamHost = none → seen.host = h.host ∧ seen.port = h.port) ∧
    seen.bodyPrefix = h.bodyPrefix

/-- The client's `Connection` header names no field the message depends on, and
the configured upstream host is a plain Host value. -/
def MessageFieldsSurvive (h : HttpHead) (f : BodyFraming) (upstreamHost : Option Text) : Prop :=
  (upstreamHost = none → hostHeader ∉ h.connectionTokens) ∧
  (∀ u, upstreamHost = some u → trim u = u ∧ (splitHostPort u).isOk) ∧
  (f = .chunked → transferEncodingHeader ∉ h.connectionTokens) ∧
  (∀ n, f = .length n → 0 < n → contentLengthHeader ∉ h.connectionTokens)

section Rewritten

variable {h : HttpHead} {clientIp : IpAddr} {scheme : Text} {upstreamHost : Option Text}
  {loopToken : Text}

theorem newline_not_mem_headLines {head line : Text} (member : line ∈ headLines head) : '\n' ∉ line := by
  obtain ⟨part, inParts, rfl⟩ := List.mem_map.mp member
  exact fun found => not_mem_splitOn inParts (mem_of_mem_stripCr found)

theorem newline_not_mem_hostRaw (accepted : parseHeadText h.head = .ok h.toHeadFacts) :
    '\n' ∉ h.hostRaw := by
  obtain ⟨-, -, -, values⟩ := (parseHeadText_iff h.head h.hostRaw).mp ⟨_, accepted, rfl⟩
  have member : h.hostRaw ∈ entryValues hostHeader (entriesOf (headLines h.head).tail) := by grind
  obtain ⟨line, inLines, found⟩ := List.mem_filterMap.mp member
  obtain ⟨⟨key, value⟩, named, same⟩ := Option.bind_eq_some_iff.mp found
  obtain ⟨name, rest, split, rfl, rfl⟩ := field_eq_some named
  have raw : trim rest = h.hostRaw := by grind
  obtain ⟨e, inEntries, rfl⟩ := List.mem_map.mp inLines
  have inHead : e.line ∈ headLines h.head := by
    refine List.mem_of_mem_tail (Folded.mem_of_mem_group List.isEmpty isFold ?_)
    exact List.mem_append_right _ (List.mem_flatMap.mpr ⟨e, inEntries, List.mem_cons_self⟩)
  rw [← raw]
  exact newline_not_mem_field_value (newline_not_mem_headLines inHead) split

theorem rewrittenLines_block (h : HttpHead) (clientIp : IpAddr) (scheme : Text)
    (upstreamHost : Option Text) (loopToken : Text) :
    ∃ (b : Folded.Block (α := Text) List.isEmpty isFold) (pushed : List Entry),
      h.rewrittenLines clientIp scheme upstreamHost loopToken = b.lines ∧
      b.entries = ((entriesOf (headLines h.head).tail).filter
        fun e => survives (h.dispose upstreamHost) e.line) ++ pushed ∧
      pushed.map Folded.Entry.line =
        (h.pushedHeaders clientIp scheme upstreamHost loopToken (h.rewriteScan upstreamHost)).map
          headerText ∧
      (∀ e ∈ pushed, e.folds = []) ∧
      b.leading = (Folded.group List.isEmpty isFold (headLines h.head).tail).leading := by
  have opens : ∀ line ∈ (h.pushedHeaders clientIp scheme upstreamHost loopToken
      (h.rewriteScan upstreamHost)).map headerText, line.isEmpty = false ∧ isFold line = false := by
    intro line member
    obtain ⟨header, inHeaders, rfl⟩ := List.mem_map.mp member
    have name := pushedNames_plain _
      (pushedHeaders_name h clientIp scheme upstreamHost loopToken _ inHeaders)
    exact headerText_opens name.2.2.1 name.2.2.2
  obtain ⟨pushed, lines, flat, plain⟩ := Folded.exists_plain_entries List.isEmpty isFold opens
  refine ⟨⟨(Folded.group List.isEmpty isFold (headLines h.head).tail).leading, _,
    (Folded.group List.isEmpty isFold (headLines h.head).tail).continues⟩, pushed, ?_, rfl, lines, plain, rfl⟩
  simp only [HttpHead.rewrittenLines, HttpHead.rewriteScan] at flat ⊢
  rw [rewriteLines_output]
  simp only [Folded.Block.lines, List.flatMap_append, flat, Bool.false_eq_true, ↓reduceIte,
    List.nil_append, List.append_assoc, entriesOf]

theorem rewrittenLines_clean (clientIp : IpAddr) (cleanRaw : '\n' ∉ h.hostRaw)
    (cleanScheme : '\n' ∉ scheme) (cleanToken : '\n' ∉ loopToken)
    (cleanHost : ∀ u, upstreamHost = some u → '\n' ∉ u) :
    ∀ line ∈ h.rewrittenLines clientIp scheme upstreamHost loopToken, '\n' ∉ line ∧ line ≠ [] := by
  have cleanLines : ∀ line ∈ (headLines h.head).tail, '\n' ∉ line :=
    fun line member => newline_not_mem_headLines (List.mem_of_mem_tail member)
  obtain ⟨b, -, block, -⟩ := rewrittenLines_block h clientIp scheme upstreamHost loopToken
  intro line member
  refine ⟨?_, by simpa using b.live_of_mem_lines (block ▸ member)⟩
  rcases List.mem_append.mp member with kept | pushed
  · rw [HttpHead.rewriteScan, rewriteLines_output] at kept
    refine cleanLines line (Folded.mem_of_mem_group List.isEmpty isFold ?_)
    simp only [List.nil_append, Bool.false_eq_true, ↓reduceIte, List.mem_append] at kept
    rcases kept with leading | inside
    · exact List.mem_append_left _ leading
    · obtain ⟨e, survivor, inEntry⟩ := List.mem_flatMap.mp inside
      exact List.mem_append_right _ (List.mem_flatMap.mpr ⟨e, List.mem_of_mem_filter survivor, inEntry⟩)
  · obtain ⟨header, inHeaders, rfl⟩ := List.mem_map.mp pushed
    refine pushedHeaders_clean h clientIp scheme upstreamHost loopToken _ cleanScheme cleanToken cleanHost
      cleanRaw ?_ header inHeaders
    exact rewriteLines_values _ {} _ cleanLines (by simp)

theorem newline_not_mem_requestLine (head : Text) : '\n' ∉ requestLine head := by
  unfold requestLine
  cases lines : headLines head with
  | nil => exact List.not_mem_nil
  | cons first rest => grind [newline_not_mem_headLines]

theorem headLines_rewrittenHead
    (clean : ∀ line ∈ h.rewrittenLines clientIp scheme upstreamHost loopToken, '\n' ∉ line ∧ line ≠ []) :
    headLines (h.rewrittenHead clientIp scheme upstreamHost loopToken) =
      requestLine h.head :: (h.rewrittenLines clientIp scheme upstreamHost loopToken ++ [[], []]) := by
  unfold HttpHead.rewrittenHead
  rw [headLines_crlfLines]
  · simp
  · intro line member
    grind [newline_not_mem_requestLine]

theorem requestLine_rewrittenHead
    (clean : ∀ line ∈ h.rewrittenLines clientIp scheme upstreamHost loopToken, '\n' ∉ line ∧ line ≠ []) :
    requestLine (h.rewrittenHead clientIp scheme upstreamHost loopToken) = requestLine h.head := by
  rw [requestLine, headLines_rewrittenHead clean]
  rfl

theorem entriesOf_rewrittenHead
    (clean : ∀ line ∈ h.rewrittenLines clientIp scheme upstreamHost loopToken, '\n' ∉ line ∧ line ≠ []) :
    ∃ pushed : List Entry,
      entriesOf (headLines (h.rewrittenHead clientIp scheme upstreamHost loopToken)).tail =
        ((entriesOf (headLines h.head).tail).filter fun e => survives (h.dispose upstreamHost) e.line) ++ pushed ∧
      pushed.map Folded.Entry.line =
        (h.pushedHeaders clientIp scheme upstreamHost loopToken (h.rewriteScan upstreamHost)).map headerText ∧
      ∀ e ∈ pushed, e.folds = [] := by
  obtain ⟨b, pushed, block, entries, lines, unfolded, -⟩ :=
    rewrittenLines_block h clientIp scheme upstreamHost loopToken
  refine ⟨pushed, ?_, lines, unfolded⟩
  rw [← entries, headLines_rewrittenHead clean, List.tail_cons, block]
  exact congrArg Folded.Block.entries (Folded.group_lines b [[]] rfl)

theorem sameMessage_iff_text (accepted : parseHeadText h.head = .ok h.toHeadFacts) {f : BodyFraming}
    (clean : ∀ line ∈ h.rewrittenLines clientIp scheme upstreamHost loopToken, '\n' ∉ line ∧ line ≠ []) :
    SameMessage h f upstreamHost (h.rewriteForProxy clientIp scheme upstreamHost loopToken) ↔
      (∃ facts, parseHeadText (h.rewrittenHead clientIp scheme upstreamHost loopToken) = .ok facts ∧
        facts.hostRaw = upstreamHost.getD h.hostRaw) ∧
      framingOfText (h.rewrittenHead clientIp scheme upstreamHost loopToken) = .ok f := by
  have terminator : findHeadEnd (h.rewriteForProxy clientIp scheme upstreamHost loopToken) =
      some (Utf8.encode (h.rewrittenHead clientIp scheme upstreamHost loopToken)).length :=
    findHeadEnd_crlfLines _ _ _ (newline_not_mem_requestLine h.head) clean
  constructor
  · rintro ⟨headLen, found, seen, parsed, framed, host, -, -⟩
    obtain rfl := Option.some.inj (terminator.symm.trans found)
    have text := parsed
    unfold HttpHead.rewriteForProxy at text
    rw [parseHead_encode] at text
    cases facts : parseHeadText (h.rewrittenHead clientIp scheme upstreamHost loopToken) with
    | error e => simp [facts, Except.map] at text
    | ok facts' =>
      simp only [facts, Except.map, Except.ok.injEq] at text
      subst text
      exact ⟨⟨facts', rfl, host⟩, framed⟩
  · rintro ⟨⟨facts, parsed, host⟩, framed⟩
    refine ⟨_, terminator, HttpHead.ofText facts false
      (h.rewrittenHead clientIp scheme upstreamHost loopToken) h.bodyPrefix, ?_, framed, host, ?_, ?_⟩
    · unfold HttpHead.rewriteForProxy
      rw [parseHead_encode, parsed]
      rfl
    · rintro rfl
      have before := parseHeadText_hostPort accepted
      have after := parseHeadText_hostPort parsed
      rw [host, Option.getD_none, before, Except.ok.injEq, Prod.mk.injEq] at after
      exact ⟨after.1.symm, after.2.symm⟩
    · simp [HttpHead.ofText, HttpHead.bodyPrefix]

theorem readNames_plain :
    ∀ name ∈ [hostHeader, contentLengthHeader, transferEncodingHeader], name ∉ ruledNames := by decide

theorem entryValues_rewritten {pushed : List Entry}
    (lines : pushed.map Folded.Entry.line =
      (h.pushedHeaders clientIp scheme upstreamHost loopToken (h.rewriteScan upstreamHost)).map headerText)
    (name : Text) (read : name ∈ [hostHeader, contentLengthHeader, transferEncodingHeader]) :
    entryValues name (((entriesOf (headLines h.head).tail).filter
        fun e => survives (h.dispose upstreamHost) e.line) ++ pushed) =
      (if (name = hostHeader → upstreamHost = none) ∧ name ∉ h.connectionTokens then
        entryValues name (entriesOf (headLines h.head).tail) else []) ++
      (if name = hostHeader then upstreamHost.toList.map trim else []) := by
  have survivors := entryValues_survivors (h.dispose upstreamHost) (entriesOf (headLines h.head).tail) name
  have later := fieldValues_pushed h clientIp scheme upstreamHost loopToken (h.rewriteScan upstreamHost) read
  simp only [dispose_keep_iff (readNames_plain name read)] at survivors
  rw [← survivors, ← later, ← lines, entryValues_append]
  rfl

theorem namedEntries_rewritten (named : NamedEntries (entriesOf (headLines h.head).tail))
    {pushed : List Entry}
    (lines : pushed.map Folded.Entry.line =
      (h.pushedHeaders clientIp scheme upstreamHost loopToken (h.rewriteScan upstreamHost)).map headerText)
    (unfolded : ∀ e ∈ pushed, e.folds = []) :
    NamedEntries (((entriesOf (headLines h.head).tail).filter
      fun e => survives (h.dispose upstreamHost) e.line) ++ pushed) := by
  intro e member
  rcases List.mem_append.mp member with survivor | new
  · exact named e (List.mem_of_mem_filter survivor)
  · have inLines : e.line ∈ pushed.map Folded.Entry.line := List.mem_map_of_mem new
    rw [lines] at inLines
    obtain ⟨⟨name, value⟩, inHeaders, same⟩ := List.mem_map.mp inLines
    have plain := pushedNames_plain _ (pushedHeaders_name h clientIp scheme upstreamHost loopToken _ inHeaders)
    grind [field_headerText]

theorem framingUnfolded_rewritten (dispose : Text → Disposition) {entries pushed : List Entry}
    (framing : FramingUnfolded entries) (unfolded : ∀ e ∈ pushed, e.folds = []) :
    FramingUnfolded ((entries.filter fun e => survives dispose e.line) ++ pushed) := by
  intro e member key value found isFraming
  rcases List.mem_append.mp member with survivor | new
  · exact framing e (List.mem_of_mem_filter survivor) key value found isFraming
  · exact unfolded e new

theorem framingValues_rewritten_iff {c : Option Nat} {t : Option Text} {f : BodyFraming}
    (resolved : resolveFraming c t = .ok f) {tokens before after : List Text}
    {encodingsBefore encodingsAfter : List Text}
    (lengths : before.map parseU64 = c.toList.map some)
    (encodings : encodingsBefore.map toAsciiLowercase = t.toList)
    (lengthsKept : after = if contentLengthHeader ∉ tokens then before else [])
    (encodingsKept : encodingsAfter = if transferEncodingHeader ∉ tokens then encodingsBefore else []) :
    (∃ c' t', resolveFraming c' t' = .ok f ∧ after.map parseU64 = c'.toList.map some ∧
      encodingsAfter.map toAsciiLowercase = t'.toList) ↔
    (f = .chunked → transferEncodingHeader ∉ tokens) ∧
      (∀ n, f = .length n → 0 < n → contentLengthHeader ∉ tokens) := by
  have lengths' : after.map parseU64 =
      (if contentLengthHeader ∉ tokens then c else none).toList.map some := by grind
  have encodings' : encodingsAfter.map toAsciiLowercase =
      (if transferEncodingHeader ∉ tokens then t else none).toList := by grind
  rw [← resolveFraming_dropped_iff resolved]
  constructor
  · rintro ⟨c', t', resolved', sameLength, sameEncoding⟩
    rw [lengths'] at sameLength
    rw [encodings'] at sameEncoding
    rw [option_toList_inj.mp (List.map_injective_iff.mpr (fun _ _ => Option.some.inj) sameLength),
      option_toList_inj.mp sameEncoding]
    exact resolved'
  · grind

theorem sameMessage_rewrite_iff (accepted : parseHeadText h.head = .ok h.toHeadFacts) {f : BodyFraming}
    (framed : h.bodyFraming = .ok f) (cleanScheme : '\n' ∉ scheme) (cleanToken : '\n' ∉ loopToken)
    (cleanHost : ∀ u, upstreamHost = some u → '\n' ∉ u) :
    SameMessage h f upstreamHost (h.rewriteForProxy clientIp scheme upstreamHost loopToken) ↔
      MessageFieldsSurvive h f upstreamHost := by
  have clean := rewrittenLines_clean clientIp (newline_not_mem_hostRaw accepted) cleanScheme cleanToken cleanHost
  obtain ⟨pushed, seen, lines, unfolded⟩ := entriesOf_rewrittenHead clean
  obtain ⟨request, hostPort, named, hosts⟩ := (parseHeadText_iff h.head h.hostRaw).mp ⟨_, accepted, rfl⟩
  obtain ⟨c, t, resolved, framingUnfolded, lengths, encodings⟩ := (framingOfText_iff named f).mp framed
  have outNamed := namedEntries_rewritten named lines unfolded
  have outUnfolded := framingUnfolded_rewritten (h.dispose upstreamHost) framingUnfolded unfolded
  have hostValues := entryValues_rewritten lines hostHeader (by decide)
  have lengthValues := entryValues_rewritten lines contentLengthHeader (by decide)
  have encodingValues := entryValues_rewritten lines transferEncodingHeader (by decide)
  have lengthOther : contentLengthHeader ≠ hostHeader := by decide
  have encodingOther : transferEncodingHeader ≠ hostHeader := by decide
  simp only [lengthOther, encodingOther, false_implies, true_and, ↓reduceIte, List.append_nil,
    forall_const] at lengthValues encodingValues hostValues
  rw [sameMessage_iff_text accepted clean, parseHeadText_iff, framingOfText_iff (by rw [seen]; exact outNamed), seen,
    requestLine_rewrittenHead clean, hostValues, hosts]
  have framingPart := framingValues_rewritten_iff resolved lengths encodings lengthValues encodingValues
  simp only [outUnfolded, true_and, framingPart, request, outNamed, MessageFieldsSurvive]
  cases upstreamHost with
  | none =>
    by_cases token : hostHeader ∈ h.connectionTokens
    · simp [token]
    · simp [token, hostPort]
  | some u =>
    simp only [Option.getD_some, reduceCtorEq, false_and, ↓reduceIte, List.nil_append,
      Option.toList_some, List.map_cons, List.map_nil, List.cons.injEq, and_true, false_implies,
      Option.some.injEq, forall_eq', true_and]
    constructor
    · grind
    · grind

end Rewritten

/-- The upstream parses the rewritten request to the same message exactly when what is read as the client's
`Connection` header names none of the fields the message depends on. -/
theorem rewriteForProxy_sameMessage_iff {buffered : List UInt8} {headLen : Nat}
    {bound : headLen ≤ buffered.length} {parsed h : HttpHead} {f : BodyFraming}
    (accepted : parseHead buffered headLen bound = .ok parsed)
    (used : h = parsed ∨ h = parsed.consumeAuthorization) (framed : h.bodyFraming = .ok f)
    (clientIp : IpAddr) (scheme : Text) (upstreamHost : Option Text) (loopToken : Text)
    (cleanScheme : SingleLine scheme) (cleanToken : SingleLine loopToken)
    (cleanHost : ∀ u, upstreamHost = some u → SingleLine u) :
    SameMessage h f upstreamHost (h.rewriteForProxy clientIp scheme upstreamHost loopToken) ↔
      MessageFieldsSurvive h f upstreamHost := by
  obtain ⟨-, -, -, facts⟩ := parseHead_ok accepted
  have text : parseHeadText h.head = .ok h.toHeadFacts := by
    rcases used with rfl | rfl <;> exact facts
  exact sameMessage_rewrite_iff text framed cleanScheme.2 cleanToken.2 fun u given => (cleanHost u given).2

def loopbackClient : IpAddr := .v4 .localhost

/-- A request with a body, whose `Connection` header names other fields, keeps its message. -/
theorem rewriteForProxy_sameMessage_post :
    let head := "POST / HTTP/1.1\r\nHost: a\r\nConnection: close, te\r\nContent-Length: 2\r\n\r\n".toList
    let facts : HeadFacts := ⟨"POST".toList, "/".toList, "a".toList, none, "a".toList, none, []⟩
    let h := HttpHead.ofText facts false head (Utf8.encode "hi".toList)
    h.connectionTokens = ["close".toList, "te".toList] ∧
      SameMessage h (.length 2) none (h.rewriteForProxy loopbackClient "http".toList none "cafe".toList) := by
  intro head facts h
  have text : head = _ := String.toList_ofList
  have parsed : parseHeadText head = .ok facts := by
    rw [text]
    decide +kernel
  have accepted := parseHead_encode head (Utf8.encode "hi".toList) (by simp)
  rw [parsed] at accepted
  have tokens : h.connectionTokens = ["close".toList, "te".toList] := by decide +kernel
  refine ⟨tokens, (rewriteForProxy_sameMessage_iff accepted (.inl rfl) (by decide +kernel) loopbackClient "http".toList
    none "cafe".toList (by decide) (by decide) (by simp)).mpr ⟨fun _ => ?_, nofun, nofun, fun _ _ _ => ?_⟩⟩
  · rw [tokens]
    decide
  · rw [tokens]
    decide

def smugglingHead : Text :=
  "POST /a HTTP/1.1\r\nHost: a.example\r\nConnection: content-length\r\nContent-Length: 5\r\n\r\n".toList

def smugglingFacts : HeadFacts :=
  { method := "POST".toList, target := "/a".toList, host := "a.example".toList, port := none,
    hostRaw := "a.example".toList, authorization := none, loopTokens := [] }

theorem smugglingHead_parsed : parseHeadText smugglingHead = .ok smugglingFacts := by
  -- a list of characters is evaluated much faster than the literal
  have text : smugglingHead = _ := String.toList_ofList
  rw [text]
  decide +kernel

theorem rewriteForProxy_loses_contentLength :
    ∃ (h : HttpHead) (bound : 84 ≤ h.buffered.length),
      h.buffered = Utf8.encode smugglingHead ++ Utf8.encode "hello".toList ∧
      findHeadEnd h.buffered = some 84 ∧ parseHead h.buffered 84 bound = .ok h ∧
      h.bodyFraming = .ok (.length 5) ∧
      framingOfText (h.rewrittenHead loopbackClient "http".toList none "cafe".toList) = .ok (.length 0) ∧
      ¬ SameMessage h (.length 5) none
        (h.rewriteForProxy loopbackClient "http".toList none "cafe".toList) := by
  have text : smugglingHead = _ := String.toList_ofList
  have length : (Utf8.encode smugglingHead).length = 84 := by
    rw [text]
    decide +kernel
  have framed : (HttpHead.ofText smugglingFacts false smugglingHead
      (Utf8.encode "hello".toList)).bodyFraming = .ok (.length 5) := by
    rw [text]
    decide +kernel
  refine ⟨HttpHead.ofText smugglingFacts false smugglingHead (Utf8.encode "hello".toList),
    by simp [HttpHead.ofText, length], rfl, by rw [text]; decide +kernel, ?_, framed,
    by rw [text]; decide +kernel, ?_⟩
  · have parsed := parseHead_encode smugglingHead (Utf8.encode "hello".toList) (by simp)
    rw [smugglingHead_parsed] at parsed
    simp only [length] at parsed
    exact parsed
  · intro same
    have kept := (sameMessage_rewrite_iff (h := HttpHead.ofText smugglingFacts false smugglingHead
      (Utf8.encode "hello".toList)) smugglingHead_parsed framed (by decide) (by decide) (by simp)).mp same
    exact kept.2.2.2 5 rfl (by decide) (by rw [text]; decide +kernel)

end TlsProxy.Http
