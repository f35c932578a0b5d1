import TlsProxy.Http.Exchange
import TlsProxy.Http.HeaderViews
import TlsProxy.Http.PathRoutes
import TlsProxy.Http.RewriteFraming

/-! Which header lines of the client `rewrite_for_proxy` lets through, and what a
receiver that splits the rewritten head at its newlines finds in the fields of
this hop. -/
namespace TlsProxy.Http
open Text

/-- The header lines that a receiver of the bytes sees, from the request line to the first empty line. -/
def wireLines (bytes : List UInt8) : List Text :=
  ((findHeadEnd bytes).bind fun headLen => Utf8.decode (bytes.take headLen)).elim [] fun head =>
    (headLines head).tail.takeWhile fun line => !line.isEmpty

theorem wireLines_rewritten {h : HttpHead} {clientIp : IpAddr} {scheme loopToken : Text} {upstreamHost : Option Text}
    (clean : ∀ line ∈ h.rewrittenLines clientIp scheme upstreamHost loopToken, '\n' ∉ line ∧ line ≠ []) :
    wireLines (h.rewriteForProxy clientIp scheme upstreamHost loopToken) =
      h.rewrittenLines clientIp scheme upstreamHost loopToken := by
  have ends : findHeadEnd (h.rewriteForProxy clientIp scheme upstreamHost loopToken) =
      some (Utf8.encode (h.rewrittenHead clientIp scheme upstreamHost loopToken)).length :=
    findHeadEnd_crlfLines _ _ _ (newline_not_mem_requestLine h.head) clean
  have decoded : Utf8.decode ((h.rewriteForProxy clientIp scheme upstreamHost loopToken).take
      (Utf8.encode (h.rewrittenHead clientIp scheme upstreamHost loopToken)).length) =
      some (h.rewrittenHead clientIp scheme upstreamHost loopToken) := by
    simp [HttpHead.rewriteForProxy]
  rw [wireLines, ends, Option.bind_some, decoded, Option.elim_some, headLines_rewrittenHead clean, List.tail_cons,
    List.takeWhile_append_of_pos]
  · simp
  · grind

def lineName (line : Text) : Text := (field line).elim [] Prod.fst

def connectionHeader : Text := "connection".toList

def forwardedForHeader : Text := "x-forwarded-for".toList

def forwardedHeader : Text := "forwarded".toList

section Unfolded

variable {dispose : Text → Disposition}

theorem rewriteLine_adds (toFor : ∀ key, dispose key = .collectForwardedFor ↔ key = forwardedForHeader)
    (toForwarded : ∀ key, dispose key = .collectForwarded ↔ key = forwardedHeader) (s : RewriteScan) (line : Text) :
    (rewriteLine dispose s line).output = s.output ++ [line].filter (survives dispose) ∧
      (rewriteLine dispose s line).xffValues = s.xffValues ++ fieldValues forwardedForHeader [line] ∧
      (rewriteLine dispose s line).forwardedValues = s.forwardedValues ++ fieldValues forwardedHeader [line] := by
  cases found : splitOnce ':' line with
  | none => simp [rewriteLine, found, survives, field, fieldValues]
  | some parts =>
    obtain ⟨name, value⟩ := parts
    have named : field line = some (toAsciiLowercase (trim name), trim value) := by simp [field, found]
    have values : ∀ header, fieldValues header [line] =
        if toAsciiLowercase (trim name) = header then [trim value] else [] := by
      grind [fieldValues_cons, fieldValues_nil]
    have fate : [line].filter (survives dispose) =
        if dispose (toAsciiLowercase (trim name)) = .keep then [line] else [] := by
      simp [survives, named, List.filter_cons]
    grind [rewriteLine]

theorem rewriteLines_unfolded (toFor : ∀ key, dispose key = .collectForwardedFor ↔ key = forwardedForHeader)
    (toForwarded : ∀ key, dispose key = .collectForwarded ↔ key = forwardedHeader) (s : RewriteScan)
    (lines : List Text) (unfolded : ∀ line ∈ lines.takeWhile (fun line => !line.isEmpty), isFold line = false) :
    let block := lines.takeWhile fun line => !line.isEmpty
    (rewriteLines dispose s lines).output = s.output ++ block.filter (survives dispose) ∧
      (rewriteLines dispose s lines).xffValues = s.xffValues ++ fieldValues forwardedForHeader block ∧
      (rewriteLines dispose s lines).forwardedValues = s.forwardedValues ++ fieldValues forwardedHeader block := by
  induction lines generalizing s with
  | nil => simp [rewriteLines]
  | cons line rest ih =>
    by_cases blank : line.isEmpty = true
    · simp [rewriteLines, blank]
    · have opens : (line :: rest).takeWhile (fun line => !line.isEmpty) =
          [line] ++ rest.takeWhile fun line => !line.isEmpty := by simp [blank]
      rw [opens, List.forall_mem_append] at unfolded
      have plain : isFold line = false := unfolded.1 line List.mem_cons_self
      have later := ih (rewriteLine dispose s line) unfolded.2
      obtain ⟨output, forValues, forwardedValues⟩ := rewriteLine_adds toFor toForwarded s line
      grind [rewriteLines, fieldValues_append]

end Unfolded

theorem firstValue_filterMap (name : Text) (lines : List Text) :
    firstValue name (lines.filterMap field) = (fieldValues (toAsciiLowercase name) lines).head? := by
  induction lines with
  | nil => rfl
  | cons line rest ih =>
    cases named : field line with
    | none => grind [fieldValues]
    | some f =>
      rw [List.filterMap_cons_some named, fieldValues_cons named]
      grind [firstValue]

namespace HttpHead

/-- A head as `parse_head` returns it, its credentials consumed or not. -/
def Accepted (h : HttpHead) : Prop :=
  ∃ found : findHeadEnd h.buffered = some h.headLen,
    parseHead h.buffered h.headLen (findHeadEnd_le found) = .ok { h with stripAuthorization := false }

theorem Accepted.facts {h : HttpHead} (accepted : h.Accepted) : parseHeadText h.head = .ok h.toHeadFacts := by
  obtain ⟨found, parsed⟩ := accepted
  exact (parseHead_ok parsed).2.2.2

theorem Accepted.visible {h : HttpHead} (accepted : h.Accepted) : h.visibleFields = h.headerLines.filterMap field := by
  obtain ⟨found, parsed⟩ := accepted
  have seen := visibleFields_eq found parsed
  exact seen

def namesListed (value : Text) : List Text :=
  ((commaTokens value).map toAsciiLowercase).filter fun token => !token.isEmpty

def listedNames (h : HttpHead) : List Text := (fieldValues connectionHeader h.headerLines).flatMap namesListed

def firstListed (h : HttpHead) : List Text :=
  ((fieldValues connectionHeader h.headerLines).head?).elim [] namesListed

/-- The field ends at this hop: a fixed hop-by-hop name, or listed by the client and not an honored upgrade. -/
def endsHere (h : HttpHead) (name : Text) : Bool :=
  hopByHopTable.contains name ||
    (h.listedNames.contains name && !(name == "upgrade".toList && h.upgradeRequested))

def replacedNames : List Text :=
  [forwardedForHeader, forwardedHeader, "x-forwarded-host".toList, "x-forwarded-proto".toList, connectionHeader]

/-- The field is replaced by one of this hop, consumed here, or an upgrade that is not honored. -/
def replaced (h : HttpHead) (upstreamHost : Option Text) (name : Text) : Bool :=
  replacedNames.contains name || (name == hostHeader && upstreamHost.isSome) ||
    (name == "authorization".toList && h.stripAuthorization) ||
    (name == "upgrade".toList && !h.upgradeRequested)

/-- What the client sends in its `Connection` fields that the rewrite takes into account: a listed field is
listed in the first of them, and not called `close`. -/
def FirstListsAll (h : HttpHead) (upstreamHost : Option Text) : Prop :=
  ∀ line ∈ h.headerLines, h.replaced upstreamHost (lineName line) = false → lineName line ∉ hopByHopTable →
    lineName line ∈ h.listedNames → lineName line ∈ h.firstListed ∧ lineName line ≠ "close".toList

end HttpHead

section Filter

variable {h : HttpHead} {upstreamHost : Option Text}

theorem mem_firstListed (accepted : h.Accepted) {name : Text} :
    name ∈ h.firstListed ↔ name ∈ h.connectionTokens ∧ name ≠ [] := by
  have seen : h.headerValue connectionHeader = (fieldValues connectionHeader h.headerLines).head? := by
    rw [headerValue_eq_firstValue, accepted.visible, firstValue_filterMap]
    rfl
  unfold HttpHead.firstListed HttpHead.connectionTokens
  rw [← seen]
  unfold connectionHeader
  grind [HttpHead.namesListed]

theorem mem_hopByHop (accepted : h.Accepted) {name : Text} :
    name ∈ h.hopByHop ↔ name ∈ hopByHopTable ∨
      (name ∈ h.firstListed ∧ name ≠ "close".toList) ∧ ¬ (name = "upgrade".toList ∧ h.upgradeRequested = true) := by
  rw [mem_firstListed accepted, HttpHead.hopByHop, List.mem_append, List.mem_filter]
  grind

theorem replaced_eq_false {name : Text} :
    h.replaced upstreamHost name = false ↔
      ¬ (name = hostHeader ∧ upstreamHost.isSome) ∧ ¬ name = "x-forwarded-for".toList ∧
      ¬ name = "forwarded".toList ∧ ¬ (name = "authorization".toList ∧ h.stripAuthorization) ∧
      ¬ name ∈ ["x-forwarded-host".toList, "x-forwarded-proto".toList, "connection".toList] ∧
      ¬ (name = "upgrade".toList ∧ ¬ h.upgradeRequested) := by
  have names : HttpHead.replacedNames.contains name = false ↔
      ¬ name = "x-forwarded-for".toList ∧ ¬ name = "forwarded".toList ∧
      ¬ name ∈ ["x-forwarded-host".toList, "x-forwarded-proto".toList, "connection".toList] := by
    rw [← Bool.not_eq_true, List.contains_iff_mem, HttpHead.replacedNames, List.mem_cons, List.mem_cons, not_or, not_or]
    rfl
  have both : ∀ (key : Text) (flag : Bool), (name == key && flag) = false ↔ ¬ (name = key ∧ flag = true) := by simp
  rw [HttpHead.replaced, Bool.or_eq_false_iff, Bool.or_eq_false_iff, Bool.or_eq_false_iff, names, both, both, both,
    Bool.not_eq_true', Bool.not_eq_true]
  grind

theorem dispose_eq_keep {name : Text} :
    h.dispose upstreamHost name = .keep ↔ h.replaced upstreamHost name = false ∧ name ∉ h.hopByHop := by
  rw [replaced_eq_false]
  simp only [HttpHead.dispose, ite_eq_iff, reduceCtorEq, and_false, and_true, false_or, and_assoc]

theorem dispose_eq_collectForwardedFor (key : Text) :
    h.dispose upstreamHost key = .collectForwardedFor ↔ key = forwardedForHeader := by
  simp only [HttpHead.dispose, ite_eq_iff, reduceCtorEq, and_false, and_true, false_or, or_false]
  constructor
  · exact fun rules => rules.2
  · rintro rfl
    exact ⟨fun host => absurd host.1 (by decide), rfl⟩

theorem dispose_eq_collectForwarded (key : Text) :
    h.dispose upstreamHost key = .collectForwarded ↔ key = forwardedHeader := by
  simp only [HttpHead.dispose, ite_eq_iff, reduceCtorEq, and_false, and_true, false_or, or_false]
  constructor
  · exact fun rules => rules.2.2
  · rintro rfl
    exact ⟨fun host => absurd host.1 (by decide), by decide, rfl⟩

theorem rewriteScan_unfolded (unfolded : h.continuations = []) (upstreamHost : Option Text) :
    (h.rewriteScan upstreamHost).output = h.headerLines.filter (survives (h.dispose upstreamHost)) ∧
      (h.rewriteScan upstreamHost).xffValues = fieldValues forwardedForHeader h.headerLines ∧
      (h.rewriteScan upstreamHost).forwardedValues = fieldValues forwardedHeader h.headerLines := by
  have plain : ∀ line ∈ h.headerLines, isFold line = false := by
    simpa [HttpHead.continuations, List.filter_eq_nil_iff] using unfolded
  exact rewriteLines_unfolded dispose_eq_collectForwardedFor dispose_eq_collectForwarded {} _ plain

theorem survives_dispose (accepted : h.Accepted) (line : Text) :
    survives (h.dispose upstreamHost) line =
      decide (h.replaced upstreamHost (lineName line) = false ∧ lineName line ∉ h.hopByHop) := by
  cases named : field line with
  | none =>
    have blank : h.replaced upstreamHost [] = false ∧ [] ∉ h.hopByHop := by
      refine ⟨replaced_eq_false.mpr (by simp [hostHeader]), ?_⟩
      rw [mem_hopByHop accepted, mem_firstListed accepted]
      simp [hopByHopTable]
    grind [lineName, survives]
  | some f => grind [lineName, survives, dispose_eq_keep]

theorem mem_listedNames_of_first {name : Text} (first : name ∈ h.firstListed) : name ∈ h.listedNames := by
  unfold HttpHead.firstListed at first
  cases values : fieldValues connectionHeader h.headerLines with
  | nil => simp [values] at first
  | cons value rest => grind [HttpHead.listedNames]

theorem upgrade_mem_firstListed (accepted : h.Accepted) (honored : h.upgradeRequested = true) :
    "upgrade".toList ∈ h.firstListed := by
  refine (mem_firstListed accepted).mpr ⟨?_, by decide⟩
  unfold HttpHead.upgradeRequested at honored
  unfold HttpHead.connectionTokens
  cases seen : h.headerValue "connection".toList with
  | none =>
    rw [seen] at honored
    cases honored
  | some value =>
    simp only [seen, Option.any_some, Bool.and_eq_true, List.any_eq_true] at honored
    obtain ⟨⟨token, member, upgrade⟩, -⟩ := honored
    exact List.mem_map.mpr ⟨token, member, (eqIgnoreAsciiCase_iff.mp upgrade).trans (by decide)⟩

theorem endsHere_eq_false {name : Text} :
    h.endsHere name = false ↔
      name ∉ hopByHopTable ∧ ¬ (name ∈ h.listedNames ∧ ¬ (name = "upgrade".toList ∧ h.upgradeRequested = true)) := by
  simp only [HttpHead.endsHere, ← Bool.not_eq_true, Bool.or_eq_true, Bool.and_eq_true, List.contains_iff_mem,
    Bool.not_eq_eq_eq_not, Bool.not_true, beq_iff_eq, not_or]

/-- The rewrite removes exactly the fields that end here when the first `Connection` field lists them all. -/
theorem output_eq_filter_iff (accepted : h.Accepted) (unfolded : h.continuations = []) :
    (h.rewriteScan upstreamHost).output = h.headerLines.filter (fun line =>
        !h.replaced upstreamHost (lineName line) && !h.endsHere (lineName line)) ↔
      h.FirstListsAll upstreamHost := by
  have lineRule : ∀ line, (!h.replaced upstreamHost (lineName line) && !h.endsHere (lineName line)) =
      survives (h.dispose upstreamHost) line ↔
      (h.replaced upstreamHost (lineName line) = false → lineName line ∉ hopByHopTable →
        lineName line ∈ h.listedNames → lineName line ∈ h.firstListed ∧ lineName line ≠ "close".toList) := by
    intro line
    rw [survives_dispose accepted, Bool.eq_iff_iff]
    simp only [Bool.and_eq_true, Bool.not_eq_true', endsHere_eq_false, decide_eq_true_eq, mem_hopByHop accepted]
    have honored : lineName line = "upgrade".toList ∧ h.upgradeRequested = true →
        lineName line ∈ h.firstListed ∧ lineName line ≠ "close".toList := by grind [upgrade_mem_firstListed]
    constructor
    · grind
    · intro lists
      refine and_congr_right fun stays => ?_
      rw [not_or]
      refine and_congr_right fun untabled => not_congr (and_congr_left fun _ => ?_)
      grind [mem_listedNames_of_first]
  rw [(rewriteScan_unfolded unfolded upstreamHost).1]
  constructor
  · intro same line member
    refine (lineRule line).mp ?_
    have kept := congrArg (line ∈ ·) same
    grind
  · intro lists
    refine List.filter_congr fun line member => ?_
    exact ((lineRule line).mpr (lists line member)).symm

/-- The rewritten head is the client's request line and header lines as they came, without the fields that
end here or are replaced, and then the appended fields, exactly when the first `Connection` field lists them all. -/
theorem hopByHop_fields_removed (accepted : h.Accepted) (unfolded : h.continuations = []) (clientIp : IpAddr)
    (scheme loopToken : Text) :
    h.rewriteForProxy clientIp scheme upstreamHost loopToken =
      Utf8.encode (crlfLines (requestLine h.head ::
        (h.headerLines.filter (fun line =>
            !h.replaced upstreamHost (lineName line) && !h.endsHere (lineName line)) ++
          (h.pushedHeaders clientIp scheme upstreamHost loopToken (h.rewriteScan upstreamHost)).map headerText ++
          [[]]))) ++ h.bodyPrefix ↔ h.FirstListsAll upstreamHost := by
  rw [HttpHead.rewriteForProxy, HttpHead.rewrittenHead, HttpHead.rewrittenLines, ← output_eq_filter_iff accepted unfolded]
  constructor
  · intro same
    have text := Utf8.encode_inj (List.append_cancel_right same)
    simp only [crlfLines, List.flatMap_cons, List.flatMap_append, List.append_cancel_left_eq,
      List.append_cancel_right_eq] at text
    have clean : ∀ line ∈ h.headerLines, '\n' ∉ line := fun line member =>
      newline_not_mem_headLines (List.mem_of_mem_tail ((List.takeWhile_sublist _).subset member))
    refine crlfLines_inj (fun line member => clean line ?_) (fun line member => clean line (List.mem_filter.mp member).1) text
    rw [(rewriteScan_unfolded unfolded upstreamHost).1] at member
    exact (List.mem_filter.mp member).1
  · intro same
    rw [same]

end Filter

theorem headLines_stripPathPrefix {h : HttpHead} (accepted : parseHeadText h.head = .ok h.toHeadFacts) (pathPrefix : Text) :
    (headLines (h.stripPathPrefix pathPrefix).head).tail = (headLines h.head).tail := by
  obtain ⟨line, rest, version, found, words, -⟩ := parseHeadText_firstLine accepted
  obtain ⟨ending, kind, rebuilt⟩ := HttpHead.stripPathPrefix_head found words pathPrefix
  obtain ⟨whole, clean⟩ := splitOnce_eq_some.mp found
  grind [HttpHead.newline_not_mem_rebuiltLine, headLines_append_newline]

theorem hostRaw_stripPathPrefix (h : HttpHead) (pathPrefix : Text) : (h.stripPathPrefix pathPrefix).hostRaw = h.hostRaw := by
  unfold HttpHead.stripPathPrefix
  split <;> rfl

theorem prepare_fields {h : HttpHead} (accepted : parseHeadText h.head = .ok h.toHeadFacts) (consumed : Bool)
    (strip : Option Text) :
    (headLines (prepare consumed strip h).head).tail = (headLines h.head).tail ∧
      (prepare consumed strip h).hostRaw = h.hostRaw := by
  cases strip with
  | none => cases consumed <;> exact ⟨rfl, rfl⟩
  | some pathPrefix =>
    cases consumed with
    | false => exact ⟨headLines_stripPathPrefix accepted pathPrefix, hostRaw_stripPathPrefix h pathPrefix⟩
    | true =>
      exact ⟨headLines_stripPathPrefix (h := h.consumeAuthorization) accepted pathPrefix,
        hostRaw_stripPathPrefix h.consumeAuthorization pathPrefix⟩

section Example

def plainFacts : HeadFacts := ⟨"GET".toList, "/".toList, "a".toList, none, "a".toList, none, []⟩

theorem accepted_of_text {head : Text} {facts : HeadFacts}
    (ends : findHeadEnd (Utf8.encode head ++ []) = some (Utf8.encode head).length)
    (parsed : parseHeadText head = .ok facts) : (HttpHead.ofText facts false head []).Accepted := by
  have whole := parseHead_encode head [] (by simp)
  rw [parsed] at whole
  exact ⟨ends, whole⟩

def listedText : Text :=
  "GET / HTTP/1.1\nHost: a\nConnection: X-B, close\nX-B: 1\nTE: trailers\nX-C: 2\n\n".toList

def listedHead : HttpHead := .ofText plainFacts false listedText []

theorem hopByHop_fields_removed_listed :
    listedHead.Accepted ∧
      listedHead.headerLines.filter (fun line =>
        !listedHead.replaced none (lineName line) && !listedHead.endsHere (lineName line)) =
          ["Host: a".toList, "X-C: 2".toList] ∧
      listedHead.rewriteForProxy (.v4 .localhost) "http".toList none "t".toList =
        Utf8.encode (crlfLines (requestLine listedText ::
          (["Host: a".toList, "X-C: 2".toList] ++
            (listedHead.pushedHeaders (.v4 .localhost) "http".toList none "t".toList
              (listedHead.rewriteScan none)).map headerText ++ [[]]))) ++ [] := by
  -- a list of characters is evaluated much faster than the literal
  have text : listedText = _ := String.toList_ofList
  have accepted : listedHead.Accepted := accepted_of_text (by rw [text]; decide +kernel) (by rw [text]; decide +kernel)
  have lists : listedHead.FirstListsAll none := by
    unfold HttpHead.FirstListsAll listedHead
    rw [text]
    decide +kernel
  have kept : listedHead.headerLines.filter (fun line =>
      !listedHead.replaced none (lineName line) && !listedHead.endsHere (lineName line)) =
        ["Host: a".toList, "X-C: 2".toList] := by
    unfold listedHead
    rw [text]
    decide +kernel
  have unfolded : listedHead.continuations = [] := by
    unfold listedHead
    rw [text]
    decide +kernel
  have whole := (hopByHop_fields_removed accepted unfolded (.v4 .localhost) "http".toList "t".toList).mpr lists
  rw [kept] at whole
  exact ⟨accepted, kept, whole⟩

def twiceListedText : Text :=
  "GET / HTTP/1.1\nHost: a\nConnection: close\nConnection: X-B\nX-B: 1\nClose: 2\n\n".toList

def twiceListedHead : HttpHead := .ofText plainFacts false twiceListedText []

/-- A field that only the second `Connection` field lists goes upstream, and so does a listed field `Close`. -/
theorem hopByHop_fields_kept :
    twiceListedHead.Accepted ∧ twiceListedHead.continuations = [] ∧
      twiceListedHead.listedNames = ["close".toList, "x-b".toList] ∧
      twiceListedHead.endsHere "x-b".toList = true ∧ twiceListedHead.endsHere "close".toList = true ∧
      (wireLines (twiceListedHead.rewriteForProxy (.v4 .localhost) "http".toList none "t".toList)).take 3 =
        ["Host: a".toList, "X-B: 1".toList, "Close: 2".toList] := by
  have text : twiceListedText = _ := String.toList_ofList
  rw [wireLines_rewritten (rewrittenLines_clean _ (by decide) (by decide) (by decide) (by simp))]
  unfold twiceListedHead
  rw [text]
  exact ⟨accepted_of_text (by decide +kernel) (by decide +kernel), by decide +kernel, by decide +kernel,
    by decide +kernel, by decide +kernel, by decide +kernel⟩

end Example

section Appended

theorem fieldValues_headerText {headers : List (Text × Text)} (plain : ∀ header ∈ headers, ':' ∉ header.1)
    (name : Text) :
    fieldValues name (headers.map headerText) =
      (headers.filter fun header => toAsciiLowercase (trim header.1) == name).map fun header => trim header.2 := by
  induction headers with
  | nil => rfl
  | cons header rest ih =>
    have found := field_headerText header.1 header.2 (plain header List.mem_cons_self)
    have later := ih fun other member => plain other (List.mem_cons_of_mem _ member)
    rw [List.map_cons, fieldValues_cons found, later]
    grind

theorem trim_of_mem_fieldValues {name value : Text} {lines : List Text} (member : value ∈ fieldValues name lines) :
    trim value = value := by
  obtain ⟨line, -, found⟩ := List.mem_filterMap.mp member
  obtain ⟨f, named, same⟩ := Option.bind_eq_some_iff.mp found
  obtain ⟨key, rest, -, -, trimmed⟩ := field_eq_some named
  by_cases matches_ : f.1 = name
  · grind [trim_trim]
  · grind

theorem getLast?_join {separator last : Text} (filled : last ≠ []) (values : List Text) :
    (join separator (values ++ [last])).getLast? = last.getLast? := by
  induction values with
  | nil => simp [join, List.intercalate]
  | cons value rest ih =>
    obtain ⟨next, others, shape⟩ := List.exists_cons_of_ne_nil (l := rest ++ [last]) (by simp)
    rw [List.cons_append, shape, join_cons_cons, ← shape, ← List.append_assoc, List.getLast?_append, ih,
      List.getLast?_eq_some_getLast filled, Option.some_or]

theorem trim_join {values : List Text} {last : Text} (trimmed : ∀ value ∈ values, trim value = value)
    (solid : ∀ c ∈ last, isWhitespace c = false) (filled : last ≠ []) :
    trim (join ", ".toList (values ++ [last])) = join ", ".toList (values ++ [last]) := by
  refine trim_eq_self_of_ends (fun c first => ?_) fun c isLast => ?_
  · cases values with
    | nil =>
      simp only [List.nil_append, join, List.intercalate, List.intersperse_singleton, List.flatten_cons,
        List.flatten_nil, List.append_nil] at first
      exact solid c (List.mem_of_head? first)
    | cons value rest =>
      obtain ⟨next, others, shape⟩ := List.exists_cons_of_ne_nil (l := rest ++ [last]) (by simp)
      rw [List.cons_append, shape, join_cons_cons, List.head?_append] at first
      cases opening : value.head? with
      | none =>
        rw [opening, Option.none_or] at first
        cases first
        decide
      | some d => grind [List.mem_cons_self, solid_head?_trim]
  · grind [getLast?_join]

variable (h : HttpHead) (clientIp : IpAddr) (scheme : Text) (upstreamHost : Option Text) (loopToken : Text)
  (s : RewriteScan)

theorem pushedHeaders_colon :
    ∀ header ∈ h.pushedHeaders clientIp scheme upstreamHost loopToken s, ':' ∉ header.1 := by
  intro header member
  grind [pushedNames_plain, pushedHeaders_name]

theorem pushed_values (pushed : List Text)
    (lines : pushed = (h.pushedHeaders clientIp scheme upstreamHost loopToken s).map headerText) :
    fieldValues forwardedForHeader pushed = [trim (join ", ".toList (s.xffValues ++ [clientIp.display]))] ∧
      fieldValues "x-forwarded-host".toList pushed = [trim h.hostRaw] ∧
      fieldValues "x-forwarded-proto".toList pushed = [trim scheme] ∧
      fieldValues forwardedHeader pushed = [trim (join ", ".toList (s.forwardedValues ++
        [forwardedFor clientIp ++ ";host=".toList ++ h.hostRaw ++ ";proto=".toList ++ scheme]))] ∧
      fieldValues connectionHeader pushed = [if h.upgradeRequested then "upgrade".toList else "close".toList] ∧
      fieldValues loopTokenHeader pushed = [trim loopToken] ∧
      fieldValues "authorization".toList pushed = [] := by
  subst lines
  simp only [fieldValues_headerText (pushedHeaders_colon h clientIp scheme upstreamHost loopToken s)]
  have option : trim (if h.upgradeRequested then "upgrade".toList else "close".toList) =
      if h.upgradeRequested then "upgrade".toList else "close".toList := by
    cases h.upgradeRequested <;> decide
  cases upstreamHost with
  | none => exact ⟨rfl, rfl, rfl, rfl, congrArg (fun value => [value]) option, rfl, rfl⟩
  | some host => exact ⟨rfl, rfl, rfl, rfl, congrArg (fun value => [value]) option, rfl, rfl⟩

end Appended

section Wire

variable {h : HttpHead} {clientIp : IpAddr} {scheme : Text} {upstreamHost : Option Text} {loopToken : Text}

theorem fieldValues_output_replaced (unfolded : h.continuations = []) {name : Text}
    (replaced : h.replaced upstreamHost name = true) : fieldValues name (h.rewriteScan upstreamHost).output = [] := by
  have dropped : h.dispose upstreamHost name ≠ .keep := by
    rw [ne_eq, dispose_eq_keep, replaced]
    simp
  grind [rewriteScan_unfolded, fieldValues_survivors]

theorem replaced_of_mem {name : Text} (member : name ∈ HttpHead.replacedNames) :
    h.replaced upstreamHost name = true := by
  simp [HttpHead.replaced, member]

theorem trim_hostRaw (accepted : h.Accepted) : trim h.hostRaw = h.hostRaw := by
  obtain ⟨-, -, -, values⟩ := (parseHeadText_iff h.head h.hostRaw).mp ⟨_, accepted.facts, rfl⟩
  grind [entryValues, trim_of_mem_fieldValues]

/-- The forwarding headers and `Connection` that go upstream are this hop's, whatever the client sent. -/
theorem forwarding_fields_are_ours (accepted : h.Accepted) (unfolded : h.continuations = []) (clientIp : IpAddr)
    (scheme : Text) (upstreamHost : Option Text) (loopToken : Text) (cleanScheme : '\n' ∉ scheme)
    (cleanHost : ∀ u, upstreamHost = some u → '\n' ∉ u) (cleanToken : '\n' ∉ loopToken) :
    let seen := wireLines (h.rewriteForProxy clientIp scheme upstreamHost loopToken)
    fieldValues forwardedForHeader seen =
        [join ", ".toList (fieldValues forwardedForHeader h.headerLines ++ [clientIp.display])] ∧
      fieldValues "x-forwarded-host".toList seen = [h.hostRaw] ∧
      fieldValues "x-forwarded-proto".toList seen = [trim scheme] ∧
      fieldValues forwardedHeader seen = [trim (join ", ".toList (fieldValues forwardedHeader h.headerLines ++
        [forwardedFor clientIp ++ ";host=".toList ++ h.hostRaw ++ ";proto=".toList ++ scheme]))] ∧
      fieldValues connectionHeader seen = [if h.upgradeRequested then "upgrade".toList else "close".toList] ∧
      fieldValues "authorization".toList
        (wireLines (h.consumeAuthorization.rewriteForProxy clientIp scheme upstreamHost loopToken)) = [] := by
  have cleanRaw := newline_not_mem_hostRaw accepted.facts
  have lines := wireLines_rewritten (rewrittenLines_clean clientIp cleanRaw cleanScheme cleanToken cleanHost)
  have consumedLines := wireLines_rewritten (h := h.consumeAuthorization)
    (rewrittenLines_clean clientIp cleanRaw cleanScheme cleanToken cleanHost)
  obtain ⟨-, forValues, forwardedValues⟩ := rewriteScan_unfolded unfolded upstreamHost
  obtain ⟨isFor, isHost, isProto, isForwarded, isConnection, -, -⟩ :=
    pushed_values h clientIp scheme upstreamHost loopToken (h.rewriteScan upstreamHost) _ rfl
  obtain ⟨-, -, -, -, -, -, noCredentials⟩ := pushed_values h.consumeAuthorization clientIp scheme upstreamHost
    loopToken (h.consumeAuthorization.rewriteScan upstreamHost) _ rfl
  have ours : ∀ name ∈ HttpHead.replacedNames,
      fieldValues name (h.rewrittenLines clientIp scheme upstreamHost loopToken) =
        fieldValues name ((h.pushedHeaders clientIp scheme upstreamHost loopToken
          (h.rewriteScan upstreamHost)).map headerText) := by
    intro name member
    rw [HttpHead.rewrittenLines, fieldValues_append, fieldValues_output_replaced unfolded (replaced_of_mem member),
      List.nil_append]
  have untrimmed : trim (join ", ".toList (fieldValues forwardedForHeader h.headerLines ++ [clientIp.display])) =
      join ", ".toList (fieldValues forwardedForHeader h.headerLines ++ [clientIp.display]) :=
    trim_join (fun _ member => trim_of_mem_fieldValues member) clientIp.solid_display clientIp.display_ne_nil
  refine ⟨?_, ?_, ?_, ?_, ?_, ?_⟩
  · rw [lines, ours _ (by decide), isFor, forValues, untrimmed]
  · rw [lines, ours _ (by decide), isHost, trim_hostRaw accepted]
  · rw [lines, ours _ (by decide), isProto]
  · rw [lines, ours _ (by decide), isForwarded, forwardedValues]
  · rw [lines, ours _ (by decide), isConnection]
  · have consumed : h.consumeAuthorization.replaced upstreamHost "authorization".toList = true := by
      simp [HttpHead.replaced, HttpHead.consumeAuthorization]
    rw [consumedLines, HttpHead.rewrittenLines, fieldValues_append, noCredentials,
      fieldValues_output_replaced (h := h.consumeAuthorization) unfolded consumed, List.nil_append]

end Wire

section Example

def spoofedText : Text :=
  "GET / HTTP/1.1\nHost: a\nX-Forwarded-For: ::1\nConnection: x-forwarded-for\nauthorization: x\n\n".toList

def spoofedHead : HttpHead := .ofText { plainFacts with authorization := some "x".toList } false spoofedText []

theorem forwarding_fields_are_ours_spoofed :
    spoofedHead.Accepted ∧
      fieldValues forwardedForHeader
        (wireLines (spoofedHead.rewriteForProxy (.v4 .localhost) "https".toList (some "b".toList) "t".toList)) =
          ["::1, 127.0.0.1".toList] ∧
      fieldValues "authorization".toList (wireLines
        (spoofedHead.consumeAuthorization.rewriteForProxy (.v4 .localhost) "https".toList (some "b".toList)
          "t".toList)) = [] := by
  have text : spoofedText = _ := String.toList_ofList
  have accepted : spoofedHead.Accepted := accepted_of_text (by rw [text]; decide +kernel) (by rw [text]; decide +kernel)
  have unfolded : spoofedHead.continuations = [] := by
    unfold spoofedHead
    rw [text]
    decide +kernel
  have sent : join ", ".toList (fieldValues forwardedForHeader spoofedHead.headerLines ++ [(IpAddr.v4 .localhost).display]) =
      "::1, 127.0.0.1".toList := by
    unfold spoofedHead
    rw [text]
    decide +kernel
  have cleanHost : ∀ u, some "b".toList = some u → '\n' ∉ u := by
    intro u named
    cases named
    decide
  obtain ⟨forwardedFor, -, -, -, -, consumed⟩ := forwarding_fields_are_ours accepted unfolded (.v4 .localhost)
    "https".toList (some "b".toList) "t".toList (by decide) cleanHost (by decide)
  grind

end Example

end TlsProxy.Http
