import TlsProxy.Http.Dispatch
import TlsProxy.Http.ForwardedFields
import TlsProxy.Lib.Checks
import TlsProxy.Net.HelloCache

/-! Each hop appends a fresh token to those it has received and remembers it for a
while, so that a request that comes back is recognized. -/
namespace TlsProxy.Http
open Text

def tokensOf (value : Text) : List Text := (commaTokens value).filter fun token => !token.isEmpty

theorem splitOn_append_of_ne {c d : Char} (other : d ≠ c) (t : Text) :
    ∃ front last, t.splitOn c = front ++ [last] ∧ (t ++ [d]).splitOn c = front ++ [last ++ [d]] := by
  induction t with
  | nil => exact ⟨[], [], rfl, by simp [List.splitOn_cons_eq_if_modifyHead, other]⟩
  | cons a rest ih =>
    obtain ⟨front, last, before, after⟩ := ih
    rw [List.cons_append, List.splitOn_cons_eq_if_modifyHead, List.splitOn_cons_eq_if_modifyHead, before, after]
    by_cases same : a = c
    · grind
    · cases front with
      | nil => exact ⟨[], a :: last, by simp [same], by simp [same]⟩
      | cons first others => exact ⟨(a :: first) :: others, last, by simp [same], by simp [same]⟩

theorem commaTokens_cons_whitespace {c : Char} (blank : isWhitespace c = true) (t : Text) :
    commaTokens (c :: t) = commaTokens t := by
  have other : c ≠ ',' := by
    rintro rfl
    cases blank
  rw [commaTokens, commaTokens, List.splitOn_cons_eq_if_modifyHead, if_neg (by simpa using other)]
  cases t.splitOn ',' with
  | nil => rfl
  | cons first rest => simp [trim_cons_whitespace blank]

theorem commaTokens_append_whitespace {c : Char} (blank : isWhitespace c = true) (t : Text) :
    commaTokens (t ++ [c]) = commaTokens t := by
  have other : c ≠ ',' := by
    rintro rfl
    cases blank
  obtain ⟨front, last, before, after⟩ := splitOn_append_of_ne other t
  grind [commaTokens, trim_append_whitespace]

theorem commaTokens_trim (t : Text) : commaTokens (trim t) = commaTokens t := by
  have started : commaTokens (trimStartMatches isWhitespace t) = commaTokens t := by
    induction t with
    | nil => rfl
    | cons c rest ih =>
      by_cases blank : isWhitespace c = true
      · grind [commaTokens_cons_whitespace, trimStartMatches, List.dropWhile_cons_of_pos]
      · rw [trimStartMatches, List.dropWhile_cons_of_neg blank]
  rw [← started, trim]
  generalize trimStartMatches isWhitespace t = rest
  induction rest using List.reverseRecOn with
  | nil => rfl
  | append_singleton front c ih =>
    by_cases blank : isWhitespace c = true
    · grind [commaTokens_append_whitespace, trimEndMatches, List.rdropWhile_concat_pos]
    · rw [trimEndMatches, List.rdropWhile_concat_neg _ _ _ blank]

theorem headerLine_loopTokens {s next : HeaderScan} {line key value : Text} (named : field line = some (key, value))
    (read : headerLine s line = .ok next) :
    next.loopTokens = s.loopTokens ++ if key = loopTokenHeader then tokensOf value else [] := by
  obtain ⟨name, rest, found, rfl, rfl⟩ := field_eq_some named
  have same : ∀ header, eqIgnoreAsciiCase (trim name) header = true →
      toAsciiLowercase (trim name) = toAsciiLowercase header := fun header => eqIgnoreAsciiCase_iff.mp
  simp only [headerLine, found] at read
  split at read
  · rename_i host
    have other : toAsciiLowercase (trim name) ≠ loopTokenHeader := by
      rw [same _ host]
      decide
    split at read
    · cases read
    · cases read
      simp [other]
  · split at read
    · rename_i credentials
      have other : toAsciiLowercase (trim name) ≠ loopTokenHeader := by
        rw [same _ credentials]
        decide
      cases read
      simp [other]
    · split at read
      · rename_i isToken
        have key : toAsciiLowercase (trim name) = loopTokenHeader := (same _ isToken).trans (by decide)
        grind [tokensOf, commaTokens_trim]
      · rename_i notToken
        have other : toAsciiLowercase (trim name) ≠ loopTokenHeader := by
          intro key
          exact notToken (eqIgnoreAsciiCase_iff.mpr (key.trans (by decide)))
        cases read
        simp [other]

theorem entries_loopTokens {s last : HeaderScan} {entries : List Entry} {reject : Text}
    (read : entries.foldlM (Folded.scanEntry headerLine HeaderScan.lastWasHost reject) s = .ok last) :
    last.loopTokens = s.loopTokens ++ (entryValues loopTokenHeader entries).flatMap tokensOf := by
  induction entries generalizing s with
  | nil =>
    cases read
    simp [entryValues]
  | cons e rest ih =>
    rw [List.foldlM_cons] at read
    obtain ⟨next, entry, later⟩ := Checks.bind_eq_ok.mp read
    obtain ⟨opened, line, checked⟩ := Checks.bind_eq_ok.mp entry
    have same : next = opened := by grind
    subst same
    cases named : field e.line with
    | none => grind [headerLine_unnamed]
    | some f =>
      rw [ih later, headerLine_loopTokens named line, entryValues, entryValues, List.map_cons,
        fieldValues_cons named, List.append_assoc, List.flatMap_append]
      congr 2
      split <;> simp

theorem parseHeadText_loopTokens {head : Text} {facts : HeadFacts} (accepted : parseHeadText head = .ok facts) :
    facts.loopTokens = (entryValues loopTokenHeader (entriesOf (headLines head).tail)).flatMap tokensOf := by
  obtain ⟨scan, -, scanned, -, -, -, tokens⟩ := parseHeadText_eq_ok.mp accepted
  rw [parseHeaderLines, Folded.scan_eq_foldlM] at scanned
  split at scanned
  · cases scanned
  · rw [tokens, entries_loopTokens scanned]
    rfl

structure Hop where
  clientIp : IpAddr
  scheme : Text
  upstreamHost : Option Text
  token : Text
  consumed : Bool := false
  strip : Option Text := none
  cleanScheme : '\n' ∉ scheme
  cleanHost : ∀ u, upstreamHost = some u → '\n' ∉ u
  filled : token ≠ []
  /-- A minted token is a hexadecimal number. -/
  minted : ∀ c ∈ token, c ≠ ',' ∧ isWhitespace c = false

namespace Hop

def sent (hop : Hop) (h : HttpHead) : Text :=
  (prepare hop.consumed hop.strip h).rewrittenHead hop.clientIp hop.scheme hop.upstreamHost hop.token

/-- The next hop has accepted `next` from a stream that starts with what this one has written. -/
def Forwards (hop : Hop) (h next : HttpHead) : Prop :=
  next.Accepted ∧ ∃ rest, next.buffered <+: Utf8.encode (hop.sent h) ++ rest

theorem tokensOf_token (hop : Hop) : tokensOf (trim hop.token) = [hop.token] := by
  have solid : ∀ c ∈ hop.token, isWhitespace c = false := fun c member => (hop.minted c member).2
  have single : hop.token.splitOn ',' = [hop.token] :=
    List.splitOn_eq_singleton fun member => (hop.minted ',' member).1 rfl
  simp [tokensOf, commaTokens, trim_eq_self solid, single, hop.filled]

end Hop

theorem loopTokenHeader_plain : loopTokenHeader ∉ ruledNames := by decide

section Step

variable {hop : Hop} {h next : HttpHead}

theorem connectionTokens_prepare (accepted : h.Accepted) (consumed : Bool) (strip : Option Text) :
    (prepare consumed strip h).connectionTokens = h.connectionTokens := by
  simp only [HttpHead.connectionTokens, headerValue_eq_firstValue, visibleFields_eq_tail,
    (prepare_fields accepted.facts consumed strip).1]

theorem clean_sent (accepted : h.Accepted) (hop : Hop) :
    ∀ line ∈ (prepare hop.consumed hop.strip h).rewrittenLines hop.clientIp hop.scheme hop.upstreamHost hop.token,
      '\n' ∉ line ∧ line ≠ [] := by
  have raw : '\n' ∉ (prepare hop.consumed hop.strip h).hostRaw := by
    grind [prepare_fields, HttpHead.Accepted.facts, newline_not_mem_hostRaw]
  have token : '\n' ∉ hop.token := newline_not_mem_of_solid fun c member => (hop.minted c member).2
  exact rewrittenLines_clean hop.clientIp raw hop.cleanScheme token hop.cleanHost

theorem findHeadEnd_sent (accepted : h.Accepted) (hop : Hop) (body : List UInt8) :
    findHeadEnd (Utf8.encode (hop.sent h) ++ body) = some (Utf8.encode (hop.sent h)).length :=
  findHeadEnd_crlfLines _ _ _ (newline_not_mem_requestLine _) (clean_sent accepted hop)

theorem head_of_forwards (accepted : h.Accepted) (forwards : hop.Forwards h next) : next.head = hop.sent h := by
  obtain ⟨⟨found, -⟩, rest, more, stream⟩ := forwards
  have ends := findHeadEnd_sent accepted hop rest
  have same : next.headLen = (Utf8.encode (hop.sent h)).length := by grind [findHeadEnd_append]
  apply Utf8.encode_inj
  grind [HttpHead.bound, List.take_left, HttpHead.encode_head]

theorem loopTokens_forwarded (accepted : h.Accepted) (forwards : hop.Forwards h next) :
    next.loopTokens = (if loopTokenHeader ∈ h.connectionTokens then [] else h.loopTokens) ++ [hop.token] := by
  obtain ⟨pushed, entries, lines, -⟩ := entriesOf_rewrittenHead (clean_sent accepted hop)
  obtain ⟨-, -, -, -, -, values, -⟩ := pushed_values _ _ _ _ _ _ _ lines
  have kept : (prepare hop.consumed hop.strip h).dispose hop.upstreamHost loopTokenHeader = .keep ↔
      loopTokenHeader ∉ h.connectionTokens := by
    have other : loopTokenHeader ≠ hostHeader := by decide
    rw [dispose_keep_iff loopTokenHeader_plain, connectionTokens_prepare accepted]
    simp only [other, false_implies, true_and]
  have read := parseHeadText_loopTokens forwards.1.facts
  have sent : entryValues loopTokenHeader pushed = [trim hop.token] := values
  rw [head_of_forwards accepted forwards, Hop.sent, entries, entryValues_append, entryValues_survivors, sent,
    (prepare_fields accepted.facts hop.consumed hop.strip).1, List.flatMap_append, List.flatMap_singleton,
    hop.tokensOf_token] at read
  rw [read, parseHeadText_loopTokens accepted.facts]
  by_cases listed : loopTokenHeader ∈ h.connectionTokens
  · rw [if_pos listed, if_neg (fun keep => kept.mp keep listed)]
    rfl
  · grind

def HttpHead.Transparent (h : HttpHead) : Prop := ∀ line ∈ h.continuations, ':' ∉ line

theorem headerLines_forwarded (accepted : h.Accepted) (forwards : hop.Forwards h next) :
    next.headerLines =
      (prepare hop.consumed hop.strip h).rewrittenLines hop.clientIp hop.scheme hop.upstreamHost hop.token := by
  have clean := clean_sent accepted hop
  rw [HttpHead.headerLines, head_of_forwards accepted forwards, Hop.sent, headLines_rewrittenHead clean, List.tail_cons,
    List.takeWhile_append_of_pos]
  · simp
  · grind

theorem mem_headerLines_of_output {line : Text} (upstreamHost : Option Text)
    (kept : line ∈ (h.rewriteScan upstreamHost).output) : line ∈ h.headerLines := by
  rw [HttpHead.rewriteScan, rewriteLines_output] at kept
  have inside : line ∈ (Folded.group List.isEmpty isFold (headLines h.head).tail).lines := by
    simp only [List.nil_append, Bool.false_eq_true, ↓reduceIte, List.mem_append] at kept
    rcases kept with leading | later
    · exact List.mem_append_left _ leading
    · obtain ⟨e, survivor, inEntry⟩ := List.mem_flatMap.mp later
      exact List.mem_append_right _ (List.mem_flatMap.mpr ⟨e, List.mem_of_mem_filter survivor, inEntry⟩)
  rwa [Folded.lines_group] at inside

theorem headerLines_prepare (accepted : h.Accepted) (consumed : Bool) (strip : Option Text) :
    (prepare consumed strip h).headerLines = h.headerLines := by
  rw [HttpHead.headerLines, (prepare_fields accepted.facts consumed strip).1, HttpHead.headerLines]

theorem transparent_forwarded (accepted : h.Accepted) (transparent : h.Transparent) (forwards : hop.Forwards h next) :
    next.Transparent := by
  intro line member
  obtain ⟨inLines, folded⟩ := List.mem_filter.mp member
  rw [headerLines_forwarded accepted forwards] at inLines
  rcases List.mem_append.mp inLines with kept | pushed
  · have received := mem_headerLines_of_output hop.upstreamHost kept
    rw [headerLines_prepare accepted] at received
    exact transparent line (List.mem_filter.mpr ⟨received, folded⟩)
  · obtain ⟨header, inHeaders, rfl⟩ := List.mem_map.mp pushed
    have name := pushedNames_plain _ (pushedHeaders_name _ _ _ _ _ _ inHeaders)
    grind [headerText_opens]

/-- The only `Connection` field that the next hop sees is the one this hop has written. -/
theorem connectionTokens_forwarded (accepted : h.Accepted) (transparent : h.Transparent)
    (forwards : hop.Forwards h next) :
    next.connectionTokens = ["close".toList] ∨ next.connectionTokens = ["upgrade".toList] := by
  have oneView : next.visibleFields = next.parsedFields := by
    rw [forwards.1.visible, parsedFields_eq]
    exact (filterMap_field_eq_iff next.headerLines).mpr (transparent_forwarded accepted transparent forwards)
  obtain ⟨pushed, entries, lines, -⟩ := entriesOf_rewrittenHead (clean_sent accepted hop)
  obtain ⟨-, -, -, -, values, -⟩ := pushed_values _ _ _ _ _ _ _ lines
  have dropped : (prepare hop.consumed hop.strip h).dispose hop.upstreamHost connectionHeader ≠ .keep := by
    rw [ne_eq, dispose_eq_keep, replaced_of_mem (by decide)]
    simp
  have sent : entryValues connectionHeader (entriesOf (headLines next.head).tail) =
      [if (prepare hop.consumed hop.strip h).upgradeRequested then "upgrade".toList else "close".toList] := by
    rw [head_of_forwards accepted forwards, Hop.sent, entries, entryValues_append, entryValues_survivors,
      if_neg dropped, List.nil_append]
    exact values
  have seen : next.headerValue "connection".toList =
      some (if (prepare hop.consumed hop.strip h).upgradeRequested then "upgrade".toList else "close".toList) := by
    have lower : toAsciiLowercase "connection".toList = connectionHeader := by decide
    have first := firstValue_filterMap "connection".toList
      ((entriesOf (headLines next.head).tail).map Folded.Entry.line)
    rw [lower, ← entryValues, sent, List.head?_singleton, List.filterMap_map] at first
    rw [headerValue_eq_firstValue, oneView]
    exact first
  simp only [HttpHead.connectionTokens, seen]
  cases (prepare hop.consumed hop.strip h).upgradeRequested with
  | false => exact .inl (by decide)
  | true => exact .inr (by decide)

/-- A hop passes all tokens on unless the first visible `Connection` field lists their header. -/
theorem loopTokens_passed (accepted : h.Accepted) (unlisted : loopTokenHeader ∉ h.firstListed)
    (forwards : hop.Forwards h next) : next.loopTokens = h.loopTokens ++ [hop.token] := by
  have absent : loopTokenHeader ∉ h.connectionTokens :=
    fun listed => unlisted ((mem_firstListed accepted).mpr ⟨listed, by decide⟩)
  rw [loopTokens_forwarded accepted forwards, if_neg absent]

theorem unlisted_forwarded (accepted : h.Accepted) (transparent : h.Transparent) (forwards : hop.Forwards h next) :
    loopTokenHeader ∉ next.firstListed := by
  intro listed
  have inTokens := ((mem_firstListed forwards.1).mp listed).1
  rcases connectionTokens_forwarded accepted transparent forwards with close | upgrade
  · rw [close] at inTokens
    exact absurd inTokens (by decide)
  · rw [upgrade] at inTokens
    exact absurd inTokens (by decide)

theorem parses_sent (accepted : h.Accepted) (unstripped : hop.strip = none)
    (hostStays : hop.upstreamHost = none → hostHeader ∉ h.firstListed)
    (plainHost : ∀ u, hop.upstreamHost = some u → (splitHostPort (trim u)).isOk = true) :
    ∃ facts, parseHeadText (hop.sent h) = .ok facts := by
  have clean := clean_sent accepted hop
  obtain ⟨pushed, entries, lines, unfolded⟩ := entriesOf_rewrittenHead clean
  obtain ⟨request, hostPort, named, hosts⟩ := (parseHeadText_iff h.head h.hostRaw).mp ⟨_, accepted.facts, rfl⟩
  have line : requestLine (hop.sent h) = requestLine h.head := by
    rw [Hop.sent, requestLine_rewrittenHead clean, unstripped]
    cases hop.consumed <;> rfl
  have fields := (prepare_fields accepted.facts hop.consumed hop.strip).1
  have values := entryValues_rewritten lines hostHeader (by decide)
  rw [← fields] at named hosts
  have outNamed := namedEntries_rewritten named lines unfolded
  rw [← entries] at outNamed values
  rw [connectionTokens_prepare accepted, hosts] at values
  cases given : hop.upstreamHost with
  | none =>
    have stays : hostHeader ∉ h.connectionTokens :=
      fun listed => hostStays given ((mem_firstListed accepted).mpr ⟨listed, by decide⟩)
    simp only [given, implies_true, stays, not_false_eq_true, and_self, ↓reduceIte, Option.toList_none, List.map_nil,
      List.append_nil] at values
    grind [parseHeadText_iff, Hop.sent]
  | some u =>
    simp only [given, reduceCtorEq, imp_false, not_true_eq_false, false_and, ↓reduceIte, Option.toList_some,
      List.map_cons, List.map_nil, List.nil_append] at values
    grind [parseHeadText_iff, Hop.sent]

end Step

/-- A request has gone from hop to hop; `last` is the head that the last of them has sent, as it was received. -/
inductive Chain : HttpHead → List Hop → HttpHead → Prop
  | nil (h : HttpHead) : Chain h [] h
  | cons {h next last : HttpHead} {hop : Hop} {hops : List Hop} (forwards : hop.Forwards h next)
      (later : Chain next hops last) : Chain h (hop :: hops) last

theorem Chain.loopTokens {h last : HttpHead} {hops : List Hop} (chain : Chain h hops last) (accepted : h.Accepted)
    (transparent : h.Transparent) (unlisted : loopTokenHeader ∉ h.firstListed) :
    last.loopTokens = h.loopTokens ++ hops.map Hop.token := by
  induction chain with
  | nil h => simp
  | cons forwards later ih =>
    -- the hop's own Connection field is the only one from here on
    have next := unlisted_forwarded accepted transparent forwards
    rw [ih forwards.1 (transparent_forwarded accepted transparent forwards) next,
      loopTokens_passed accepted unlisted forwards, List.map_cons, List.append_assoc]
    rfl

/-- The check of `admit`: each token is looked up, and a lookup consumes the entry. -/
def requestTokensLooped (clock : Text → Nat) : HelloCache.Cache Text → List Text → Bool × HelloCache.Cache Text
  | cache, [] => (false, cache)
  | cache, token :: rest =>
    if (cache.isLooped token (clock token)).1 then (true, (cache.isLooped token (clock token)).2)
    else requestTokensLooped clock (cache.isLooped token (clock token)).2 rest

theorem isLooped_after {cache : HelloCache.Cache Text} {token : Text} {now : Nat}
    (missed : (cache.isLooped token now).1 = false) (other : Text) (clock : Text → Nat) (same : clock token = now) :
    ((cache.isLooped token now).2.isLooped other (clock other)).1 = (cache.isLooped other (clock other)).1 := by
  by_cases equal : other = token
  · grind [HelloCache.Cache.isLooped, AList.lookup_erase]
  · simp [HelloCache.Cache.isLooped, AList.lookup_erase_ne equal]

theorem requestTokensLooped_eq (clock : Text → Nat) (cache : HelloCache.Cache Text) (tokens : List Text) :
    (requestTokensLooped clock cache tokens).1 = tokens.any fun token => (cache.isLooped token (clock token)).1 := by
  induction tokens generalizing cache with
  | nil => rfl
  | cons token rest ih =>
    rw [requestTokensLooped, List.any_cons]
    cases hit : (cache.isLooped token (clock token)).1 with
    | true => rfl
    | false =>
      rw [if_neg (by simp), ih, Bool.false_or]
      simp only [isLooped_after hit _ clock rfl]

theorem admitRequest_looped {looped : Text → Bool} {head : HttpHead} {token : Text} (carried : token ∈ head.loopTokens)
    (hit : looped token = true) (expectedSni : Option Text) :
    admitRequest looped head expectedSni = .error "detected self-connection loop".toList := by
  have found : head.loopTokens.any looped = true := List.any_eq_true.mpr ⟨token, carried, hit⟩
  simp only [admitRequest, found, ↓reduceIte]

theorem forwards_of_text {h : HttpHead} {hop : Hop} {facts : HeadFacts} (accepted : h.Accepted)
    (parsed : parseHeadText (hop.sent h) = .ok facts) (body : List UInt8) :
    hop.Forwards h (.ofText facts false (hop.sent h) body) := by
  have whole := parseHead_encode (hop.sent h) body (by simp)
  rw [parsed] at whole
  exact ⟨⟨findHeadEnd_sent accepted hop body, whole⟩, body, List.prefix_refl _⟩

/-- One hop adds its token to those received exactly when they are not listed or there are none. Then the token is
found again after any chain of further hops, and closes the loop when the request is back while it is remembered. -/
theorem loop_tokens_accumulate {h : HttpHead} (accepted : h.Accepted) :
    (∀ (hop : Hop) next, hop.Forwards h next →
      (next.loopTokens = h.loopTokens ++ [hop.token] ↔ loopTokenHeader ∉ h.firstListed ∨ h.loopTokens = [])) ∧
    (h.Transparent → loopTokenHeader ∉ h.firstListed →
      (∀ hop : Hop, hop.consumed = false → hop.strip = none →
        (hop.upstreamHost = none → hostHeader ∉ h.firstListed) →
        (∀ u, hop.upstreamHost = some u → (splitHostPort (trim u)).isOk = true) →
        ∃ headLen, ∃ found : findHeadEnd (h.rewriteForProxy hop.clientIp hop.scheme hop.upstreamHost hop.token) =
          some headLen, ∃ next,
          parseHead (h.rewriteForProxy hop.clientIp hop.scheme hop.upstreamHost hop.token) headLen
            (findHeadEnd_le found) = .ok next ∧ hop.Forwards h next ∧ next.loopTokens = h.loopTokens ++ [hop.token]) ∧
      ∀ hops last, Chain h hops last →
        last.loopTokens = h.loopTokens ++ hops.map Hop.token ∧
        ∀ hop ∈ hops, ∀ (ttl : Nat) (ops : List (HelloCache.Op Text)) (clock : Text → Nat) (expectedSni : Option Text),
          HelloCache.Timely ops → (∀ op ∈ ops, op.time ≤ clock hop.token) →
          (∃ since, HelloCache.lastOn hop.token ops = some (.insert hop.token since) ∧ clock hop.token - since < ttl) →
          (requestTokensLooped clock (HelloCache.run ttl ops) last.loopTokens).1 = true ∧
          admitRequest (fun token => ((HelloCache.run ttl ops).isLooped token (clock token)).1) last expectedSni =
            .error "detected self-connection loop".toList) := by
  refine ⟨fun hop next forwards => ?_, fun transparent unlisted => ⟨?_, ?_⟩⟩
  · rw [loopTokens_forwarded accepted forwards, mem_firstListed accepted, List.append_cancel_right_eq]
    have filled : loopTokenHeader ≠ [] := by decide
    grind
  · intro hop unconsumed unstripped hostStays plainHost
    have sent : h.rewriteForProxy hop.clientIp hop.scheme hop.upstreamHost hop.token =
        Utf8.encode (hop.sent h) ++ h.bodyPrefix := by
      rw [Hop.sent, unconsumed, unstripped]
      rfl
    obtain ⟨facts, parsed⟩ := parses_sent accepted unstripped hostStays plainHost
    have whole := parseHead_encode (hop.sent h) h.bodyPrefix (by simp)
    rw [parsed] at whole
    have forwards := forwards_of_text accepted parsed h.bodyPrefix
    rw [sent]
    exact ⟨_, findHeadEnd_sent accepted hop _, _, whole, forwards, loopTokens_passed accepted unlisted forwards⟩
  · intro hops last chain
    have tokens := chain.loopTokens accepted transparent unlisted
    refine ⟨tokens, ?_⟩
    intro hop member ttl ops clock expectedSni timely later remembered
    have carried : hop.token ∈ last.loopTokens := by grind
    have hit : ((HelloCache.run ttl ops).isLooped hop.token (clock hop.token)).1 = true :=
      ((HelloCache.inv_run ttl timely).isLooped_iff hop.token later).mpr remembered
    grind [admitRequest_looped, requestTokensLooped_eq]

section Example

def plainHop (token : Text) (filled : token ≠ []) (minted : ∀ c ∈ token, c ≠ ',' ∧ isWhitespace c = false) : Hop where
  clientIp := .v4 .localhost
  scheme := "http".toList
  upstreamHost := none
  token := token
  cleanScheme := by decide
  cleanHost := by simp
  filled := filled
  minted := minted

def firstHop : Hop := plainHop "aa".toList (by decide) (List.forall_iff_forall_mem.mp (by decide))

def secondHop : Hop := plainHop "bb".toList (by decide) (List.forall_iff_forall_mem.mp (by decide))

def carriedText : Text := "GET / HTTP/1.1\nHost: a\nX-Tlsproxy-Rid: aa\n\n".toList

def carriedHead : HttpHead := .ofText { plainFacts with loopTokens := ["aa".toList] } false carriedText []

theorem loop_tokens_accumulate_carried :
    ∃ last, Chain carriedHead [secondHop] last ∧ last.loopTokens = ["aa".toList, "bb".toList] ∧
      admitRequest (fun token => ((HelloCache.run 10 [.insert "bb".toList 0]).isLooped token 3).1) last none =
        .error "detected self-connection loop".toList := by
  have accepted : carriedHead.Accepted := accepted_of_text (by decide +kernel) (by decide +kernel)
  have transparent : carriedHead.Transparent := by
    unfold HttpHead.Transparent
    decide +kernel
  obtain ⟨oneHop, chains⟩ := (loop_tokens_accumulate accepted).2 transparent (by decide +kernel)
  obtain ⟨headLen, found, last, parsed, forwards, tokens⟩ := oneHop secondHop rfl rfl (fun _ => by decide +kernel) nofun
  obtain ⟨-, closes⟩ := chains [secondHop] last (.cons forwards (.nil last))
  refine ⟨last, .cons forwards (.nil last), tokens, ?_⟩
  exact (closes secondHop List.mem_cons_self 10 [.insert "bb".toList 0] (fun _ => 3) none (List.pairwise_singleton _ _)
    (by simp [HelloCache.Op.time]) ⟨0, by decide +kernel, by decide⟩).2

/-- A continuation line that `header_value` takes for a `Connection` field, at every hop. -/
def smuggledText : Text := "GET / HTTP/1.1\nHost: a\nX-A: b\n Connection: x-tlsproxy-rid\n\n".toList

def smuggledHead : HttpHead := .ofText plainFacts false smuggledText []

/-- The second hop drops the token of the first, which admits the request when it comes back. -/
theorem smuggled_connection_drops_tokens :
    smuggledHead.Accepted ∧
      ∃ last, Chain smuggledHead [firstHop, secondHop] last ∧ last.loopTokens = ["bb".toList] ∧
        (admitRequest (fun token => ((HelloCache.run 10 [.insert "aa".toList 0]).isLooped token 3).1) last none).isOk =
          true := by
  have text : smuggledText = _ := String.toList_ofList
  have accepted : smuggledHead.Accepted :=
    accepted_of_text (by rw [text]; decide +kernel) (by rw [text]; decide +kernel)
  have parsed : parseHeadText (firstHop.sent smuggledHead) = .ok { plainFacts with loopTokens := ["aa".toList] } := by
    unfold smuggledHead
    rw [text]
    decide +kernel
  have first := forwards_of_text accepted parsed []
  have parsedLater : parseHeadText (secondHop.sent (.ofText { plainFacts with loopTokens := ["aa".toList] } false
      (firstHop.sent smuggledHead) [])) = .ok { plainFacts with loopTokens := ["bb".toList] } := by
    unfold smuggledHead
    rw [text]
    decide +kernel
  have second := forwards_of_text first.1 parsedLater []
  exact ⟨accepted, _, .cons first (.cons second (.nil _)), rfl, rfl⟩

end Example

end TlsProxy.Http
