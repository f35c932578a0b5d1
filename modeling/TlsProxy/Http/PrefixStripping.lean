import TlsProxy.Config.Validate
import TlsProxy.Http.ForwardedFields

/-! `strip_path_prefix` rebuilds the request line and moves the recorded end of the
head. -/
namespace TlsProxy.Http

open Config Text

theorem framingOfText_congr {head other : Text} (same : (headLines head).tail = (headLines other).tail) :
    framingOfText head = framingOfText other := by
  rw [framingOfText, same, framingOfText]

def targetQuery (target : Text) : Text := target.dropWhile fun c => c != '?' && c != '#'

def HttpHead.version (h : HttpHead) : Option Text := (splitAsciiWhitespace (requestLine h.head))[2]?

theorem targetPath_append_targetQuery (target : Text) : targetPath target ++ targetQuery target = target :=
  List.takeWhile_append_dropWhile

theorem targetQuery_append {before : Text} (plain : ∀ c ∈ before, (c != '?' && c != '#') = true) (after : Text) :
    targetQuery (before ++ after) = targetQuery after :=
  List.dropWhile_append_of_pos plain

theorem targetQuery_targetQuery (target : Text) : targetQuery (targetQuery target) = targetQuery target :=
  List.dropWhile_idempotent _ target

/-- What is left of a target whose path is the prefix is its query, which does not start with a slash. -/
theorem strippedTarget_of_path {pathPrefix target : Text} (path : targetPath target = trimSlashes pathPrefix)
    (queried : targetQuery target ≠ []) : (strippedTarget pathPrefix target).head? ≠ some '/' := by
  have whole : target = trimSlashes pathPrefix ++ targetQuery target := by
    rw [← path, targetPath_append_targetQuery]
  have left : strippedTarget pathPrefix target = targetQuery target := by
    rw [strippedTarget, stripPrefix_eq_some.mpr whole, Option.getD_some, if_neg (by simpa using queried)]
  intro slash
  rw [left] at slash
  have stops := List.head?_dropWhile_not (fun c => c != '?' && c != '#') target
  rw [targetQuery] at slash
  rw [slash] at stops
  exact absurd stops (by decide)

theorem strippedTarget_cases {pathPrefix target : Text} (origin : target.head? = some '/')
    (matching : pathPrefixMatches pathPrefix (targetPath target) = true)
    (unqueried : targetPath target = trimSlashes pathPrefix → targetQuery target = []) :
    targetQuery (strippedTarget pathPrefix target) = targetQuery target ∧
      (trimSlashes pathPrefix ++ strippedTarget pathPrefix target = target ∧
          (strippedTarget pathPrefix target).head? = some '/' ∨
        target = trimSlashes pathPrefix ∧ strippedTarget pathPrefix target = ['/']) := by
  have split : ∀ rest, target = trimSlashes pathPrefix ++ rest →
      strippedTarget pathPrefix target = if rest.isEmpty then ['/'] else rest := by
    intro rest whole
    rw [strippedTarget, stripPrefix_eq_some.mpr whole, Option.getD_some]
  simp only [pathPrefixMatches, Bool.or_eq_true, List.isEmpty_iff, beq_iff_eq, Option.any_eq_true] at matching
  rcases matching with (empty | exact_) | ⟨rest, found, boundary⟩
  · have same : strippedTarget pathPrefix target = target := by
      rw [split target (by rw [empty, List.nil_append]), if_neg]
      grind
    grind
  · have ends := unqueried exact_
    have whole : target = trimSlashes pathPrefix := by grind [targetPath_append_targetQuery]
    have root : strippedTarget pathPrefix target = ['/'] := by
      rw [split [] (by rw [List.append_nil]; exact whole)]
      rfl
    rw [root, ends]
    exact ⟨by decide, .inr ⟨whole, rfl⟩⟩
  · have inPath := stripPrefix_eq_some.mp found
    have whole : target = trimSlashes pathPrefix ++ (rest ++ targetQuery target) := by
      grind [targetPath_append_targetQuery]
    have first : (rest ++ targetQuery target).head? = some '/' := by grind
    have kept : strippedTarget pathPrefix target = rest ++ targetQuery target := by grind
    have plain : ∀ c ∈ rest, (c != '?' && c != '#') = true := by
      intro c member
      have inside : c ∈ targetPath target := inPath ▸ List.mem_append_right _ member
      exact List.mem_takeWhile_imp (p := fun c => c != '?' && c != '#') inside
    rw [kept]
    exact ⟨(targetQuery_append plain _).trans (targetQuery_targetQuery target), .inl ⟨whole.symm, first⟩⟩

theorem findHeadEnd_other_line {line rest : List UInt8} {n : Nat} (clean : lf ∉ line)
    (found : findHeadEnd (line ++ lf :: rest) = some n) :
    ∃ later, n = line.length + later ∧
      ∀ other, lf ∉ other → findHeadEnd (other ++ lf :: rest) = some (other.length + later) := by
  rw [findHeadEnd_line clean] at found
  split at found
  · rename_i bare
    cases found
    grind [findHeadEnd_line]
  · rename_i notBare
    split at found
    · rename_i blank
      cases found
      refine ⟨3, rfl, fun other free => ?_⟩
      rw [findHeadEnd_line free, if_neg notBare, if_pos blank]
    · rename_i notBlank
      obtain ⟨m, inRest, rfl⟩ := Option.map_eq_some_iff.mp found
      grind [findHeadEnd_line]

namespace HttpHead

variable {h : HttpHead} {pathPrefix : Text}

theorem encode_line_newline (line rest : Text) :
    Utf8.encode (line ++ '\n' :: rest) = Utf8.encode line ++ lf :: Utf8.encode rest := by
  have newline : String.utf8EncodeChar '\n' = [lf] := by decide
  rw [Utf8.encode_append, Utf8.encode_cons, newline, List.singleton_append]

theorem findHeadEnd_stripPathPrefix (accepted : h.Accepted) :
    findHeadEnd (h.stripPathPrefix pathPrefix).buffered = some (h.stripPathPrefix pathPrefix).headLen := by
  obtain ⟨line, rest, version, found, words, -⟩ := parseHeadText_firstLine accepted.facts
  obtain ⟨ending, kind, rebuilt⟩ := stripPathPrefix_head found words pathPrefix
  obtain ⟨whole, clean⟩ := splitOnce_eq_some.mp found
  obtain ⟨ends, -⟩ := accepted
  rw [h.buffered_eq, ← h.encode_head_length, whole, encode_line_newline, List.append_assoc, List.cons_append] at ends
  obtain ⟨later, length, other⟩ := findHeadEnd_other_line (lf_not_mem_encode clean) ends
  have moved := other _ (lf_not_mem_encode (newline_not_mem_rebuiltLine words kind pathPrefix))
  rw [buffered_eq, ← encode_head_length, stripPathPrefix_bodyPrefix, rebuilt, encode_line_newline, List.append_assoc,
    List.cons_append, moved]
  grind

theorem requestLine_stripPathPrefix (accepted : parseHeadText h.head = .ok h.toHeadFacts) (pathPrefix : Text) :
    ∃ version, splitAsciiWhitespace (requestLine h.head) = [h.method, h.target, version] ∧
      (stripPrefix "HTTP/1.".toList version).isSome ∧
      splitAsciiWhitespace (requestLine (h.stripPathPrefix pathPrefix).head) =
        [h.method, strippedTarget pathPrefix h.target, version] := by
  obtain ⟨line, rest, version, found, words, versioned, -⟩ := parseHeadText_firstLine accepted
  obtain ⟨ending, kind, rebuilt⟩ := stripPathPrefix_head found words pathPrefix
  obtain ⟨whole, clean⟩ := splitOnce_eq_some.mp found
  have single := newline_not_mem_rebuiltLine words kind pathPrefix
  have unended : splitAsciiWhitespace (h.rebuiltLine pathPrefix version ++ ending) =
      splitAsciiWhitespace (h.rebuiltLine pathPrefix version) := by
    rcases kind with rfl | rfl
    · rw [List.append_nil]
    · exact (splitAsciiWhitespace_append_cons (by decide) _ _).trans (List.append_nil _)
  refine ⟨version, ?_, versioned, ?_⟩
  · grind [requestLine, headLines_append_newline, splitAsciiWhitespace_stripCr]
  · rw [rebuilt, requestLine, headLines_append_newline single, List.headD_cons, splitAsciiWhitespace_stripCr, unended,
      rebuiltLine_words words]

theorem parseHeadText_stripPathPrefix (accepted : parseHeadText h.head = .ok h.toHeadFacts)
    (origin : (strippedTarget pathPrefix h.target).head? = some '/') :
    parseHeadText (h.stripPathPrefix pathPrefix).head = .ok (h.stripPathPrefix pathPrefix).toHeadFacts := by
  obtain ⟨line, rest, -, found, -⟩ := parseHeadText_firstLine accepted
  obtain ⟨version, -, versioned, words⟩ := requestLine_stripPathPrefix accepted pathPrefix
  obtain ⟨scan, -, scanned, facts⟩ := parseHeadText_eq_ok.mp accepted
  rw [stripPathPrefix_facts found]
  refine parseHeadText_eq_ok.mpr ⟨scan, validateRequestLine_eq_ok.mpr ⟨version, words, versioned, origin⟩, ?_, facts⟩
  rw [headLines_stripPathPrefix accepted, scanned]

theorem accepted_of_facts (found : findHeadEnd h.buffered = some h.headLen)
    (parsed : parseHeadText h.head = .ok h.toHeadFacts) : h.Accepted := by
  refine ⟨found, ?_⟩
  unfold parseHead
  split
  · grind [HttpHead.decoded]
  · rename_i text decoded
    obtain rfl := Option.some.inj (h.decoded.symm.trans decoded)
    rw [parsed]
    rfl

/-- A head is the given one without the prefix in its target: it is a request that is accepted again, and apart from
the target nothing has changed. -/
structure StrippedOf (h : HttpHead) (pathPrefix : Text) (stripped : HttpHead) : Prop where
  accepted : stripped.Accepted
  origin : stripped.target.head? = some '/'
  query : targetQuery stripped.target = targetQuery h.target
  target : trimSlashes pathPrefix ++ stripped.target = h.target ∨
    h.target = trimSlashes pathPrefix ∧ stripped.target = ['/']
  facts : stripped.toHeadFacts = { h.toHeadFacts with target := stripped.target }
  version : stripped.version = h.version
  fields : stripped.headerLines = h.headerLines
  framing : stripped.bodyFraming = h.bodyFraming
  body : stripped.bodyPrefix = h.bodyPrefix

end HttpHead

/-- Stripping a prefix that matches leaves the same request for the rest of the target, unless the path of the target
is the prefix itself and a query or a fragment follows. -/
theorem stripPathPrefix_keeps_request {h : HttpHead} (accepted : h.Accepted) {pathPrefix : Text}
    (matching : pathPrefixMatches pathPrefix (targetPath h.target) = true) :
    h.StrippedOf pathPrefix (h.stripPathPrefix pathPrefix) ↔
      (targetPath h.target = trimSlashes pathPrefix → targetQuery h.target = []) := by
  obtain ⟨line, rest, -, found, -, -, origin⟩ := parseHeadText_firstLine accepted.facts
  obtain ⟨version, words, -, rebuiltWords⟩ := HttpHead.requestLine_stripPathPrefix accepted.facts pathPrefix
  have facts := HttpHead.stripPathPrefix_facts found pathPrefix
  have stripped : (h.stripPathPrefix pathPrefix).target = strippedTarget pathPrefix h.target := by rw [facts]
  refine ⟨fun kept path => ?_, fun unqueried => ?_⟩
  · by_contra queried
    exact strippedTarget_of_path path queried (stripped ▸ kept.origin)
  obtain ⟨query, target⟩ := strippedTarget_cases origin matching unqueried
  have slash : (strippedTarget pathPrefix h.target).head? = some '/' := by grind
  have lines := headLines_stripPathPrefix accepted.facts pathPrefix
  exact {
    accepted := HttpHead.accepted_of_facts (HttpHead.findHeadEnd_stripPathPrefix accepted)
      (HttpHead.parseHeadText_stripPathPrefix accepted.facts slash)
    origin := by rw [stripped, slash]
    query := by rw [stripped, query]
    target := by grind
    facts := by rw [stripped, facts]
    version := by grind [HttpHead.version]
    fields := by rw [HttpHead.headerLines, lines, HttpHead.headerLines]
    framing := framingOfText_congr lines
    body := HttpHead.stripPathPrefix_bodyPrefix h pathPrefix }

section Example

def apiFacts (target : Text) : HeadFacts := ⟨"GET".toList, target, ['a'], none, ['a'], none, []⟩

def apiText (target : Text) : Text := "GET ".toList ++ target ++ " HTTP/1.1\r\nHost: a\r\n\r\n".toList

def apiHead (target : Text) : HttpHead := .ofText (apiFacts target) false (apiText target) []

theorem stripPathPrefix_keeps_request_api :
    (apiHead "/api/v1?q=1".toList).Accepted ∧ validatePrefix [] [] "/api/".toList = .ok () ∧
      ((apiHead "/api/v1?q=1".toList).stripPathPrefix "/api/".toList).target = "/v1?q=1".toList ∧
      (apiHead "/api/v1?q=1".toList).StrippedOf "/api/".toList
        ((apiHead "/api/v1?q=1".toList).stripPathPrefix "/api/".toList) := by
  have accepted : (apiHead "/api/v1?q=1".toList).Accepted := accepted_of_text (by decide +kernel) (by decide +kernel)
  exact ⟨accepted, by decide +kernel, by decide +kernel,
    (stripPathPrefix_keeps_request accepted (by decide +kernel)).mpr (by decide +kernel)⟩

/-- The query that is left of `/api?q=1` is not a target in origin form. -/
theorem stripPathPrefix_leaves_query :
    (apiHead "/api?q=1".toList).Accepted ∧ validatePrefix [] [] "/api".toList = .ok () ∧
      pathPrefixMatches "/api".toList (targetPath (apiHead "/api?q=1".toList).target) = true ∧
      ((apiHead "/api?q=1".toList).stripPathPrefix "/api".toList).target = "?q=1".toList ∧
      parseHeadText ((apiHead "/api?q=1".toList).stripPathPrefix "/api".toList).head =
        .error "only origin-form HTTP request targets are supported".toList :=
  ⟨accepted_of_text (by decide +kernel) (by decide +kernel), by decide +kernel, by decide +kernel, by decide +kernel,
    by decide +kernel⟩

end Example

end TlsProxy.Http
