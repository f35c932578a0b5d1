import TlsProxy.Http.Head

/-! `negotiate_encoding` of `static_files.rs` against the quality values of the
`Accept-Encoding` field. -/
namespace TlsProxy.Http
open Text

inductive Encoding
  | identity
  | gzip
  | zstd
deriving DecidableEq

def Encoding.token : Encoding → Text
  | .identity => "identity".toList
  | .gzip => "gzip".toList
  | .zstd => "zstd".toList

def codingName (entry : Text) : Text := trim (((trim entry).splitOn ';').headD [])

def parameters (entry : Text) : List Text := ((trim entry).splitOn ';').tail

def solidText (parameter : Text) : Text := (trim parameter).filter (· != ' ')

def acceptsEncoding (header token : Text) : Bool :=
  (header.splitOn ',').any fun entry => eqIgnoreAsciiCase (codingName entry) token &&
    !(parameters entry).any fun parameter => eqIgnoreAsciiCase (solidText parameter) "q=0".toList

def compressible (contentType : Text) : Bool :=
  "text/".toList.isPrefixOf contentType ||
    ["application/json", "application/xml", "application/yaml", "application/wasm", "application/rss+xml",
      "application/atom+xml", "application/xhtml+xml", "application/manifest+json", "image/svg+xml"].any fun known =>
        (contentType.splitOn ';').headD [] == known.toList

def minCompressBytes : Nat := 256

def negotiateEncoding (head : HttpHead) (contentType : Text) (length : Nat) : Encoding :=
  if length < minCompressBytes || !compressible contentType then .identity
  else
    match head.headerValue "accept-encoding".toList with
    | none => .identity
    | some accept =>
      if acceptsEncoding accept "zstd".toList then .zstd
      else if acceptsEncoding accept "gzip".toList then .gzip
      else .identity

/-- The coding that `serve_file` sends the body with; a range is always one of the file itself. -/
def servedEncoding (range : Option (Nat × Nat)) (head : HttpHead) (contentType : Text) (length : Nat) : Encoding :=
  if range.isSome then .identity else negotiateEncoding head contentType length

def decimals : Text → Option Nat
  | [] => some 0
  | point :: digits =>
    if point = '.' ∧ digits.length ≤ 3 ∧ digits.all Char.isDigit then
      some (Nat.ofDigitChars 10 digits 0 * Nat.pow 10 (3 - digits.length))
    else none

/-- A quality value in thousandths, from zero to one. -/
def qvalue : Text → Option Nat
  | [] => none
  | digit :: rest =>
    if digit = '0' then decimals rest
    else if digit = '1' ∧ decimals rest = some 0 then some 1000
    else none

def quality (parameter : Text) : Option Text :=
  if eqIgnoreAsciiCase ((solidText parameter).take 2) "q=".toList then some ((solidText parameter).drop 2) else none

def qualities (entry : Text) : List Text := (parameters entry).filterMap quality

def isPositive (value : Text) : Bool := (qvalue value).any (0 < ·)

/-- Some element names the coding, without a quality value or with one above zero. -/
def offers (header token : Text) : Bool :=
  (header.splitOn ',').any fun entry => eqIgnoreAsciiCase (codingName entry) token && (qualities entry).all isPositive

/-- Every element that names the coding gives it the value zero. -/
def refuses (header token : Text) : Bool :=
  (header.splitOn ',').all fun entry =>
    !eqIgnoreAsciiCase (codingName entry) token || (qualities entry).any (qvalue · == some 0)

/-- Some element names the coding, and none of its quality values is the single digit zero. -/
def unrefused (header token : Text) : Bool :=
  (header.splitOn ',').any fun entry => eqIgnoreAsciiCase (codingName entry) token && !(qualities entry).contains ['0']

/-- A coding that is not refused with a single digit is offered; gzip matters where zstd is refused so. -/
def PlainRefusals (header : Text) : Prop :=
  if unrefused header "zstd".toList then offers header "zstd".toList = true
  else unrefused header "gzip".toList = true → offers header "gzip".toList = true

instance (header : Text) : Decidable (PlainRefusals header) := by
  unfold PlainRefusals
  infer_instance

theorem refuses_eq_false {header token : Text} (offered : offers header token = true) :
    refuses header token = false := by
  obtain ⟨entry, member, taken⟩ := List.any_eq_true.mp offered
  rw [Bool.and_eq_true, List.all_eq_true] at taken
  refine List.all_eq_false.mpr ⟨entry, member, ?_⟩
  simp only [taken.1, Bool.not_true, Bool.false_or, List.any_eq_true, not_exists, not_and]
  intro value given zero
  have positive := taken.2 value given
  rw [isPositive, beq_iff_eq.mp zero] at positive
  cases positive

theorem quality_eq_zero_iff {parameter : Text} :
    quality parameter = some ['0'] ↔ eqIgnoreAsciiCase (solidText parameter) "q=0".toList = true := by
  have whole : solidText parameter = (solidText parameter).take 2 ++ (solidText parameter).drop 2 :=
    (List.take_append_drop 2 _).symm
  have zero : toAsciiLowercase "q=0".toList = toAsciiLowercase "q=".toList ++ ['0'] := by decide
  rw [quality, Option.ite_none_right_eq_some, eqIgnoreAsciiCase_iff, eqIgnoreAsciiCase_iff, zero, Option.some.injEq]
  constructor
  · rintro ⟨named, value⟩
    rw [whole, toAsciiLowercase, List.map_append, value]
    exact congrArg (· ++ ['0']) named
  · intro same
    rw [whole, toAsciiLowercase, List.map_append] at same
    have long : ((solidText parameter).take 2).length = 2 := by
      have length := congrArg List.length same
      rw [← List.map_append, ← whole] at length
      have three : (solidText parameter).length = 3 := by simpa [toAsciiLowercase] using length
      rw [List.length_take, three]
      rfl
    obtain ⟨named, value⟩ := List.append_inj same (by simpa [toAsciiLowercase] using long)
    refine ⟨named, ?_⟩
    obtain ⟨digit, shape, lower⟩ := List.map_eq_singleton_iff.mp value
    rw [shape, eq_of_toLower_eq (by decide) lower]

theorem acceptsEncoding_eq (header token : Text) : acceptsEncoding header token = unrefused header token := by
  have zero (entry : Text) : ((parameters entry).any fun parameter =>
      eqIgnoreAsciiCase (solidText parameter) "q=0".toList) = (qualities entry).contains ['0'] := by
    rw [Bool.eq_iff_iff, List.any_eq_true, List.contains_iff_mem, qualities, List.mem_filterMap]
    simp only [quality_eq_zero_iff]
  simp only [acceptsEncoding, unrefused, zero]

/-- A coding is chosen only if it is offered, and none is sent that is refused in some spelling. -/
structure RespectsRefusals (head : HttpHead) (contentType : Text) (length : Nat) : Prop where
  offered : ∀ encoding, encoding ≠ .identity → negotiateEncoding head contentType length = encoding →
    ∃ accept, head.headerValue "accept-encoding".toList = some accept ∧ offers accept encoding.token = true
  refused : ∀ encoding, encoding ≠ .identity → ∀ accept, head.headerValue "accept-encoding".toList = some accept →
    refuses accept encoding.token = true → ∀ range, servedEncoding range head contentType length ≠ encoding

theorem refused_of_offered {head : HttpHead} {contentType : Text} {length : Nat}
    (offered : ∀ encoding, encoding ≠ .identity → negotiateEncoding head contentType length = encoding →
      ∃ accept, head.headerValue "accept-encoding".toList = some accept ∧ offers accept encoding.token = true) :
    RespectsRefusals head contentType length := by
  refine ⟨offered, fun encoding coded accept found refused range served => ?_⟩
  unfold servedEncoding at served
  split at served
  · exact coded served.symm
  · obtain ⟨other, same, offers⟩ := offered encoding coded served
    rw [found, Option.some.injEq] at same
    rw [← same] at offers
    exact absurd refused (Bool.not_eq_true _ ▸ refuses_eq_false offers)

/-- Refusals are respected if and only if the file is not compressed anyway, or the codings that come into question
are refused with a single zero or offered. -/
theorem encoding_refusals_respected (head : HttpHead) (contentType : Text) (length : Nat) :
    RespectsRefusals head contentType length ↔ (minCompressBytes ≤ length → compressible contentType = true →
      ∀ accept, head.headerValue "accept-encoding".toList = some accept → PlainRefusals accept) := by
  have negotiated (large : minCompressBytes ≤ length) (compresses : compressible contentType = true) {accept : Text}
      (found : head.headerValue "accept-encoding".toList = some accept) : negotiateEncoding head contentType length =
        if unrefused accept "zstd".toList then .zstd
        else if unrefused accept "gzip".toList then .gzip else .identity := by
    simp only [negotiateEncoding, Nat.not_lt.mpr large, compresses, found, acceptsEncoding_eq, decide_false,
      Bool.not_true, Bool.or_self, Bool.false_eq_true, if_false]
  constructor
  · rintro ⟨offered, -⟩ large compresses accept found
    have chosen := negotiated large compresses found
    have isOffered (encoding : Encoding) (coded : encoding ≠ .identity)
        (same : negotiateEncoding head contentType length = encoding) : offers accept encoding.token = true := by
      obtain ⟨other, again, offers⟩ := offered encoding coded same
      cases found.symm.trans again
      exact offers
    unfold PlainRefusals
    split
    · next zstd => exact isOffered .zstd (by decide) (by rw [chosen, if_pos zstd])
    · next noZstd =>
      intro gzip
      exact isOffered .gzip (by decide) (by rw [chosen, if_neg noZstd, if_pos gzip])
  · intro plain
    refine refused_of_offered fun encoding coded chosen => ?_
    unfold negotiateEncoding at chosen
    split at chosen
    · exact absurd chosen.symm coded
    · next compressed =>
      rw [Bool.or_eq_true, not_or, decide_eq_true_iff, Nat.not_lt, Bool.not_eq_true', Bool.not_eq_false] at compressed
      split at chosen
      · exact absurd chosen.symm coded
      · next accept found =>
        refine ⟨accept, found, ?_⟩
        have settled := plain compressed.1 compressed.2 accept found
        unfold PlainRefusals at settled
        simp only [acceptsEncoding_eq] at chosen
        split at chosen
        · next zstd =>
          rw [if_pos zstd] at settled
          exact chosen ▸ settled
        · next noZstd =>
          rw [if_neg noZstd] at settled
          split at chosen
          · next gzip => exact chosen ▸ settled gzip
          · exact absurd chosen.symm coded

def codingHead (accept : Text) : HttpHead :=
  .ofText ⟨"GET".toList, "/".toList, "a".toList, none, "a".toList, none, []⟩ false
    ("GET / HTTP/1.1\r\nHost: a\r\nAccept-Encoding: ".toList ++ accept ++ "\r\n\r\n".toList) []

def mixedCodings : Text := "br;q=0.0, gzip;q=0, zstd;q=0.5".toList

theorem encoding_refusals_respected_mixed :
    negotiateEncoding (codingHead mixedCodings) "text/html".toList 300 = .zstd ∧
      RespectsRefusals (codingHead mixedCodings) "text/html".toList 300 := by
  have found : (codingHead mixedCodings).headerValue "accept-encoding".toList = some mixedCodings := by decide +kernel
  refine ⟨by decide +kernel, (encoding_refusals_respected _ _ _).mpr fun _ _ accept given => ?_⟩
  rw [found, Option.some.injEq] at given
  rw [← given]
  decide +kernel

/-- A zero with a decimal does not refuse a coding. -/
theorem zero_with_decimal_accepted :
    negotiateEncoding (codingHead "gzip;q=0.0".toList) "text/html".toList 300 = .gzip ∧
      (codingHead "gzip;q=0.0".toList).headerValue "accept-encoding".toList = some "gzip;q=0.0".toList ∧
      offers "gzip;q=0.0".toList "gzip".toList = false ∧ refuses "gzip;q=0.0".toList "gzip".toList = true := by
  decide +kernel

end TlsProxy.Http
