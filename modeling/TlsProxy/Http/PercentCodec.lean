import TlsProxy.Http.Listings
import TlsProxy.Net.ClientRandom

/-! `percent_decode` of `static_files.rs` by positions in the bytes of its argument,
against the escapes of these bytes: a percent sign and two hexadecimal digits.
The integer parser behind it also reads a plus sign and one digit. -/
namespace TlsProxy.Http

open Text Net

/-- The loop of `percent_decode`. The outer `none` is the panic of an index out of range, the inner one a bad escape. -/
def decodeFrom (input : List UInt8) (offset : Nat) (bytes : List UInt8) : Option (Option (List UInt8)) :=
  if _inside : offset < input.length then
    match input[offset]? with
    | none => none
    | some byte =>
      if byte = percent then
        if offset + 2 ≥ input.length then some none
        else
          match slice input (offset + 1) (offset + 3) with
          | some [high, low] =>
            match hexByte high low with
            | none => some none
            | some value => decodeFrom input (offset + 3) (bytes ++ [value])
          | _ => none
      else decodeFrom input (offset + 1) (bytes ++ [byte])
  else some (some bytes)
termination_by input.length - offset

def percentDecodeAt (value : Text) : Option (Except Text Text) :=
  (decodeFrom (Utf8.encode value) 0 []).map fun decoded =>
    match decoded with
    | none => .error "invalid percent encoding".toList
    | some bytes =>
      if bytes.contains 0 then .error "NUL byte in encoded value".toList
      else
        match Utf8.decode bytes with
        | some decoded => .ok decoded
        | none => .error "encoded value is not UTF-8".toList

theorem unescape_pair (high low : UInt8) (rest : List UInt8) : unescape (percent :: high :: low :: rest) =
    (hexByte high low).bind fun value => (unescape rest).map (value :: ·) := by
  rw [unescape.eq_def]
  simp only [if_true]

theorem unescape_plain {byte : UInt8} (plain : byte ≠ percent) (rest : List UInt8) :
    unescape (byte :: rest) = (unescape rest).map (byte :: ·) := by
  rw [unescape.eq_def]
  simp only [if_neg plain]

theorem unescape_short {rest : List UInt8} (short : rest.length < 2) : unescape (percent :: rest) = none := by
  rcases rest with _ | ⟨high, _ | ⟨low, rest⟩⟩
  · rfl
  · rfl
  · simp only [List.length_cons] at short
    omega

theorem drop_of_getElem? {input : List UInt8} {offset : Nat} {byte : UInt8} (found : input[offset]? = some byte) :
    input.drop offset = byte :: input.drop (offset + 1) := by
  obtain ⟨inside, rfl⟩ := List.getElem?_eq_some_iff.mp found
  exact List.drop_eq_getElem_cons inside

theorem slice_pair {input : List UInt8} {offset : Nat} (inside : ¬ offset + 2 ≥ input.length) :
    ∃ high low, slice input (offset + 1) (offset + 3) = some [high, low] ∧
      input.drop (offset + 1) = high :: low :: input.drop (offset + 3) := by
  have rest : input.drop (offset + 1) = input[offset + 1] :: input[offset + 2] :: input.drop (offset + 3) := by
    rw [List.drop_eq_getElem_cons (by omega), List.drop_eq_getElem_cons (by omega)]
  refine ⟨_, _, ?_, rest⟩
  rw [slice_of_le (by omega) (by omega), rest, show offset + 3 - (offset + 1) = 2 by omega]
  rfl

/-- The loop reads no byte behind the end, and it decodes what is left from its position on. -/
theorem decodeFrom_eq (input : List UInt8) (offset : Nat) (bytes : List UInt8) :
    decodeFrom input offset bytes = some ((unescape (input.drop offset)).map (bytes ++ ·)) := by
  fun_induction decodeFrom input offset bytes with
  | case1 offset bytes below missing =>
    rw [List.getElem?_eq_none_iff] at missing
    omega
  | case2 offset bytes below short found =>
    rw [drop_of_getElem? found, unescape_short (by rw [List.length_drop]; omega), Option.map_none]
  | case3 offset bytes below long high low cut unread found =>
    obtain ⟨_, _, pair, rest⟩ := slice_pair long
    cases pair.symm.trans cut
    rw [drop_of_getElem? found, rest, unescape_pair, unread, Option.bind_none, Option.map_none]
  | case4 offset bytes below long high low cut value read found ih =>
    obtain ⟨_, _, pair, rest⟩ := slice_pair long
    cases pair.symm.trans cut
    rw [ih, drop_of_getElem? found, rest, unescape_pair, read, Option.bind_some, Option.map_map]
    simp only [Function.comp_def, List.append_assoc, List.singleton_append]
  | case5 offset bytes below long other found =>
    obtain ⟨high, low, pair, -⟩ := slice_pair long
    exact absurd pair (other high low)
  | case6 offset bytes below byte found plain ih =>
    rw [ih, drop_of_getElem? found, unescape_plain plain, Option.map_map]
    simp only [Function.comp_def, List.append_assoc, List.singleton_append]
  | case7 offset bytes beyond =>
    rw [List.drop_eq_nil_of_le (by omega), unescape, Option.map_some, List.append_nil]

/-- No text makes the decoder read out of bounds. -/
theorem percentDecodeAt_eq (value : Text) : percentDecodeAt value = some (percentDecode value) := by
  rw [percentDecodeAt, decodeFrom_eq, List.drop_zero, Option.map_some]
  unfold percentDecode
  cases unescape (Utf8.encode value) <;> rfl

theorem percentDecode_eq_ok_iff {value decoded : Text} : percentDecode value = .ok decoded ↔
    ∃ bytes, unescape (Utf8.encode value) = some bytes ∧ 0 ∉ bytes ∧ bytes = Utf8.encode decoded := by
  constructor
  · intro accepted
    unfold percentDecode at accepted
    split at accepted
    · cases accepted
    · next bytes read =>
      split at accepted
      · cases accepted
      · next clean =>
        split at accepted
        · next text valid =>
          cases accepted
          exact ⟨bytes, read, by simpa using clean, (Utf8.encode_of_decode valid).symm⟩
        · cases accepted
  · rintro ⟨bytes, read, clean, rfl⟩
    exact percentDecode_of_unescape read (by simpa using clean)

def EachEscape (P : List UInt8 → Prop) (input : List UInt8) : Prop :=
  ∀ before after, input = before ++ percent :: after → P after

def plus : UInt8 := 0x2B

def hexValue (byte : UInt8) : Option Nat := digit? 16 (Char.ofNat byte.toNat)

def HexPair (after : List UInt8) : Prop :=
  ∃ high low rest, after = high :: low :: rest ∧ (hexValue high).isSome ∧ (hexValue low).isSome

/-- A plus sign stands in the place of the first digit. -/
def Signed (after : List UInt8) : Prop := ∃ low rest, after = plus :: low :: rest ∧ (hexValue low).isSome

/-- The bytes that escapes and the bytes between them stand for, with a plus sign for the digit zero. -/
def escapedBytes : List UInt8 → List UInt8
  | [] => []
  | byte :: rest =>
    if byte = percent then
      match rest with
      | high :: low :: rest =>
        UInt8.ofNat ((hexValue high).getD 0 * 16 + (hexValue low).getD 0) :: escapedBytes rest
      | _ => []
    else byte :: escapedBytes rest

@[simp] theorem eachEscape_nil (P : List UInt8 → Prop) : EachEscape P [] := by
  intro before after split
  cases before <;> cases split

@[simp] theorem eachEscape_cons {P : List UInt8 → Prop} {byte : UInt8} {rest : List UInt8} :
    EachEscape P (byte :: rest) ↔ (byte = percent → P rest) ∧ EachEscape P rest := by
  constructor
  · intro each
    refine ⟨fun sign => each [] rest (by rw [sign, List.nil_append]), fun before after split => ?_⟩
    exact each (byte :: before) after (by rw [split, List.cons_append])
  · rintro ⟨first, later⟩ before after split
    cases before with
    | nil =>
      cases split
      exact first rfl
    | cons d before =>
      cases split
      exact later before after rfl

theorem digit?_lt {radix d : Nat} {c : Char} (digit : digit? radix c = some d) : d < radix := by
  unfold digit? at digit
  grind

theorem fromStrRadix_signed (c : Char) : fromStrRadix 16 256 ['+', c] = digit? 16 c := by
  cases digit : digit? 16 c with
  | none => simp [fromStrRadix, accumulate, digit]
  | some d =>
    have := digit?_lt digit
    simp [fromStrRadix, accumulate, digit]
    omega

theorem fromStrRadix_pair {high low : Char} (unsigned : high ≠ '+') : fromStrRadix 16 256 [high, low] =
    (digit? 16 high).bind fun a => (digit? 16 low).map (a * 16 + ·) := by
  have digits : fromStrRadix 16 256 [high, low] = accumulate 16 256 0 [high, low] := by
    unfold fromStrRadix
    split
    · next same => exact absurd (List.cons.inj same).1 unsigned
    · rfl
  rw [digits, accumulate]
  cases first : digit? 16 high with
  | none => rfl
  | some a =>
    cases second : digit? 16 low with
    | none => simp [accumulate, second]
    | some b =>
      have := digit?_lt first
      have := digit?_lt second
      simp [accumulate, second]
      omega

theorem hexValue_ascii {byte : UInt8} (digit : (hexValue byte).isSome) : byte < 128 ∧ byte ≠ percent := by
  have all : ∀ n : Fin 256, (hexValue (UInt8.ofNat n.val)).isSome = true →
      UInt8.ofNat n.val < 128 ∧ UInt8.ofNat n.val ≠ percent := by decide +kernel
  have here := all ⟨byte.toNat, byte.toNat_lt⟩
  rw [UInt8.ofNat_toNat] at here
  exact here digit

theorem hexByte_of_ne_plus {high low : UInt8} (unsigned : high ≠ plus) : hexByte high low =
    (hexValue high).bind fun a => (hexValue low).map fun b => UInt8.ofNat (a * 16 + b) := by
  unfold hexByte
  split
  · have other : Char.ofNat high.toNat ≠ '+' := by
      intro same
      have all : ∀ n : Fin 256, Char.ofNat n.val = '+' → UInt8.ofNat n.val = plus := by decide +kernel
      have here := all ⟨high.toNat, high.toNat_lt⟩ same
      exact unsigned (by rwa [UInt8.ofNat_toNat] at here)
    rw [fromStrRadix_pair other, Option.map_bind]
    simp only [hexValue, Option.map_map, Function.comp_def]
  · next wide =>
    cases first : hexValue high with
    | none => rfl
    | some a =>
      cases second : hexValue low with
      | none => rfl
      | some b =>
        exact absurd ⟨(hexValue_ascii (by rw [first]; rfl)).1, (hexValue_ascii (by rw [second]; rfl)).1⟩ wide

theorem hexByte_plus (low : UInt8) : hexByte plus low = (hexValue low).map UInt8.ofNat := by
  unfold hexByte
  split
  · rw [show Char.ofNat plus.toNat = '+' from rfl, fromStrRadix_signed, ← hexValue]
  · next wide =>
    cases digit : hexValue low with
    | none => rfl
    | some b => exact absurd ⟨by decide, (hexValue_ascii (by rw [digit]; rfl)).1⟩ wide

/-- Two bytes are read if they are two digits, or a plus sign and a digit. -/
theorem hexByte_eq (high low : UInt8) (rest : List UInt8)
    [Decidable (HexPair (high :: low :: rest) ∨ Signed (high :: low :: rest))] :
    hexByte high low = if HexPair (high :: low :: rest) ∨ Signed (high :: low :: rest) then
      some (UInt8.ofNat ((hexValue high).getD 0 * 16 + (hexValue low).getD 0)) else none := by
  have unread : hexValue plus = none := by decide
  by_cases signed : high = plus
  · subst signed
    rw [hexByte_plus]
    cases digit : hexValue low with
    | none => simp [HexPair, Signed, digit]
    | some b => simp [HexPair, Signed, digit, unread]
  · rw [hexByte_of_ne_plus signed]
    cases first : hexValue high with
    | none => simp [HexPair, Signed, first, signed]
    | some a =>
      cases second : hexValue low with
      | none => simp [HexPair, Signed, second]
      | some b => simp [HexPair, first, second]

/-- What is accepted are the escapes of two digits, or of a plus sign and a digit. -/
theorem unescape_eq_some_iff (input bytes : List UInt8) : unescape input = some bytes ↔
    EachEscape (fun after => HexPair after ∨ Signed after) input ∧ escapedBytes input = bytes := by
  classical
  fun_induction escapedBytes input generalizing bytes with
  | case1 => simp [unescape]
  | case2 high low rest ih =>
    rw [unescape_pair, hexByte_eq high low rest]
    split
    · next read =>
      have notPercent : high ≠ percent ∧ low ≠ percent := by
        rcases read with ⟨_, _, _, shape, first, second⟩ | ⟨_, _, shape, second⟩
        · cases shape
          exact ⟨(hexValue_ascii first).2, (hexValue_ascii second).2⟩
        · cases shape
          exact ⟨by decide, (hexValue_ascii second).2⟩
      simp only [Option.bind_some, Option.map_eq_some_iff, ih, eachEscape_cons, forall_const, read, notPercent,
        false_imp_iff, true_and]
      grind
    · next unread => simp [unread]
  | case3 rest short =>
    have few : rest.length < 2 := by
      rcases rest with _ | ⟨high, _ | ⟨low, rest⟩⟩
      · exact Nat.zero_lt_two
      · exact Nat.one_lt_two
      · exact absurd rfl (short high low rest)
    simp only [unescape_short few, eachEscape_cons, forall_const, reduceCtorEq, false_iff, not_and]
    rintro ⟨⟨high, low, tail, shape, _⟩ | ⟨low, tail, shape, _⟩, _⟩
    · exact absurd shape (short high low tail)
    · exact absurd shape (short plus low tail)
  | case4 byte rest plain ih =>
    rw [unescape_plain plain, Option.map_eq_some_iff, eachEscape_cons]
    simp only [ih, plain, false_imp_iff, true_and]
    grind

/-- A plus sign stands for a digit in some escape, the others are well-formed, and the bytes are NUL-free UTF-8. -/
structure Misread (input : List UInt8) : Prop where
  signed : ¬ EachEscape HexPair input
  otherwise : EachEscape (fun after => HexPair after ∨ Signed after) input
  clean : 0 ∉ escapedBytes input
  text : ∃ decoded, escapedBytes input = Utf8.encode decoded

/-- The round trip, no read out of bounds, and what is accepted: well-formed escapes of NUL-free UTF-8, if and only if
no signed escape is read. -/
theorem percent_codec (value : Text) :
    ('\x00' ∉ value → percentDecodeAt (urlEscape value) = some (.ok value)) ∧ percentDecodeAt value ≠ none ∧
      ((∀ decoded, percentDecodeAt value = some (.ok decoded) ↔ EachEscape HexPair (Utf8.encode value) ∧
        0 ∉ escapedBytes (Utf8.encode value) ∧ escapedBytes (Utf8.encode value) = Utf8.encode decoded) ↔
        ¬ Misread (Utf8.encode value)) := by
  refine ⟨fun nulFree => ?_, ?_, ?_⟩
  · rw [percentDecodeAt_eq, percentDecode_urlEscape nulFree]
  · rw [percentDecodeAt_eq]
    exact Option.some_ne_none _
  · have accepted (decoded : Text) : percentDecodeAt value = some (.ok decoded) ↔
        EachEscape (fun after => HexPair after ∨ Signed after) (Utf8.encode value) ∧
          0 ∉ escapedBytes (Utf8.encode value) ∧ escapedBytes (Utf8.encode value) = Utf8.encode decoded := by
      rw [percentDecodeAt_eq, Option.some.injEq, percentDecode_eq_ok_iff]
      simp only [unescape_eq_some_iff]
      constructor
      · rintro ⟨bytes, ⟨each, rfl⟩, clean, same⟩
        exact ⟨each, clean, same⟩
      · rintro ⟨each, clean, same⟩
        exact ⟨_, ⟨each, rfl⟩, clean, same⟩
    simp only [accepted]
    constructor
    · rintro exact_ ⟨signed, otherwise, clean, decoded, same⟩
      exact signed ((exact_ decoded).mp ⟨otherwise, clean, same⟩).1
    · intro unread decoded
      constructor
      · rintro ⟨each, clean, same⟩
        exact ⟨of_not_not fun signed => unread ⟨signed, each, clean, decoded, same⟩, clean, same⟩
      · rintro ⟨each, clean, same⟩
        exact ⟨fun before after split => .inl (each before after split), clean, same⟩

/-- A plus sign and one digit are taken for two digits. -/
theorem signed_escape_decoded : percentDecodeAt "%+5".toList = some (.ok ['\x05']) ∧
    ¬ EachEscape HexPair (Utf8.encode "%+5".toList) := by
  constructor
  · rw [percentDecodeAt_eq, @percentDecode_of_unescape _ ['\x05'] (by decide) (by decide)]
  · rw [show Utf8.encode "%+5".toList = [percent, plus, 53] by decide]
    simp [HexPair, show hexValue plus = none by decide]

end TlsProxy.Http
