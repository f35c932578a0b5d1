import TlsProxy.Lib.Text

/-! Encoding is total, decoding is the strict decoder of the core library. An
ASCII character is its own single byte, and no byte of a longer character is
an ASCII byte, so byte-level scans for ASCII delimiters agree with
character-level ones. -/
namespace Utf8

def encode (t : Text) : List UInt8 := t.flatMap String.utf8EncodeChar

def decode (bytes : List UInt8) : Option Text :=
  (ByteArray.utf8Decode? bytes.toByteArray).map Array.toList

@[simp] theorem encode_append (a b : Text) : encode (a ++ b) = encode a ++ encode b := by
  simp only [encode, List.flatMap_append]

theorem encode_cons (c : Char) (t : Text) :
    encode (c :: t) = String.utf8EncodeChar c ++ encode t := by
  simp only [encode, List.flatMap_cons]

@[simp] theorem decode_encode (t : Text) : decode (encode t) = some t := by
  have whole : (encode t).toByteArray = t.utf8Encode := rfl
  simp only [decode, whole, List.utf8Decode?_utf8Encode, Option.map_some]

theorem encode_inj {a b : Text} (same : encode a = encode b) : a = b := by grind [decode_encode]

theorem encode_of_decode {bytes : List UInt8} {t : Text} (h : decode bytes = some t) :
    encode t = bytes := by
  unfold decode at h
  rw [Option.map_eq_some_iff] at h
  obtain ⟨chars, decoded, rfl⟩ := h
  have valid : (ByteArray.utf8Decode? bytes.toByteArray).isSome := by
    rw [decoded]; rfl
  have back := ByteArray.utf8Encode_get_utf8Decode? (h := valid)
  simp only [decoded, Option.get_some] at back
  exact List.toByteArray_inj.mp back

theorem encodeChar_ascii {c : Char} (h : c.toNat < 128) :
    String.utf8EncodeChar c = [UInt8.ofNat c.toNat] := by grind [String.utf8EncodeChar, Char.toNat]

theorem encodeChar_wide {c : Char} (h : 128 ≤ c.toNat) {b : UInt8}
    (member : b ∈ String.utf8EncodeChar c) : 128 ≤ b.toNat := by
  have wide : ¬ c.val.toNat ≤ 127 := by
    change ¬ c.toNat ≤ 127
    omega
  simp only [String.utf8EncodeChar, wide, ↓reduceIte] at member
  have low : ∀ n, n < 256 → 128 ≤ n → 128 ≤ (UInt8.ofNat n).toNat := by grind [UInt8.toNat_ofNat_of_lt']
  split at member
  · grind
  · grind

theorem toNat_asciiByte {c : Char} (h : c.toNat < 128) : (UInt8.ofNat c.toNat).toNat = c.toNat :=
  UInt8.toNat_ofNat_of_lt' (Nat.lt_trans h (by decide))

theorem ascii_mem_encode {c : Char} (h : c.toNat < 128) (t : Text) :
    UInt8.ofNat c.toNat ∈ encode t ↔ c ∈ t := by
  constructor
  · intro member
    obtain ⟨d, inText, inChar⟩ := List.mem_flatMap.mp member
    by_cases small : d.toNat < 128
    · rw [encodeChar_ascii small, List.mem_singleton] at inChar
      have same : c.toNat = d.toNat := by grind [toNat_asciiByte]
      rwa [Char.toNat_inj.mp same]
    · grind [encodeChar_wide, toNat_asciiByte]
  · intro member
    exact List.mem_flatMap.mpr ⟨c, member, by grind [encodeChar_ascii]⟩

/-- The text from a byte position on; there is none inside a character or behind the end. -/
def sliceFrom (t : Text) (k : Nat) : Option Text :=
  if k ≤ (encode t).length then decode ((encode t).drop k) else none

def sliceTo (t : Text) (k : Nat) : Option Text :=
  if k ≤ (encode t).length then decode ((encode t).take k) else none

theorem sliceFrom_append (a b : Text) : sliceFrom (a ++ b) (encode a).length = some b := by
  grind [sliceFrom, encode_append, decode_encode]

theorem sliceTo_append (a b : Text) : sliceTo (a ++ b) (encode a).length = some a := by
  grind [sliceTo, encode_append, decode_encode]

theorem split_at_ascii {c : Char} (h : c.toNat < 128) {t : Text} {k : Nat}
    (found : (encode t)[k]? = some (UInt8.ofNat c.toNat)) : ∃ a b, t = a ++ c :: b ∧ (encode a).length = k := by
  induction t generalizing k with
  | nil => cases found
  | cons d rest ih =>
    rw [encode_cons] at found
    by_cases inside : k < (String.utf8EncodeChar d).length
    · rw [List.getElem?_append_left inside] at found
      have member : UInt8.ofNat c.toNat ∈ encode [d] := by grind [encode]
      obtain rfl := List.mem_singleton.mp ((ascii_mem_encode h [d]).mp member)
      rw [encodeChar_ascii h, List.length_singleton] at inside
      exact ⟨[], rest, rfl, by rw [Nat.lt_one_iff.mp inside]; rfl⟩
    · grind [encode_cons]

end Utf8
