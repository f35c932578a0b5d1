import TlsProxy.Lib.Text

/-! The standard alphabet with padding. Decoding is strict: groups of four,
canonical padding, no stray bits in the last group. -/
namespace Base64

def sextet (c : Char) : Option Nat :=
  if 'A' ≤ c ∧ c ≤ 'Z' then some (c.toNat - 'A'.toNat)
  else if 'a' ≤ c ∧ c ≤ 'z' then some (c.toNat - 'a'.toNat + 26)
  else if '0' ≤ c ∧ c ≤ '9' then some (c.toNat - '0'.toNat + 52)
  else if c = '+' then some 62
  else if c = '/' then some 63
  else none

def decode : Text → Option (List UInt8)
  | [] => some []
  | [a, b, '=', '='] => do
    let high ← sextet a
    let low ← sextet b
    if low % 16 = 0 then some [UInt8.ofNat (high * 4 + low / 16)] else none
  | [a, b, c, '='] => do
    let high ← sextet a
    let middle ← sextet b
    let low ← sextet c
    if low % 4 = 0 then
      some [UInt8.ofNat (high * 4 + middle / 16), UInt8.ofNat (middle % 16 * 16 + low / 4)]
    else none
  | a :: b :: c :: d :: rest => do
    let first ← sextet a
    let second ← sextet b
    let third ← sextet c
    let fourth ← sextet d
    let bytes ← decode rest
    some (UInt8.ofNat (first * 4 + second / 16) :: UInt8.ofNat (second % 16 * 16 + third / 4) ::
      UInt8.ofNat (third % 4 * 64 + fourth) :: bytes)
  | _ => none

example : decode "YWRtaW46c2VjcmV0".toList = some ("admin:secret".toList.map fun c => UInt8.ofNat c.toNat) := by
  decide +kernel

def digit (n : Nat) : Char :=
  if n < 26 then Char.ofNat (n + 'A'.toNat)
  else if n < 52 then Char.ofNat (n - 26 + 'a'.toNat)
  else if n < 62 then Char.ofNat (n - 52 + '0'.toNat)
  else if n = 62 then '+'
  else '/'

def encode : List UInt8 → Text
  | [] => []
  | [a] => [digit (a.toNat / 4), digit (a.toNat % 4 * 16), '=', '=']
  | [a, b] => [digit (a.toNat / 4), digit (a.toNat % 4 * 16 + b.toNat / 16), digit (b.toNat % 16 * 4), '=']
  | a :: b :: c :: rest =>
    digit (a.toNat / 4) :: digit (a.toNat % 4 * 16 + b.toNat / 16) :: digit (b.toNat % 16 * 4 + c.toNat / 64) ::
      digit (c.toNat % 64) :: encode rest

theorem sextet_digit {n : Nat} (small : n < 64) : sextet (digit n) = some n := by
  have all : ∀ m : Fin 64, sextet (digit m) = some m.val := by decide
  exact all ⟨n, small⟩

theorem digit_ne_pad {n : Nat} (small : n < 64) : digit n ≠ '=' := by
  have all : ∀ m : Fin 64, digit m ≠ '=' := by decide
  exact all ⟨n, small⟩

theorem ofNat_eq {n : Nat} (a : UInt8) (same : n = a.toNat) : UInt8.ofNat n = a := by
  rw [same, UInt8.ofNat_toNat]

theorem decode_one {high low : Nat} (first : high < 64) (second : low < 64) (clean : low % 16 = 0) :
    decode [digit high, digit low, '=', '='] = some [UInt8.ofNat (high * 4 + low / 16)] := by
  grind [decode, sextet_digit]

theorem decode_two {high middle low : Nat} (first : high < 64) (second : middle < 64) (third : low < 64)
    (clean : low % 4 = 0) :
    decode [digit high, digit middle, digit low, '='] =
      some [UInt8.ofNat (high * 4 + middle / 16), UInt8.ofNat (middle % 16 * 16 + low / 4)] := by
  grind [decode.eq_3, digit_ne_pad, sextet_digit]

theorem decode_three {one two three four : Nat} (first : one < 64) (second : two < 64) (third : three < 64)
    (fourth : four < 64) {rest : Text} {bytes : List UInt8} (later : decode rest = some bytes) :
    decode (digit one :: digit two :: digit three :: digit four :: rest) =
      some (UInt8.ofNat (one * 4 + two / 16) :: UInt8.ofNat (two % 16 * 16 + three / 4) ::
        UInt8.ofNat (three % 4 * 64 + four) :: bytes) := by
  have full := digit_ne_pad fourth
  rw [decode.eq_4 _ _ _ _ _ (fun _ pad _ => full pad) fun pad _ => full pad]
  simp only [sextet_digit first, sextet_digit second, sextet_digit third, sextet_digit fourth, later]
  rfl

theorem decode_encode (bytes : List UInt8) : decode (encode bytes) = some bytes := by
  induction bytes using encode.induct with
  | case1 => rfl
  | case2 a =>
    have := a.toNat_lt
    grind [encode, decode_one, ofNat_eq]
  | case3 a b =>
    have := a.toNat_lt
    have := b.toNat_lt
    grind [encode, decode_two, ofNat_eq]
  | case4 a b c rest ih =>
    have := a.toNat_lt
    have := b.toNat_lt
    have := c.toNat_lt
    rw [encode, decode_three (by omega) (by omega) (by omega) (by omega) ih, ofNat_eq a (by omega),
      ofNat_eq b (by omega), ofNat_eq c (by omega)]

end Base64
