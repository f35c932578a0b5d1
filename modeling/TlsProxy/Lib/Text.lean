import Mathlib.Data.List.Basic
import Mathlib.Data.List.DropRight

/-! The string operations of a systems language on decoded text: trimming by a
character class, splitting at separators, ASCII case folding, and the parsing
and printing of unsigned machine integers. -/

abbrev Text := List Char

namespace Text

/-- The Unicode `White_Space` property. -/
def isWhitespace (c : Char) : Bool :=
  let n := c.toNat
  (9 ≤ n && n ≤ 13) || n == 0x20 || n == 0x85 || n == 0xA0 || n == 0x1680 ||
    (0x2000 ≤ n && n ≤ 0x200A) || n == 0x2028 || n == 0x2029 || n == 0x202F ||
    n == 0x205F || n == 0x3000

def isAsciiWhitespace (c : Char) : Bool :=
  c == ' ' || c == '\t' || c == '\n' || c == '\x0C' || c == '\r'

def trimStartMatches (p : Char → Bool) (t : Text) : Text := t.dropWhile p

def trimEndMatches (p : Char → Bool) (t : Text) : Text := t.rdropWhile p

def trim (t : Text) : Text := trimEndMatches isWhitespace (trimStartMatches isWhitespace t)

def toAsciiLowercase (t : Text) : Text := t.map Char.toLower

def eqIgnoreAsciiCase (a b : Text) : Bool := toAsciiLowercase a == toAsciiLowercase b

/-- Split at the first occurrence of a separator, which is dropped. -/
def splitOnce (c : Char) : Text → Option (Text × Text)
  | [] => none
  | x :: xs => if x = c then some ([], xs) else (splitOnce c xs).map fun r => (x :: r.1, r.2)

def rsplitOnce (c : Char) (t : Text) : Option (Text × Text) :=
  (splitOnce c t.reverse).map fun r => (r.2.reverse, r.1.reverse)

def stripPrefix (p t : Text) : Option Text :=
  if p.isPrefixOf t then some (t.drop p.length) else none

def stripSuffix (p t : Text) : Option Text :=
  if p.isSuffixOf t then some (t.take (t.length - p.length)) else none

def splitOnceText (pattern : Text) : Text → Option (Text × Text)
  | [] => if pattern.isEmpty then some ([], []) else none
  | c :: rest =>
    match stripPrefix pattern (c :: rest) with
    | some after => some ([], after)
    | none => (splitOnceText pattern rest).map fun parts => (c :: parts.1, parts.2)

def splitAsciiWhitespace (t : Text) : List Text :=
  (t.splitOnP isAsciiWhitespace).filter fun part => !part.isEmpty

def digit? (radix : Nat) (c : Char) : Option Nat :=
  let value :=
    if '0' ≤ c ∧ c ≤ '9' then c.toNat - '0'.toNat
    else if 'a' ≤ c ∧ c ≤ 'z' then c.toNat - 'a'.toNat + 10
    else if 'A' ≤ c ∧ c ≤ 'Z' then c.toNat - 'A'.toNat + 10
    else radix
  if value < radix then some value else none

def accumulate (radix bound : Nat) : Nat → Text → Option Nat
  | acc, [] => some acc
  | acc, c :: cs =>
    (digit? radix c).bind fun d =>
      if acc * radix + d < bound then accumulate radix bound (acc * radix + d) cs else none

/-- Unsigned parsing below an exclusive bound; one leading plus sign is allowed. -/
def fromStrRadix (radix bound : Nat) (t : Text) : Option Nat :=
  let digits := match t with
    | '+' :: rest => rest
    | other => other
  if digits.isEmpty then none else accumulate radix bound 0 digits

def parseU64 (t : Text) : Option Nat := fromStrRadix 10 UInt64.size t

def parseU16 (t : Text) : Option Nat := fromStrRadix 10 UInt16.size t

def ofNat (n : Nat) : Text := Nat.toDigits 10 n

def stripCr (line : Text) : Text := (stripSuffix ['\r'] line).getD line

/-- Lines ended by a newline, a carriage return before it dropped; no empty last line. -/
def lines (t : Text) : List Text :=
  let parts := t.splitOn '\n'
  parts.dropLast.map stripCr ++ (parts.getLast?.toList.filter fun last => !last.isEmpty)

def join (separator : Text) (parts : List Text) : Text := separator.intercalate parts

def startsWithAny (cs : List Char) (t : Text) : Bool := t.head?.any fun c => cs.contains c

/-- Text free of line terminators, so it cannot end a header line early. -/
def SingleLine (t : Text) : Prop := '\r' ∉ t ∧ '\n' ∉ t

instance (t : Text) : Decidable (SingleLine t) := inferInstanceAs (Decidable (_ ∧ _))

theorem eqIgnoreAsciiCase_iff {a b : Text} :
    eqIgnoreAsciiCase a b = true ↔ toAsciiLowercase a = toAsciiLowercase b := by
  simp only [eqIgnoreAsciiCase, beq_iff_eq]

theorem splitOnce_eq_some {c : Char} {t a b : Text} :
    splitOnce c t = some (a, b) ↔ t = a ++ c :: b ∧ c ∉ a := by
  induction t generalizing a with
  | nil => simp [splitOnce]
  | cons x xs ih =>
    unfold splitOnce
    split
    · rename_i same
      subst same
      cases a with
      | nil => simp [eq_comm]
      | cons y ys => grind
    · rename_i different
      cases a with
      | nil => simp [different]
      | cons y ys =>
        simp only [Option.map_eq_some_iff, Prod.exists, Prod.mk.injEq, List.cons.injEq,
          List.cons_append, List.mem_cons, not_or]
        constructor
        · grind
        · grind

theorem splitOnce_eq_none {c : Char} {t : Text} : splitOnce c t = none ↔ c ∉ t := by
  induction t with
  | nil => simp [splitOnce]
  | cons x xs ih =>
    by_cases same : x = c
    · simp [splitOnce, same]
    · have other : ¬ c = x := fun equal => same equal.symm
      simp [splitOnce, same, other, ih]

theorem mem_of_mem_trim {c : Char} {t : Text} (h : c ∈ trim t) : c ∈ t :=
  (List.dropWhile_suffix _).subset ((List.rdropWhile_prefix _ _).subset h)

theorem trim_cons_whitespace {c : Char} (blank : isWhitespace c = true) (t : Text) : trim (c :: t) = trim t := by
  simp [trim, trimStartMatches, blank]

theorem trim_append_whitespace {c : Char} (blank : isWhitespace c = true) (t : Text) : trim (t ++ [c]) = trim t := by
  rw [trim, trim, trimStartMatches, trimStartMatches, List.dropWhile_append]
  split
  · rename_i empty
    rw [List.isEmpty_iff.mp empty]
    simp [blank]
  · exact List.rdropWhile_concat_pos _ _ _ blank

theorem stripPrefix_eq_some {p t rest : Text} : stripPrefix p t = some rest ↔ t = p ++ rest := by
  unfold stripPrefix
  split
  · rename_i isPrefix
    obtain ⟨tail, rfl⟩ := List.isPrefixOf_iff_prefix.mp isPrefix
    simp
  · grind

theorem stripSuffix_eq_some {p t rest : Text} : stripSuffix p t = some rest ↔ t = rest ++ p := by
  unfold stripSuffix
  split
  · rename_i isSuffix
    obtain ⟨front, rfl⟩ := List.isSuffixOf_iff_suffix.mp isSuffix
    simp
  · grind

@[simp] theorem stripCr_append_cr (line : Text) : stripCr (line ++ ['\r']) = line := by simp [stripSuffix, stripCr]

theorem mem_of_mem_stripCr {c : Char} {line : Text} (h : c ∈ stripCr line) : c ∈ line := by
  unfold stripCr at h
  cases found : stripSuffix ['\r'] line with
  | none => simpa only [found, Option.getD_none] using h
  | some rest =>
    rw [stripSuffix_eq_some.mp found]
    grind

theorem mem_splitOnP {p : Char → Bool} {t part : Text} (h : part ∈ t.splitOnP p) :
    ∀ c ∈ part, p c = false ∧ c ∈ t := by
  induction t generalizing part with
  | nil => grind [List.splitOnP_nil]
  | cons x xs ih =>
    have inner : ∀ {part}, part ∈ xs.splitOnP p → ∀ c ∈ part, p c = false ∧ c ∈ x :: xs := by grind
    rw [List.splitOnP_cons_eq_if_modifyHead] at h
    split at h
    · grind
    · rename_i stays
      cases parts : xs.splitOnP p with
      | nil => exact absurd parts (List.splitOnP_ne_nil p xs)
      | cons first others =>
        rw [parts, List.modifyHead_cons] at h
        grind

theorem not_mem_splitOn {c : Char} {t part : Text} (h : part ∈ t.splitOn c) : c ∉ part := by
  intro member
  have differs : (c == c) = false := (mem_splitOnP h c member).1
  simp at differs

theorem newline_not_mem_splitAsciiWhitespace {t part : Text} (h : part ∈ splitAsciiWhitespace t) : '\n' ∉ part := by
  intro member
  exact absurd (mem_splitOnP (List.mem_of_mem_filter h) '\n' member).1 (by decide)

theorem mem_splitAsciiWhitespace {t part : Text} (h : part ∈ splitAsciiWhitespace t) :
    part ≠ [] ∧ ∀ c ∈ part, isAsciiWhitespace c = false := by
  obtain ⟨inParts, filled⟩ := List.mem_filter.mp h
  exact ⟨by simpa using filled, fun c member => (mem_splitOnP inParts c member).1⟩

theorem splitAsciiWhitespace_append_cons {c : Char} (blank : isAsciiWhitespace c = true) (t rest : Text) :
    splitAsciiWhitespace (t ++ c :: rest) = splitAsciiWhitespace t ++ splitAsciiWhitespace rest := by
  grind [splitAsciiWhitespace, List.splitOnP_append_cons]

theorem splitAsciiWhitespace_word {word : Text} (filled : word ≠ []) (solid : ∀ c ∈ word, isAsciiWhitespace c = false) :
    splitAsciiWhitespace word = [word] := by grind [splitAsciiWhitespace, List.splitOnP_eq_singleton]

theorem splitAsciiWhitespace_trimEndMatches {p : Char → Bool} (blank : ∀ c, p c = true → isAsciiWhitespace c = true)
    (t : Text) : splitAsciiWhitespace (trimEndMatches p t) = splitAsciiWhitespace t := by
  induction t using List.reverseRecOn with
  | nil => rfl
  | append_singleton t c ih =>
    cases trimmed : p c with
    | false => rw [trimEndMatches, List.rdropWhile_concat_neg _ _ _ (by simp [trimmed])]
    | true =>
      rw [trimEndMatches, List.rdropWhile_concat_pos _ _ _ trimmed, splitAsciiWhitespace_append_cons (blank c trimmed)]
      exact ih.trans (List.append_nil _).symm

theorem rsplitOnce_eq_some {c : Char} {t a b : Text} :
    rsplitOnce c t = some (a, b) ↔ t = a ++ c :: b ∧ c ∉ b := by
  simp only [rsplitOnce, Option.map_eq_some_iff, Prod.exists, Prod.mk.injEq, splitOnce_eq_some]
  constructor
  · grind
  · rintro ⟨rfl, absent⟩
    exact ⟨b.reverse, a.reverse, ⟨by simp, by simpa using absent⟩, by simp, by simp⟩

theorem rsplitOnce_eq_none {c : Char} {t : Text} : rsplitOnce c t = none ↔ c ∉ t := by
  rw [rsplitOnce, Option.map_eq_none_iff, splitOnce_eq_none, List.mem_reverse]

theorem mem_dropWhile {p : Char → Bool} {c : Char} {t : Text} (member : c ∈ t) (stays : p c = false) :
    c ∈ t.dropWhile p := by
  rw [← @List.takeWhile_append_dropWhile _ p t] at member
  refine (List.mem_append.mp member).resolve_left fun dropped => ?_
  rw [List.mem_takeWhile_imp dropped] at stays
  cases stays

theorem mem_trimEndMatches {p : Char → Bool} {c : Char} {t : Text} (stays : p c = false) :
    c ∈ trimEndMatches p t ↔ c ∈ t := by
  rw [trimEndMatches, List.rdropWhile, List.mem_reverse]
  constructor
  · grind [List.Sublist.mem]
  · grind [mem_dropWhile]

theorem mem_trim {c : Char} {t : Text} (member : c ∈ t) (solid : isWhitespace c = false) : c ∈ trim t :=
  (mem_trimEndMatches solid).mpr (mem_dropWhile member solid)

theorem trim_eq_self_of_ends {t : Text} (first : ∀ c, t.head? = some c → isWhitespace c = false)
    (last : ∀ c, t.getLast? = some c → isWhitespace c = false) : trim t = t := by
  have start : t.dropWhile isWhitespace = t := by
    cases t with
    | nil => rfl
    | cons c rest => exact List.dropWhile_cons_of_neg (by simp [first c rfl])
  rw [trim, trimStartMatches, start, trimEndMatches, List.rdropWhile_eq_self_iff]
  grind

theorem trim_eq_self {t : Text} (absent : ∀ c ∈ t, isWhitespace c = false) : trim t = t :=
  trim_eq_self_of_ends (fun _ first => absent _ (List.mem_of_head? first))
    fun _ last => absent _ (List.mem_of_getLast? last)

theorem solid_head?_trim {t : Text} {c : Char} (first : (trim t).head? = some c) : isWhitespace c = false := by
  have front : (trim t) <+: trimStartMatches isWhitespace t := List.rdropWhile_prefix _ _
  have same : (trimStartMatches isWhitespace t).head? = some c := by
    obtain ⟨rest, whole⟩ := front
    grind
  grind [List.head?_dropWhile_not, trimStartMatches]

theorem solid_getLast?_trim {t : Text} {c : Char} (last : (trim t).getLast? = some c) : isWhitespace c = false := by
  have filled : trim t ≠ [] := by grind
  have stops := List.rdropWhile_last_not isWhitespace _ filled
  rw [List.getLast?_eq_some_getLast filled, Option.some.injEq] at last
  rw [← last]
  exact Bool.eq_false_iff.mpr stops

theorem trim_trim (t : Text) : trim (trim t) = trim t :=
  trim_eq_self_of_ends (fun _ => solid_head?_trim) fun _ => solid_getLast?_trim

theorem stripCr_cases (line : Text) : line = stripCr line ∨ line = stripCr line ++ ['\r'] := by
  unfold stripCr
  cases found : stripSuffix ['\r'] line with
  | none => exact .inl rfl
  | some rest => exact .inr (stripSuffix_eq_some.mp found)

theorem splitAsciiWhitespace_stripCr (line : Text) : splitAsciiWhitespace (stripCr line) = splitAsciiWhitespace line := by
  rcases stripCr_cases line with same | ended
  · grind
  · conv_rhs => rw [ended, splitAsciiWhitespace_append_cons (by decide)]
    exact (List.append_nil _).symm

theorem toLower_cases (c : Char) :
    (65 ≤ c.toNat ∧ c.toNat ≤ 90) ∧ c.toLower.toNat = c.toNat + 32 ∨
      ¬ (65 ≤ c.toNat ∧ c.toNat ≤ 90) ∧ c.toLower = c := by
  unfold Char.toLower
  split
  · rename_i upper
    refine .inl ⟨upper, ?_⟩
    have small : c.val.toNat ≤ 90 := upper.2
    change (c.val + ('a'.val - 'A'.val)).toNat = c.val.toNat + 32
    grind [UInt32.toNat_add]
  · rename_i other
    exact .inr ⟨other, rfl⟩

theorem toLower_toLower (c : Char) : c.toLower.toLower = c.toLower := by
  rcases toLower_cases c with ⟨upper, lowered⟩ | ⟨-, same⟩
  · grind [toLower_cases]
  · rw [same, same]

theorem isWhitespace_toLower {c : Char} (solid : isWhitespace c = false) : isWhitespace c.toLower = false := by
  rcases toLower_cases c with ⟨upper, lowered⟩ | ⟨-, same⟩
  · grind [isWhitespace]
  · rw [same]
    exact solid

theorem eq_of_toLower_eq {c d : Char} (below : d.toNat < 97) (same : c.toLower = d) : c = d := by
  rcases toLower_cases c with ⟨upper, lowered⟩ | ⟨-, kept⟩
  · rw [same] at lowered
    omega
  · exact kept.symm.trans same

/-- A character below the letters of lower case, itself not a capital, is kept by folding and made by nothing else. -/
theorem mem_toAsciiLowercase {c : Char} {t : Text} (below : c.toNat < 97) (kept : c.toLower = c) :
    c ∈ toAsciiLowercase t ↔ c ∈ t := by
  rw [toAsciiLowercase, List.mem_map]
  grind [eq_of_toLower_eq]

theorem toAsciiLowercase_idem (t : Text) : toAsciiLowercase (toAsciiLowercase t) = toAsciiLowercase t := by
  unfold toAsciiLowercase
  grind [List.map_congr_left, toLower_toLower]

/-- The zeros of the decimal digits of Unicode 16, each with the nine other digits after it. -/
def decimalZeros : List Nat :=
  [0x30, 0x660, 0x6F0, 0x7C0, 0x966, 0x9E6, 0xA66, 0xAE6, 0xB66, 0xBE6, 0xC66, 0xCE6, 0xD66, 0xDE6, 0xE50, 0xED0,
    0xF20, 0x1040, 0x1090, 0x17E0, 0x1810, 0x1946, 0x19D0, 0x1A80, 0x1A90, 0x1B50, 0x1BB0, 0x1C40, 0x1C50, 0xA620,
    0xA8D0, 0xA900, 0xA9D0, 0xA9F0, 0xAA50, 0xABF0, 0xFF10, 0x104A0, 0x10D30, 0x10D40, 0x11066, 0x110F0, 0x11136,
    0x111D0, 0x112F0, 0x11450, 0x114D0, 0x11650, 0x116C0, 0x116D0, 0x116DA, 0x11730, 0x118E0, 0x11950, 0x11BF0,
    0x11C50, 0x11D50, 0x11DA0, 0x11F50, 0x16130, 0x16A60, 0x16AC0, 0x16B50, 0x16D70, 0x1CCF0, 0x1D7CE, 0x1D7D8,
    0x1D7E2, 0x1D7EC, 0x1D7F6, 0x1E140, 0x1E2F0, 0x1E4F0, 0x1E5F1, 0x1E950, 0x1FBF0]

def isDecimal (c : Char) : Bool := decimalZeros.any fun first => decide (first ≤ c.toNat) && decide (c.toNat < first + 10)

theorem isDecimal_of_isDigit {c : Char} (digit : c.isDigit = true) : isDecimal c = true := by
  simp only [Char.isDigit, Bool.and_eq_true, decide_eq_true_eq, UInt32.le_iff_toNat_le] at digit
  have low : 0x30 ≤ c.toNat ∧ c.toNat < 0x30 + 10 := ⟨digit.1, Nat.lt_succ_of_le digit.2⟩
  exact List.any_eq_true.mpr ⟨0x30, List.mem_cons_self, by simp [low]⟩

theorem isWhitespace_of_isDigit {c : Char} (digit : c.isDigit = true) : isWhitespace c = false := by
  simp only [Char.isDigit, Bool.and_eq_true, decide_eq_true_eq, UInt32.le_iff_toNat_le] at digit
  have low : 48 ≤ c.toNat := digit.1
  have high : c.toNat ≤ 57 := digit.2
  grind [isWhitespace]

theorem digit?_of_isDigit {c : Char} (digit : c.isDigit = true) : digit? 10 c = some (c.toNat - '0'.toNat) := by
  simp only [Char.isDigit, Bool.and_eq_true, decide_eq_true_eq] at digit
  have range : '0' ≤ c ∧ c ≤ '9' := digit
  have high : c.toNat ≤ 57 := digit.2
  grind [digit?]

theorem le_ofDigitChars (digits : Text) (acc : Nat) : acc ≤ Nat.ofDigitChars 10 digits acc := by
  induction digits generalizing acc with
  | nil => exact Nat.le_refl acc
  | cons c rest ih => grind [Nat.ofDigitChars_cons]

theorem isDigit_of_digit? {c : Char} {d : Nat} (digit : digit? 10 c = some d) : c.isDigit = true := by
  unfold digit? at digit
  by_cases decimal : '0' ≤ c ∧ c ≤ '9'
  · simp only [Char.isDigit, Bool.and_eq_true, decide_eq_true_eq]
    exact decimal
  · grind

theorem accumulate_eq_some_iff {bound acc n : Nat} {digits : Text} (start : acc < bound) :
    accumulate 10 bound acc digits = some n ↔
      (∀ c ∈ digits, c.isDigit = true) ∧ Nat.ofDigitChars 10 digits acc = n ∧ n < bound := by
  induction digits generalizing acc with
  | nil =>
    simp only [accumulate, Option.some.injEq, List.not_mem_nil, false_imp_iff, implies_true, true_and,
      Nat.ofDigitChars_nil]
    omega
  | cons c rest ih =>
    have step : 10 * acc + (c.toNat - '0'.toNat) = acc * 10 + (c.toNat - '0'.toNat) := by omega
    rw [Nat.ofDigitChars_cons, step, List.forall_mem_cons, accumulate]
    constructor
    · intro parsed
      obtain ⟨d, digit, taken⟩ := Option.bind_eq_some_iff.mp parsed
      have decimal := isDigit_of_digit? digit
      obtain rfl := Option.some.inj ((digit?_of_isDigit decimal).symm.trans digit)
      grind
    · rintro ⟨⟨decimal, others⟩, value, below⟩
      have fits := Nat.lt_of_le_of_lt (le_ofDigitChars rest _) (value ▸ below)
      rw [digit?_of_isDigit decimal, Option.bind_some, if_pos fits]
      grind

theorem accumulate_lt {radix bound acc n : Nat} {t : Text} (start : acc < bound)
    (parsed : accumulate radix bound acc t = some n) : n < bound := by
  induction t generalizing acc with
  | nil =>
    cases parsed
    exact start
  | cons c rest ih =>
    obtain ⟨d, -, taken⟩ := Option.bind_eq_some_iff.mp parsed
    grind

theorem fromStrRadix_lt {radix bound n : Nat} {t : Text} (positive : 0 < bound)
    (parsed : fromStrRadix radix bound t = some n) : n < bound := by
  simp only [fromStrRadix, Option.ite_none_left_eq_some] at parsed
  exact accumulate_lt positive parsed.2

theorem isDigit_of_mem_ofNat {n : Nat} {c : Char} (member : c ∈ ofNat n) : c.isDigit = true :=
  Nat.isDigit_of_mem_toDigits (by decide) (by decide) member

theorem fromStrRadix_eq_some_iff {bound n : Nat} {t : Text} (positive : 0 < bound) (unsigned : t.head? ≠ some '+') :
    fromStrRadix 10 bound t = some n ↔
      t ≠ [] ∧ (∀ c ∈ t, c.isDigit = true) ∧ Nat.ofDigitChars 10 t 0 = n ∧ n < bound := by
  unfold fromStrRadix
  grind [accumulate_eq_some_iff]

theorem fromStrRadix_ofNat {n bound : Nat} (below : n < bound) : fromStrRadix 10 bound (ofNat n) = some n := by
  have unsigned : (ofNat n).head? ≠ some '+' := by
    intro plus
    exact absurd (isDigit_of_mem_ofNat (List.mem_of_head? plus)) (by decide)
  exact (fromStrRadix_eq_some_iff (Nat.zero_lt_of_lt below) unsigned).mpr
    ⟨Nat.toDigits_ne_nil, fun c => isDigit_of_mem_ofNat, Nat.ofDigitChars_ten_toDigits, below⟩

theorem join_cons_cons (separator first second : Text) (rest : List Text) :
    join separator (first :: second :: rest) = first ++ (separator ++ join separator (second :: rest)) := by
  simp [join, List.intercalate, List.intersperse_cons_cons]

theorem mem_join {c : Char} {separator : Text} {parts : List Text} (h : c ∈ join separator parts) :
    c ∈ separator ∨ ∃ part ∈ parts, c ∈ part := by
  induction parts with
  | nil => simp [join, List.intercalate] at h
  | cons first rest ih =>
    cases rest with
    | nil =>
      simp only [join, List.intercalate, List.intersperse_singleton, List.flatten_cons,
        List.flatten_nil, List.append_nil] at h
      grind
    | cons second others =>
      rw [join_cons_cons, List.mem_append, List.mem_append] at h
      grind

theorem isWhitespace_of_digit? {radix d : Nat} {c : Char} (digit : digit? radix c = some d) :
    isWhitespace c = false := by
  have alphanumeric : (48 ≤ c.toNat ∧ c.toNat ≤ 57) ∨ (97 ≤ c.toNat ∧ c.toNat ≤ 122) ∨
      (65 ≤ c.toNat ∧ c.toNat ≤ 90) := by
    unfold digit? at digit
    by_cases decimal : '0' ≤ c ∧ c ≤ '9'
    · exact .inl decimal
    · by_cases lower : 'a' ≤ c ∧ c ≤ 'z'
      · exact .inr (.inl lower)
      · by_cases upper : 'A' ≤ c ∧ c ≤ 'Z'
        · exact .inr (.inr upper)
        · simp [decimal, lower, upper] at digit
  simp only [isWhitespace, Bool.or_eq_false_iff, Bool.and_eq_false_iff, decide_eq_false_iff_not, beq_eq_false_iff_ne]
  omega

theorem eq_of_splitOnceText {pattern t before after : Text} (found : splitOnceText pattern t = some (before, after)) :
    t = before ++ pattern ++ after := by
  induction t generalizing before with
  | nil =>
    simp only [splitOnceText, Option.ite_none_right_eq_some, Option.some.injEq, Prod.mk.injEq] at found
    grind
  | cons c rest ih =>
    rw [splitOnceText] at found
    split at found
    · rename_i behind here
      cases found
      exact stripPrefix_eq_some.mp here
    · obtain ⟨parts, later, whole⟩ := Option.map_eq_some_iff.mp found
      grind

end Text
