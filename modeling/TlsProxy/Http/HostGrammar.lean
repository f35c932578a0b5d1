import TlsProxy.Config.HostMatch
import TlsProxy.Http.Head
import TlsProxy.Lib.IpAddr

/-! What `split_host_port` accepts, against the four forms its doc comment lists. -/
namespace TlsProxy.Http

open Config Text

inductive Authority
  | name (host : Text) (port : Option Nat)
  | ipv6 (literal : Text) (port : Option Nat)

namespace Authority

def host : Authority → Text
  | name host _ => host
  | ipv6 literal _ => literal

def port : Authority → Option Nat
  | name _ port => port
  | ipv6 _ port => port

def sameHost (a b : Text) : Bool := eqIgnoreAsciiCase (trimDots a) (trimDots b)

/-- Two authorities that differ in the port only, or in the spelling of one name, have the same host. -/
def SameHost : Authority → Authority → Prop
  | name a _, name b _ => sameHost a b = true
  | ipv6 a _, ipv6 b _ => sameHost a b = true
  | _, _ => False

end Authority

structure IsName (host : Text) : Prop where
  filled : host ≠ []
  solid : ∀ c ∈ host, isWhitespace c = false
  plain : ':' ∉ host

structure IsPort (digits : Text) (port : Nat) : Prop where
  filled : digits ≠ []
  decimal : ∀ c ∈ digits, c.isDigit = true
  value : Nat.ofDigitChars 10 digits 0 = port
  fits : port ≤ 65535

inductive Names : Text → Authority → Prop
  | name {host : Text} (valid : IsName host) : Names host (.name host none)
  | namePort {host digits : Text} {port : Nat} (valid : IsName host) (ported : IsPort digits port) :
      Names (host ++ ':' :: digits) (.name host (some port))
  | ipv6 {literal : Text} (valid : Ipv6Addr.isLiteral literal = true) :
      Names ('[' :: (literal ++ [']'])) (.ipv6 literal none)
  | ipv6Port {literal digits : Text} {port : Nat} (valid : Ipv6Addr.isLiteral literal = true)
      (ported : IsPort digits port) : Names ('[' :: (literal ++ ']' :: ':' :: digits)) (.ipv6 literal (some port))

theorem isPort_iff {digits : Text} (unsigned : digits.head? ≠ some '+') {port : Nat} :
    parseU16 digits = some port ↔ IsPort digits port := by
  rw [parseU16, fromStrRadix_eq_some_iff (by decide) unsigned]
  constructor
  · rintro ⟨filled, decimal, value, fits⟩
    exact ⟨filled, decimal, value, Nat.le_of_lt_succ fits⟩
  · rintro ⟨filled, decimal, value, fits⟩
    grind

theorem IsPort.unsigned {digits : Text} {port : Nat} (ported : IsPort digits port) : digits.head? ≠ some '+' := by
  intro plus
  exact absurd (ported.decimal _ (List.mem_of_head? plus)) (by decide)

theorem IsPort.not_mem {digits : Text} {port : Nat} (ported : IsPort digits port) {c : Char} (other : c.isDigit = false) :
    c ∉ digits := by grind [IsPort.decimal]

theorem exists_isPort {digits : Text} {port : Option Nat} (unsigned : digits.head? ≠ some '+')
    (ports : some (parseU16 digits) = port.map some) : ∃ number, port = some number ∧ IsPort digits number := by
  cases port with
  | none => cases ports
  | some number => grind [isPort_iff]

theorem IsPort.parsed {digits : Text} {port : Nat} (ported : IsPort digits port) : parseU16 digits = some port :=
  (isPort_iff ported.unsigned).mpr ported

/-- A value is cut into a host and the text of a port. -/
inductive Cut : Text → Text → Option Text → Prop
  | bracketed {host after : Text} (clean : ']' ∉ host) : Cut ('[' :: (host ++ ']' :: after)) host (stripPrefix [':'] after)
  | lastColon {v host digits : Text} (plain : v.head? ≠ some '[') (whole : v = host ++ ':' :: digits)
      (clean : ':' ∉ digits) : Cut v host (some digits)
  | uncut {v : Text} (plain : v.head? ≠ some '[') (clean : ':' ∉ v) : Cut v v none

theorem stripPrefix_bracket_eq_none {v : Text} : stripPrefix ['['] v = none ↔ v.head? ≠ some '[' := by
  rw [← not_iff_not, ← ne_eq, Option.ne_none_iff_exists', not_not]
  simp only [stripPrefix_eq_some, List.singleton_append, List.head?_eq_some_iff]

def checkedHost (v host : Text) (portText : Option Text) : Except Text (Text × Option Nat) :=
  if host.isEmpty ∨ host.any isWhitespace then .error ("invalid HTTP Host header `".toList ++ v ++ "`".toList)
  else
    match portText with
    | none => .ok (host, none)
    | some port =>
      match parseU16 port with
      | some port => .ok (host, some port)
      | none => .error ("invalid port in Host header `".toList ++ v ++ "`".toList)

theorem checkedHost_eq_ok {v found host : Text} {portText : Option Text} {port : Option Nat} :
    checkedHost v found portText = .ok (host, port) ↔ found = host ∧ host ≠ [] ∧
      (∀ c ∈ host, isWhitespace c = false) ∧ portText.map parseU16 = port.map some := by
  have usable : ¬ (found.isEmpty ∨ found.any isWhitespace) ↔ found ≠ [] ∧ ∀ c ∈ found, isWhitespace c = false := by
    simp [not_or]
  unfold checkedHost
  by_cases bad : found.isEmpty ∨ found.any isWhitespace
  · rw [if_pos bad]
    grind
  · rw [if_neg bad]
    obtain ⟨filled, solid⟩ := usable.mp bad
    have same : ∀ read : Option Nat, (.ok (found, read) : Except Text (Text × Option Nat)) = .ok (host, port) ↔
        found = host ∧ host ≠ [] ∧ (∀ c ∈ host, isWhitespace c = false) ∧ read = port := by
      intro read
      rw [Except.ok.injEq, Prod.mk.injEq]
      grind
    cases portText with
    | none => exact (same none).trans (by cases port <;> simp)
    | some digits =>
      cases read : parseU16 digits with
      | none => cases port <;> simp [read]
      | some number =>
        simp only [read, same, Option.map_some]
        cases port <;> simp

theorem splitHostPort_of_cut {v host : Text} {portText : Option Text} (filled : v ≠ []) (cut : Cut v host portText) :
    splitHostPort v = checkedHost v host portText := by
  unfold splitHostPort
  rw [if_neg (by rwa [List.isEmpty_iff])]
  cases cut with
  | @bracketed _ after clean =>
    have bracket : stripPrefix ['['] ('[' :: (host ++ ']' :: after)) = some (host ++ ']' :: after) :=
      stripPrefix_eq_some.mpr rfl
    rw [bracket]
    dsimp only
    rw [splitOnce_eq_some.mpr ⟨rfl, clean⟩]
    rfl
  | lastColon plain whole clean =>
    rw [stripPrefix_bracket_eq_none.mpr plain, rsplitOnce_eq_some.mpr ⟨whole, clean⟩]
    rfl
  | uncut plain clean =>
    rw [stripPrefix_bracket_eq_none.mpr plain, rsplitOnce_eq_none.mpr clean]
    rfl

theorem splitHostPort_eq_ok {v host : Text} {port : Option Nat} :
    splitHostPort v = .ok (host, port) ↔ ∃ portText, Cut v host portText ∧ host ≠ [] ∧
      (∀ c ∈ host, isWhitespace c = false) ∧ portText.map parseU16 = port.map some := by
  constructor
  · intro accepted
    have filled : v ≠ [] := by
      rintro rfl
      cases accepted
    suffices ∃ found portText, Cut v found portText by
      obtain ⟨found, portText, cut⟩ := this
      obtain ⟨rfl, checks⟩ := checkedHost_eq_ok.mp ((splitHostPort_of_cut filled cut).symm.trans accepted)
      exact ⟨portText, cut, checks⟩
    by_cases plain : v.head? = some '['
    · obtain ⟨rest, rfl⟩ := List.head?_eq_some_iff.mp plain
      cases split : splitOnce ']' rest with
      | none =>
        have bracket : stripPrefix ['['] ('[' :: rest) = some rest := stripPrefix_eq_some.mpr rfl
        unfold splitHostPort at accepted
        rw [if_neg (by simp), bracket] at accepted
        dsimp only at accepted
        rw [split] at accepted
        cases accepted
      | some parts =>
        obtain ⟨rfl, clean⟩ := splitOnce_eq_some.mp (show splitOnce ']' rest = some (parts.1, parts.2) from split)
        exact ⟨_, _, .bracketed clean⟩
    · cases split : rsplitOnce ':' v with
      | none => exact ⟨_, _, .uncut plain (rsplitOnce_eq_none.mp split)⟩
      | some parts =>
        obtain ⟨whole, clean⟩ := rsplitOnce_eq_some.mp (show rsplitOnce ':' v = some (parts.1, parts.2) from split)
        exact ⟨_, _, .lastColon plain whole clean⟩
  · rintro ⟨portText, cut, filled, checks⟩
    have nonempty : v ≠ [] := by
      rintro rfl
      cases cut with
      | lastColon plain whole clean => simp at whole
      | uncut plain clean => exact filled rfl
    rw [splitHostPort_of_cut nonempty cut]
    exact checkedHost_eq_ok.mpr ⟨rfl, filled, checks⟩

def Usable (host : Text) : Prop := host ≠ [] ∧ ∀ c ∈ host, isWhitespace c = false

/-- What is read behind the last colon of a value without brackets has one colon and no sign. A value in brackets is
not itself a name, and if it is read then as an IPv6 address, with nothing behind it or a port without a sign. -/
def Separated (v : Text) : Prop :=
  match stripPrefix ['['] v with
  | none => ∀ host digits, v = host ++ ':' :: digits → ':' ∉ digits → Usable host → (parseU16 digits).isSome →
    ':' ∉ host ∧ digits.head? ≠ some '+'
  | some rest => (∀ host port, ¬ Names v (.name host port)) ∧
    ∀ literal after, rest = literal ++ ']' :: after → ']' ∉ literal → Usable literal →
      (∀ digits, after = ':' :: digits → (parseU16 digits).isSome) →
      Ipv6Addr.isLiteral literal = true ∧ (after = [] ∨ ∃ digits, after = ':' :: digits ∧ digits.head? ≠ some '+')

theorem separated_plain {v : Text} (plain : v.head? ≠ some '[') : Separated v ↔
    ∀ host digits, v = host ++ ':' :: digits → ':' ∉ digits → Usable host → (parseU16 digits).isSome →
      ':' ∉ host ∧ digits.head? ≠ some '+' := by
  rw [Separated, stripPrefix_bracket_eq_none.mpr plain]

theorem separated_bracket {rest : Text} : Separated ('[' :: rest) ↔ (∀ host port, ¬ Names ('[' :: rest) (.name host port)) ∧
    ∀ literal after, rest = literal ++ ']' :: after → ']' ∉ literal → Usable literal →
      (∀ digits, after = ':' :: digits → (parseU16 digits).isSome) →
      Ipv6Addr.isLiteral literal = true ∧ (after = [] ∨ ∃ digits, after = ':' :: digits ∧ digits.head? ≠ some '+') := by
  rw [Separated, show stripPrefix ['['] ('[' :: rest) = some rest from stripPrefix_eq_some.mpr rfl]

theorem Names.single {v host digits : Text} {authority : Authority} (named : Names v authority)
    (plain : v.head? ≠ some '[') (whole : v = host ++ ':' :: digits) (clean : ':' ∉ digits) :
    ':' ∉ host ∧ digits.head? ≠ some '+' := by
  cases named with
  | name valid => exact absurd (whole ▸ by simp) valid.plain
  | @namePort _ other _ valid ported =>
    obtain ⟨rfl, rfl⟩ := Prod.mk.inj (Option.some.inj ((rsplitOnce_eq_some.mpr ⟨rfl, ported.not_mem (by decide)⟩).symm.trans
      (rsplitOnce_eq_some.mpr ⟨whole, clean⟩)))
    exact ⟨valid.plain, ported.unsigned⟩
  | ipv6 valid => exact absurd rfl plain
  | ipv6Port valid ported => exact absurd rfl plain

/-- The text in brackets is never the name that the whole value is. -/
theorem Names.not_inside {host after : Text} {port : Option Nat} :
    ¬ Names ('[' :: (host ++ ']' :: after)) (.name host port) := by
  intro named
  generalize whole : '[' :: (host ++ ']' :: after) = v at named
  cases named with
  | name valid =>
    have length := congrArg List.length whole
    rw [List.length_cons, List.length_append, List.length_cons] at length
    omega
  | @namePort _ digits _ valid ported =>
    have inside : ('[' :: host)[host.length]? = some ':' := by
      have same := congrArg (fun t : Text => t[host.length]?) whole
      grind
    have colon : ':' ∈ '[' :: host := List.mem_of_getElem? inside
    exact valid.plain ((List.mem_cons.mp colon).resolve_left (by decide))

def ReadAsNamed (v : Text) : Prop :=
  ∀ host port, splitHostPort v = .ok (host, port) ↔
    ∃ authority, Names v authority ∧ authority.host = host ∧ authority.port = port

theorem separated_of_readAsNamed {v : Text} (reads : ReadAsNamed v) : Separated v := by
  have named {host : Text} {portText : Option Text} {port : Option Nat} (cut : Cut v host portText) (usable : Usable host)
      (ports : portText.map parseU16 = port.map some) :
      ∃ authority, Names v authority ∧ authority.host = host ∧ authority.port = port :=
    (reads host port).mp (splitHostPort_eq_ok.mpr ⟨portText, cut, usable.1, usable.2, ports⟩)
  by_cases plain : v.head? = some '['
  · obtain ⟨rest, rfl⟩ := List.head?_eq_some_iff.mp plain
    have unnamed : ∀ host port, ¬ Names ('[' :: rest) (.name host port) := by
      intro host port isName
      obtain ⟨portText, cut, -⟩ := splitHostPort_eq_ok.mp ((reads host port).mpr ⟨_, isName, rfl, rfl⟩)
      cases cut with
      | bracketed => exact Names.not_inside isName
      | lastColon other => exact absurd rfl other
      | uncut other => exact absurd rfl other
    refine separated_bracket.mpr ⟨unnamed, ?_⟩
    rintro literal after rfl clean usable ported
    obtain ⟨port, ports⟩ : ∃ port : Option Nat, (stripPrefix [':'] after).map parseU16 = port.map some := by
      cases behind : stripPrefix [':'] after with
      | none => exact ⟨none, rfl⟩
      | some digits =>
        obtain ⟨number, read⟩ := Option.isSome_iff_exists.mp (ported digits (stripPrefix_eq_some.mp behind))
        exact ⟨some number, congrArg some read⟩
    obtain ⟨authority, isNamed, same, -⟩ := named (.bracketed clean) usable ports
    generalize whole : '[' :: (literal ++ ']' :: after) = v at isNamed
    cases isNamed with
    | name valid => exact absurd (.name valid) (whole ▸ unnamed _ _)
    | namePort valid ported => exact absurd (.namePort valid ported) (whole ▸ unnamed _ _)
    | ipv6 valid =>
      cases same
      exact ⟨valid, .inl (List.cons.inj (List.append_cancel_left (List.cons.inj whole).2)).2⟩
    | @ipv6Port _ digits _ valid ported =>
      cases same
      exact ⟨valid, .inr ⟨digits, (List.cons.inj (List.append_cancel_left (List.cons.inj whole).2)).2, ported.unsigned⟩⟩
  · rw [separated_plain plain]
    intro host digits whole clean usable ported
    obtain ⟨number, read⟩ := Option.isSome_iff_exists.mp ported
    obtain ⟨authority, isNamed, -⟩ := @named host (some digits) (some number) (.lastColon plain whole clean)
      usable (congrArg some read)
    exact isNamed.single plain whole clean

theorem isSome_of_ports {digits : Text} {port : Option Nat} (ports : (some digits).map parseU16 = port.map some) :
    (parseU16 digits).isSome := by
  cases port with
  | none => cases ports
  | some number => exact Option.isSome_iff_exists.mpr ⟨number, Option.some.inj ports⟩

theorem stripPrefix_colon (digits : Text) : stripPrefix [':'] (':' :: digits) = some digits := stripPrefix_eq_some.mpr rfl

theorem Separated.named {v host : Text} {portText : Option Text} {port : Option Nat} (separated : Separated v)
    (cut : Cut v host portText) (usable : Usable host) (ports : portText.map parseU16 = port.map some) :
    ∃ authority, Names v authority ∧ authority.host = host ∧ authority.port = port := by
  cases cut with
  | @bracketed _ after clean =>
    have parsed (digits : Text) (shape : after = ':' :: digits) : (parseU16 digits).isSome := by
      rw [shape, stripPrefix_colon] at ports
      exact isSome_of_ports ports
    obtain ⟨valid, ends⟩ := (separated_bracket.mp separated).2 host after rfl clean usable parsed
    rcases ends with rfl | ⟨digits, rfl, unsigned⟩
    · have behind : stripPrefix [':'] [] = none := rfl
      rw [behind, Option.map_none, eq_comm, Option.map_eq_none_iff] at ports
      exact ⟨_, .ipv6 valid, rfl, ports.symm⟩
    · rw [stripPrefix_colon] at ports
      obtain ⟨number, rfl, ported⟩ := exists_isPort unsigned ports
      exact ⟨_, .ipv6Port valid ported, rfl, rfl⟩
  | @lastColon _ _ digits plain whole clean =>
    obtain ⟨clear, unsigned⟩ := (separated_plain plain).mp separated host digits whole clean usable (isSome_of_ports ports)
    obtain ⟨number, rfl, ported⟩ := exists_isPort unsigned ports
    subst whole
    exact ⟨_, .namePort ⟨usable.1, usable.2, clear⟩ ported, rfl, rfl⟩
  | uncut plain clean =>
    rw [Option.map_none, eq_comm, Option.map_eq_none_iff] at ports
    exact ⟨_, .name ⟨usable.1, usable.2, clean⟩, rfl, ports.symm⟩

/-- A separated value is accepted exactly when it has one of the four forms, and read as what it names. -/
theorem readAsNamed_of_separated {v : Text} (separated : Separated v) : ReadAsNamed v := by
  intro host port
  rw [splitHostPort_eq_ok]
  constructor
  · rintro ⟨portText, cut, filled, solid, ports⟩
    exact separated.named cut ⟨filled, solid⟩ ports
  · rintro ⟨authority, named, rfl, rfl⟩
    have plain {name : Text} {port : Option Nat} (isName : Names v (.name name port)) : v.head? ≠ some '[' := by
      intro bracket
      obtain ⟨rest, rfl⟩ := List.head?_eq_some_iff.mp bracket
      exact (separated_bracket.mp separated).1 _ _ isName
    cases named with
    | name valid => exact ⟨none, .uncut (plain (.name valid)) valid.plain, valid.filled, valid.solid, rfl⟩
    | @namePort _ digits _ valid ported =>
      exact ⟨some digits, .lastColon (plain (.namePort valid ported)) rfl (ported.not_mem (by decide)), valid.filled,
        valid.solid, congrArg some ported.parsed⟩
    | ipv6 valid =>
      have filled := List.ne_nil_of_mem (Ipv6Addr.colon_mem_of_isLiteral valid)
      exact ⟨none, .bracketed (Ipv6Addr.bracket_not_mem_of_isLiteral valid), filled,
        Ipv6Addr.solid_of_isLiteral valid, rfl⟩
    | @ipv6Port _ digits _ valid ported =>
      have filled := List.ne_nil_of_mem (Ipv6Addr.colon_mem_of_isLiteral valid)
      exact ⟨some digits, stripPrefix_colon digits ▸ .bracketed (Ipv6Addr.bracket_not_mem_of_isLiteral valid), filled,
        Ipv6Addr.solid_of_isLiteral valid, congrArg some ported.parsed⟩

theorem Names.plain {v host : Text} {port : Option Nat} (named : Names v (.name host port)) : ':' ∉ host := by
  cases named with
  | name valid => exact valid.plain
  | namePort valid ported => exact valid.plain

theorem Names.colon {v literal : Text} {port : Option Nat} (named : Names v (.ipv6 literal port)) : ':' ∈ literal := by
  cases named with
  | ipv6 valid => exact Ipv6Addr.colon_mem_of_isLiteral valid
  | ipv6Port valid ported => exact Ipv6Addr.colon_mem_of_isLiteral valid

theorem colon_mem_iff_of_sameHost {a b : Text} (same : Authority.sameHost a b = true) : ':' ∈ a ↔ ':' ∈ b := by
  have normal : ∀ t : Text, ':' ∈ toAsciiLowercase (trimDots t) ↔ ':' ∈ t := fun t =>
    (mem_toAsciiLowercase (by decide) (by decide)).trans (mem_trimEndMatches (by decide))
  rw [← normal a, eqIgnoreAsciiCase_iff.mp same, normal b]

theorem sameHost_of_names {v w : Text} {a b : Authority} (first : Names v a) (second : Names w b)
    (same : Authority.sameHost a.host b.host = true) : a.SameHost b := by
  have colons := colon_mem_iff_of_sameHost same
  cases a with
  | name host port =>
    cases b with
    | name other _ => exact same
    | ipv6 literal _ => exact first.plain (colons.mpr second.colon)
  | ipv6 literal port =>
    cases b with
    | name other _ => exact second.plain (colons.mp first.colon)
    | ipv6 other _ => exact same

/-- Exactly the separated values are accepted if and only if they have one of the four forms, as what they name; and
two of them that name different hosts are not routed as the same host. -/
theorem host_grammar (v : Text) : (ReadAsNamed v ↔ Separated v) ∧
    ∀ w, Separated v → Separated w → ∀ a b, Names v a → Names w b → ¬ a.SameHost b →
      ∀ host port other otherPort, splitHostPort v = .ok (host, port) → splitHostPort w = .ok (other, otherPort) →
        Authority.sameHost host other = false := by
  refine ⟨⟨separated_of_readAsNamed, readAsNamed_of_separated⟩, ?_⟩
  intro w separated separatedToo a b first second different host port other otherPort read readToo
  have readAs : splitHostPort v = .ok (a.host, a.port) :=
    (readAsNamed_of_separated separated _ _).mpr ⟨a, first, rfl, rfl⟩
  have readTooAs : splitHostPort w = .ok (b.host, b.port) :=
    (readAsNamed_of_separated separatedToo _ _).mpr ⟨b, second, rfl, rfl⟩
  obtain ⟨rfl, -⟩ := Prod.mk.inj (Except.ok.inj (readAs.symm.trans read))
  obtain ⟨rfl, -⟩ := Prod.mk.inj (Except.ok.inj (readTooAs.symm.trans readToo))
  rw [← Bool.not_eq_true]
  exact fun same => different (sameHost_of_names first second same)

/-- Values of none of the four forms are accepted, and a name in brackets is routed as the name. -/
theorem splitHostPort_accepts_more :
    (splitHostPort "a:b:80".toList = .ok ("a:b".toList, some 80) ∧ ¬ ∃ authority, Names "a:b:80".toList authority) ∧
      (splitHostPort "a:+80".toList = .ok ("a".toList, some 80) ∧ ¬ ∃ authority, Names "a:+80".toList authority) ∧
      Names "[a.example]".toList (.name "[a.example]".toList none) ∧
      splitHostPort "[a.example]".toList = splitHostPort "a.example".toList ∧
      splitHostPort "a.example".toList = .ok ("a.example".toList, none) := by
  refine ⟨⟨by decide +kernel, ?_⟩, ⟨by decide +kernel, ?_⟩,
    .name ⟨by decide, List.forall_iff_forall_mem.mp (by decide), by decide⟩, by decide +kernel, by decide +kernel⟩
  · rintro ⟨authority, named⟩
    exact absurd (@Names.single _ "a:b".toList "80".toList _ named (by decide) (by decide) (by decide)).1 (by decide)
  · rintro ⟨authority, named⟩
    exact absurd (@Names.single _ "a".toList "+80".toList _ named (by decide) (by decide) (by decide)).2 (by decide)

end TlsProxy.Http
