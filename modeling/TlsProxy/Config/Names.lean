import TlsProxy.Lib.Utf8
import TlsProxy.Config.Types

/-! `normalize_domain`, `parse_bind_pattern`, `HostAndPort::from_str` and
`parse_size`, with the texts of their errors. -/
namespace TlsProxy.Config

def byteLen (t : Text) : Nat := (Utf8.encode t).length

theorem byteLen_append (a b : Text) : byteLen (a ++ b) = byteLen a + byteLen b := by
  simp only [byteLen, Utf8.encode_append, List.length_append]

theorem byteLen_eq_zero {t : Text} (zero : byteLen t = 0) : t = [] := by
  cases t with
  | nil => rfl
  | cons c rest =>
    rw [byteLen, Utf8.encode_cons, List.length_append, String.length_utf8EncodeChar] at zero
    grind [Char.utf8Size_pos]

theorem eq_of_prefix_of_byteLen {a b : Text} (front : a <+: b) (same : byteLen a = byteLen b) : a = b := by
  obtain ⟨rest, rfl⟩ := front
  grind [byteLen_append, byteLen_eq_zero]

def quoted (t : Text) : Text := "`".toList ++ t ++ "`".toList

def normalizeDomain (domain : Text) : Except Text Text :=
  let domain := Text.toAsciiLowercase (Text.trimEndMatches (· == '.') (Text.trim domain))
  if domain.isEmpty || byteLen domain > 253 || domain.contains '/' || domain.contains '\x00' ||
      (domain.splitOn '.').any fun label => label.isEmpty || byteLen label > 63 then
    .error ("invalid DNS name ".toList ++ quoted domain)
  else .ok domain

theorem eq_of_normalizeDomain {domain name : Text} (normal : normalizeDomain domain = .ok name) :
    name = Text.toAsciiLowercase (Text.trimEndMatches (· == '.') (Text.trim domain)) := by
  unfold normalizeDomain at normal
  grind

section Solid

variable {domain name : Text} (solid : ∀ c ∈ domain, Text.isWhitespace c = false)
  (normal : normalizeDomain domain = .ok name)

include solid normal

theorem normalizeDomain_solid : ∀ c ∈ name, Text.isWhitespace c = false := by
  intro c member
  rw [eq_of_normalizeDomain normal, Text.trim_eq_self solid] at member
  obtain ⟨original, inside, rfl⟩ := List.mem_map.mp member
  exact Text.isWhitespace_toLower (solid original ((List.rdropWhile_prefix _ _).subset inside))

theorem normalizeDomain_normal : normalizeDomain name = .ok name := by
  have cleaned : name = Text.toAsciiLowercase (Text.trimEndMatches (· == '.') domain) := by
    rw [eq_of_normalizeDomain normal, Text.trim_eq_self solid]
  have trimmed : Text.trim name = name := Text.trim_eq_self (normalizeDomain_solid solid normal)
  have dotless : Text.trimEndMatches (· == '.') name = name := by
    apply List.rdropWhile_eq_self_iff.mpr
    subst cleaned
    unfold Text.toAsciiLowercase
    intro nonempty dot
    rw [List.getLast_map, beq_iff_eq] at dot
    exact List.rdropWhile_last_not (· == '.') domain _ (beq_iff_eq.mpr (Text.eq_of_toLower_eq (by decide) dot))
  have again : Text.toAsciiLowercase (Text.trimEndMatches (· == '.') (Text.trim name)) =
      Text.toAsciiLowercase (Text.trimEndMatches (· == '.') (Text.trim domain)) := by
    grind [Text.trim_eq_self, Text.toAsciiLowercase_idem]
  grind [normalizeDomain]

end Solid

inductive Family
  | v4
  | v6
deriving DecidableEq

inductive BindPattern
  | literal (address : Text)
  | interface (name : Text) (family : Family) (port : Option Nat)
deriving DecidableEq

def invalidBind (input reason : Text) : Text := "invalid bind pattern ".toList ++ quoted input ++ ": ".toList ++ reason

def parseFamily (input inner : Text) : Except Text (Text × Family) :=
  match Text.splitOnce '/' inner with
  | none => .ok (inner, .v4)
  | some (name, family) =>
    if family = "v4".toList then .ok (name, .v4)
    else if family = "v6".toList then .ok (name, .v6)
    else .error (invalidBind input
      ("unknown family suffix ".toList ++ quoted ('/' :: family) ++ " (use /v4 or /v6)".toList))

def parseBindPort (input after : Text) : Except Text (Option Nat) :=
  match after with
  | [] => .ok none
  | ':' :: port =>
    match Text.parseU16 port with
    | some value => .ok (some value)
    | none => .error (invalidBind input ("invalid port ".toList ++ quoted port))
  | _ => .error (invalidBind input "expected `:port` after closing `%`".toList)

def parseBindPattern (input : Text) : Except Text BindPattern :=
  match Text.trim input with
  | '%' :: rest =>
    match Text.splitOnce '%' rest with
    | none => .error (invalidBind input "missing closing `%`".toList)
    | some (inner, after) => do
      let (name, family) ← parseFamily input inner
      if name.isEmpty then .error (invalidBind input "empty interface name".toList)
      else
        let port ← parseBindPort input after
        .ok (.interface name family port)
  | trimmed => .ok (.literal trimmed)

structure HostAndPort where
  host : Text
  port : Nat
deriving DecidableEq

namespace HostAndPort

def display (target : HostAndPort) : Text := target.host ++ ':' :: Text.ofNat target.port

/-- Case folding as far as the two keywords of the patterns can meet it. -/
def fold (c : Char) : Char := if c = 'ſ' then 's' else c.toLower

/-- The captures of a pattern with a host, a separator and digits, of which only the ASCII ones parse as a port. -/
def captures (separator : Char) (input : Text) : Option (Text × Text) :=
  match Text.rsplitOnce separator input with
  | none => none
  | some (left, right) =>
    let host := Text.trim left
    let port := Text.trim right
    if !host.isEmpty && !host.any Text.isWhitespace && !port.isEmpty && port.all Text.isDecimal then
      some (host, port)
    else none

def keyword (word input : Text) : Option Text :=
  let input := Text.trimStartMatches Text.isWhitespace input
  if (input.take word.length).map fold = word then
    match Text.trimStartMatches Text.isWhitespace (input.drop word.length) with
    | '=' :: rest => some rest
    | _ => none
  else none

def keyCaptures (input : Text) : Option (Text × Text) :=
  match (keyword "host".toList input).bind (Text.rsplitOnce ',') with
  | none => none
  | some (left, right) =>
    match keyword "port".toList right with
    | none => none
    | some digits =>
      let host := Text.trim left
      let port := Text.trim digits
      if !host.isEmpty && !host.any Text.isWhitespace && !port.isEmpty && port.all Text.isDecimal then
        some (host, port)
      else none

def fromStr (input : Text) : Except Text HostAndPort :=
  match keyCaptures input <|> captures ':' input <|> captures '@' input <|> captures '|' input with
  | some (host, digits) =>
    match Text.parseU16 digits with
    | some port => .ok { host, port }
    | none => .error (digits ++ " (in ".toList ++ input ++ ") is not valid port".toList)
  | none => .error ("unsupported HostAndPort spec ".toList ++ quoted input ++
      ". Support `host:port`, `host@port`, `host|port`, `host=xxx,port=yyy` formats only".toList)

def parseOrDefault (host : Text) (defaultPort : Nat) : HostAndPort :=
  match fromStr host with
  | .ok parsed => parsed
  | .error _ => { host, port := defaultPort }

end HostAndPort

def parseSize (size : Text) : Except Text Nat :=
  let lower := Text.toAsciiLowercase (Text.trim size)
  let (digits, multiplier) :=
    match Text.stripSuffix "kib".toList lower, Text.stripSuffix "mib".toList lower,
        Text.stripSuffix "gib".toList lower with
    | some digits, _, _ => (digits, 1024)
    | none, some digits, _ => (digits, 1024 * 1024)
    | none, none, some digits => (digits, 1024 * 1024 * 1024)
    | none, none, none => (lower, 1)
  match Text.parseU64 (Text.trim digits) with
  | none => .error ("invalid size ".toList ++ quoted size ++ "; use bytes or a KiB/MiB/GiB suffix".toList)
  | some value =>
    if value * multiplier < UInt64.size then .ok (value * multiplier)
    else .error ("size ".toList ++ quoted size ++ " overflows".toList)

end TlsProxy.Config
