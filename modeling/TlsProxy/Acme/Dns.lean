import TlsProxy.Acme.Tasks
import TlsProxy.Lib.IpAddr

/-! `acme/dns.rs`: every domain is looked up with all public resolvers, the answers
are compared with the configured self IPs, and what has been found is stored as
diagnostics of the certificate, whether or not it passes. -/
namespace TlsProxy.Acme

open Config Checks Certificates Programs

structure Resolving where
  parseIpAddr : Text → Except Text IpAddr
  /-- The addresses of a domain by a resolver and its place in the list, in the order of their set. -/
  lookup : Nat → Text → Text → Except Text (List IpAddr)
  checkedAt : Text → OffsetDateTime
  /-- The debug output of a set of addresses. -/
  debugSet : List IpAddr → Text

structure ResolverResult where
  resolver : Text
  addresses : Except Text (List IpAddr)

def ResolverResult.passes (selfIps : List IpAddr) (result : ResolverResult) : Bool :=
  match result.addresses with
  | .ok addresses => !addresses.isEmpty && addresses.all selfIps.contains
  | .error _ => false

section

variable (resolving : Resolving)

def ResolverResult.detail (result : ResolverResult) : Text :=
  match result.addresses with
  | .ok addresses => result.resolver ++ '=' :: resolving.debugSet addresses
  | .error cause => result.resolver ++ "=error(".toList ++ cause ++ [')']

def evaluateDomain (domain : Text) (selfIps : List IpAddr) (results : List ResolverResult) (requireAll : Bool) :
    Except Text Unit :=
  let passes := results.map (ResolverResult.passes selfIps)
  require ((if requireAll then passes.all id else passes.any id) = true)
    ("public DNS prerequisite failed for ".toList ++ quoted domain ++ ": expected only ".toList ++
      resolving.debugSet selfIps ++ "; ".toList ++
      Text.join ", ".toList (results.map (ResolverResult.detail resolving)))

def ResolverResult.diagnostic (certificateId domain : Text) (selfIps : List IpAddr) (result : ResolverResult) :
    DnsDiagnostic :=
  let (addresses, error) : List Text × Option Text :=
    match result.addresses with
    | .ok addresses => (addresses.map IpAddr.display, none)
    | .error cause => ([], some cause)
  { certificateId, domain, resolver := result.resolver
    addresses := Std.ExtTreeSet.ofList addresses
    passed := error.isNone && !addresses.isEmpty && addresses.all fun address =>
      match resolving.parseIpAddr address with
      | .ok ip => selfIps.contains ip
      | .error _ => false
    error
    checkedAt := some (resolving.checkedAt domain) }

def lookupAll (resolvers : List Text) (domain : Text) : List ResolverResult :=
  resolvers.mapIdx fun place resolver => ⟨resolver, resolving.lookup place resolver domain⟩

/-- The domains one after the other, until one fails; then what has been found is saved. -/
def verifyDomains (certificateId : Text) (control : ControlPlaneConfig) (selfIps : List IpAddr) :
    List Text → List DnsDiagnostic → Task Unit
  | [], diagnostics => saveDnsDiagnostics certificateId diagnostics
  | domain :: rest, diagnostics => do
    let domain ← ofExcept (normalizeDomain domain)
    let results := lookupAll resolving control.publicResolvers domain
    let diagnostics := diagnostics ++ results.map (ResolverResult.diagnostic resolving certificateId domain selfIps)
    match evaluateDomain resolving domain selfIps results control.requireAllResolvers with
    | .error cause => do
      saveDnsDiagnostics certificateId diagnostics
      throw cause
    | .ok () => verifyDomains certificateId control selfIps rest diagnostics

def expectedIps (control : ControlPlaneConfig) : Except Text (List IpAddr) := do
  require (control.publicResolvers ≠ []) "at least one public DNS resolver must be configured".toList
  let selfIps ← control.selfIps.mapM fun value =>
    (resolving.parseIpAddr value).mapError fun cause => "configured self IP is invalid: ".toList ++ cause
  require (selfIps ≠ []) "at least one self IP must be configured before ACME issuance".toList
  return selfIps

def verify (certificateId : Text) (domains : List Text) (control : ControlPlaneConfig) : Task Unit := do
  let selfIps ← ofExcept (expectedIps resolving control)
  verifyDomains resolving certificateId control selfIps domains []
  ask (.verified certificateId domains) fun _ => .ok ()

/-- Verifying domains does to a monitor what saving diagnostics does, and nothing else. -/
theorem verifyDomains_yields {τ : Type} {monitor : Programs.Monitor Action World τ} {t : τ} {id : Text}
    (saves : ∀ values, Yields monitor (fun next _ => next = t) t (saveDnsDiagnostics id values))
    (control : ControlPlaneConfig) (selfIps : List IpAddr) (domains : List Text) (diagnostics : List DnsDiagnostic) :
    Yields monitor (fun next _ => next = t) t (verifyDomains resolving id control selfIps domains diagnostics) := by
  induction domains generalizing diagnostics with
  | nil => exact saves diagnostics
  | cons domain rest ih =>
    refine .bind (.ofExcept fun name _ => ?_)
    dsimp only
    split
    · exact .bind ((saves _).mono fun _ _ _ => .throw _)
    · exact ih _

end

/-- All resolvers give one address, and the own one is local. -/
def oneAddress (answer : IpAddr) : Resolving where
  parseIpAddr _ := .ok (.v4 .localhost)
  lookup _ _ _ := .ok [answer]
  checkedAt _ := 0
  debugSet _ := []

end TlsProxy.Acme
