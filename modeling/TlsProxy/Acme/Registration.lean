import TlsProxy.Acme.Dns
import TlsProxy.Config.HostMatch

/-! `register_automatic` of `managed_tls.rs`: a certificate record for the name of a
TLS handshake. The task looks at the live configuration several times. -/
namespace TlsProxy.Acme

open Config Checks Certificates Programs

structure Registrar where
  resolving : Resolving
  /-- Whether the script accepts the domain in time. -/
  runDnsCheckScript : Text → Text → Bool
  /-- The clock, in seconds, when rejections are looked up and when one is added. -/
  askedAt : Nat
  rejectedAt : Nat
  now : OffsetDateTime

def dnsCheckScript (config : RuntimeConfig) : Text := Text.trim config.acme.dnsCheckScript

section

variable (registrar : Registrar)

def dnsCheckAllows (script domain : Text) (failureTtl : Nat) : Task Bool := do
  let key := (script, domain)
  let rejected ← ask (.recallRejection key registrar.askedAt failureTtl) fun w =>
    .ok (w.rejections.recall key registrar.askedAt failureTtl).1
  if rejected then return false
  let allowed := registrar.runDnsCheckScript script domain
  ask (.script script domain allowed) fun _ => .ok ()
  if allowed then return true
  ask (.putRejection key registrar.rejectedAt) fun _ => .ok ()
  return false

def dnsCheckPermitsNewIssuance (domain : Text) : Task Unit := do
  let config ← ask (.load .permitsNewIssuance) fun w => .ok w.live
  let script := dnsCheckScript config
  if script.isEmpty then return
  if config.tlsRoutesListHostExactly domain then return
  let allowed ← dnsCheckAllows registrar script domain config.acme.cacheFailureTimeSecs.toNat
  ofExcept (require (allowed = true) ("DNS check script rejected domain ".toList ++ quoted domain))

def scriptGatesRegistration : Task Bool :=
  ask (.load .gatesRegistration) fun w => .ok (!(dnsCheckScript w.live).isEmpty)

def dnsPrerequisitePermits (domain : Text) : Task Unit := do
  if ← scriptGatesRegistration then return
  let control ← ask (.load .controlPlane) fun w => .ok w.live.controlPlane
  verify registrar.resolving domain [domain] control

def registerAutomatic (domain : Text) : Task Bool := do
  match ← certificateForDomain domain with
  | some _ => return false
  | none =>
    dnsCheckPermitsNewIssuance registrar domain
    dnsPrerequisitePermits registrar domain
    createAutomaticCertificateIfAbsent domain registrar.now

end

section Example

def strictRegistrar (answer : IpAddr) : Registrar where
  resolving := oneAddress answer
  runDnsCheckScript := fun _ _ => false
  askedAt := 0
  rejectedAt := 0
  now := 0

def suffixSite (script : Text) : RuntimeConfig where
  defaultListener :=
    { ordinaryTraffic :=
        { routes := [{ matcher := { suffix := ["pool.example".toList] }
                       action := .terminate 8080 none .plaintext .roundRobin .none }] } }
  controlPlane := { selfIps := ["127.0.0.1".toList], publicResolvers := ["1.1.1.1".toList] }
  acme := { dnsCheckScript := script }

def elsewhere : IpAddr := .v4 ⟨#v[192, 0, 2, 1]⟩

def pooledName : Text := "x.pool.example".toList

end Example

end TlsProxy.Acme
