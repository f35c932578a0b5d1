import TlsProxy.Acme.Cache
import TlsProxy.Acme.Dns

/-! `acme/backend.rs` and the scans of `acme/scheduler.rs`: certificates that are
due, the renewal of one of them, and what is recorded when it fails. -/
namespace TlsProxy.Acme

open Config Checks Certificates Programs

structure AriSuggestion where
  suggestedAt : OffsetDateTime
  explanationUrl : Option Text := none
  /-- In seconds. -/
  retryAfter : Nat

structure RenewalCandidate where
  certificateId : Text
  domains : List Text
  providerId : Text
deriving DecidableEq

structure Ca where
  tls : Tls
  resolving : Resolving
  control : ControlPlaneConfig
  /-- The account at a provider, stored or created. -/
  account : Text → Except Text Unit
  issue : ManagedCertificate → Option CertificateGeneration → Except Text CertificateGeneration
  renewalInformation : CertificateGeneration → Except Text (Option AriSuggestion)
  now : OffsetDateTime
  /-- The deadline in the text of an error. -/
  retryAfterFromError : Text → OffsetDateTime → Option OffsetDateTime
  /-- The random share of the delay after a failure, in seconds. -/
  jitter : Int

def hours (n : Nat) : Int := n * 3600

def untilNextCheck (retryAfter : Nat) : Int :=
  if retryAfter ≤ 9223372036854775807 then retryAfter else hours 12

section

variable (ca : Ca)

def AriSuggestion.apply (value : AriSuggestion) (previous : RenewalState) : RenewalState :=
  { previous with
    ariSuggestedAt := some value.suggestedAt
    ariExplanationUrl := value.explanationUrl
    ariCheckedAt := some ca.now
    ariNextCheck := some (ca.now + untilNextCheck value.retryAfter) }

def refreshOne (managed : ManagedCertificate) : Task Unit := do
  if managed.enabled then
    let previous := (← query (renewalState · managed.id)).getD { certificateId := managed.id }
    if previous.ariNextCheck.all (· ≤ ca.now) then
      match ← activeGeneration managed.id with
      | none => return
      | some generation =>
        match ca.account managed.providerId, ca.renewalInformation generation with
        | .ok (), .ok (some value) => saveRenewalState (value.apply ca previous)
        | .ok (), .ok none => saveRenewalState { previous with
            ariCheckedAt := some ca.now
            ariNextCheck := some (ca.now + hours 168) }
        | _, _ => return

def refreshAri : Task Unit := do
  let certificates ← query managedCertificates
  certificates.forM (refreshOne ca)

/-- Enabled, not waiting for its next attempt, and missing, within the renewal window or suggested for renewal. -/
def isDue (cutoff : OffsetDateTime) (certificate : ManagedCertificate) : Task Bool := do
  if certificate.enabled then
    let state ← query (renewalState · certificate.id)
    if (state.bind RenewalState.nextAttempt).any (ca.now < ·) then return false
    let state ← query (renewalState · certificate.id)
    if (state.bind RenewalState.ariSuggestedAt).any (· ≤ ca.now) then return true
    let generation ← activeGeneration certificate.id
    return (generation.bind CertificateGeneration.notAfter).all (· ≤ cutoff)
  else return false

def dueAmong (cutoff : OffsetDateTime) : List ManagedCertificate → Task (List ManagedCertificate)
  | [] => return []
  | certificate :: rest => do
    let due ← isDue ca cutoff certificate
    let others ← dueAmong cutoff rest
    return if due then certificate :: others else others

def dueCertificates (renewBeforeDays : UInt16) : Task (List RenewalCandidate) := do
  refreshAri ca
  let certificates ← query managedCertificates
  let due ← dueAmong ca (ca.now + hours (24 * renewBeforeDays.toNat)) certificates
  return due.map fun certificate =>
    { certificateId := certificate.id, domains := certificate.domains, providerId := certificate.providerId }

def renewedState (managed : ManagedCertificate) (generation : CertificateGeneration) : RenewalState :=
  let suggestion := (ca.renewalInformation generation).toOption.join
  { certificateId := managed.id
    lastAttempt := some ca.now
    lastSuccess := some ca.now
    ariSuggestedAt := suggestion.map AriSuggestion.suggestedAt
    ariExplanationUrl := suggestion.bind AriSuggestion.explanationUrl
    ariCheckedAt := some ca.now
    ariNextCheck := suggestion.map fun value => ca.now + untilNextCheck value.retryAfter }

def renewInner (candidate : RenewalCandidate) : Task Unit := do
  match ← query (managedCertificate · candidate.certificateId) with
  | none => throw "managed certificate was deleted before renewal".toList
  | some managed =>
    ofExcept (require (managed.enabled = true) "managed certificate was disabled before renewal".toList)
    ofExcept (require (managed.providerId = candidate.providerId ∧ managed.domains = candidate.domains)
      "managed certificate changed after renewal scan; retrying next scan".toList)
    verify ca.resolving managed.id managed.domains ca.control
    ofExcept (ca.account managed.providerId)
    let previous ← activeGeneration managed.id
    let generation ← ofExcept (ca.issue managed previous)
    ofExcept (validateGeneration ca.tls managed generation)
    let _ ← activateAndReload ca.tls generation (renewedState ca managed generation)

/-- Five minutes, doubled with each failure up to twelve hours, and the random share. -/
def failureBackoff (consecutiveFailures : UInt32) : Int :=
  let exponent := min (consecutiveFailures.toNat - 1) 8
  min (5 * Nat.pow 2 exponent) (12 * 60) * 60 + ca.jitter

def saturatingSucc (n : UInt32) : UInt32 := if n.toNat + 1 < UInt32.size then n + 1 else n

def failedState (certificateId error : Text) (previous : Option RenewalState) : RenewalState :=
  let failures := (previous.map fun state => saturatingSucc state.consecutiveFailures).getD 1
  let caRetryAfter := ((ca.retryAfterFromError error ca.now).filter (ca.now < ·)).map (min · (ca.now + hours 48))
  { certificateId
    lastAttempt := some ca.now
    lastSuccess := previous.bind RenewalState.lastSuccess
    nextAttempt := some (caRetryAfter.getD (ca.now + failureBackoff ca failures))
    caRetryAfter
    consecutiveFailures := failures
    lastError := some error
    ariSuggestedAt := previous.bind RenewalState.ariSuggestedAt
    ariExplanationUrl := previous.bind RenewalState.ariExplanationUrl
    ariCheckedAt := previous.bind RenewalState.ariCheckedAt
    ariNextCheck := previous.bind RenewalState.ariNextCheck }

def recordFailure (certificateId error : Text) : Task Unit := do
  let previous ← query (renewalState · certificateId)
  saveRenewalState (failedState ca certificateId error previous)

def renew (candidate : RenewalCandidate) : Task Unit := ExceptT.mk do
  match ← (renewInner ca candidate).run with
  | .ok () => return .ok ()
  | .error cause =>
    match ← (recordFailure ca candidate.certificateId cause).run with
    | .ok () => return .error cause
    | .error other => return .error other

def recordTimeout (candidate : RenewalCandidate) (deadline : Nat) : Task Unit :=
  recordFailure ca candidate.certificateId
    ("renewal exceeded ".toList ++ Text.ofNat deadline ++ " second deadline".toList)

end

end TlsProxy.Acme
