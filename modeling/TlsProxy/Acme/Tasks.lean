import TlsProxy.Lib.Programs
import TlsProxy.Store.Certificates

/-! What tasks of the process share: the store, the gate of certificate saves, the
live configuration and the cache of certificates. A call that reads or writes
RocksDB is one action; between two actions of a task any other task may run. -/
namespace TlsProxy.Acme

open Config Checks Certificates Programs

structure CachedCertificate where
  certificateId : Text
  generationId : Text
  key : Text
deriving DecidableEq

abbrev Cache := Std.ExtTreeMap Text CachedCertificate

/-- When the DNS check script has rejected a domain, by script and domain, the most recently used first. -/
abbrev Rejections := List ((Text × Text) × Nat)

def Rejections.capacity : Nat := 4096

def Rejections.without (rejections : Rejections) (key : Text × Text) : Rejections :=
  rejections.filter fun entry => entry.1 != key

def Rejections.recall (rejections : Rejections) (key : Text × Text) (now ttl : Nat) : Bool × Rejections :=
  match rejections.find? fun entry => entry.1 == key with
  | none => (false, rejections)
  | some entry =>
    if now - entry.2 < ttl then (true, entry :: rejections.without key) else (false, rejections.without key)

def Rejections.put (rejections : Rejections) (key : Text × Text) (now : Nat) : Rejections :=
  ((key, now) :: rejections.without key).take capacity

structure World where
  store : Certificates.Store := .empty
  /-- `certificate_gate` is locked. -/
  gate : Bool := false
  live : RuntimeConfig := {}
  cache : Cache := ∅
  rejections : Rejections := []

inductive Reader
  | permitsNewIssuance
  | gatesRegistration
  | controlPlane
deriving DecidableEq

inductive Action
  | read
  | write (batch : List Certificates.Write)
  | lock
  | unlock
  | load (reader : Reader)
  | swap (entries : Cache)
  | recallRejection (key : Text × Text) (now ttl : Nat)
  | putRejection (key : Text × Text) (now : Nat)
  /-- The DNS check script has run. -/
  | script (script domain : Text) (accepted : Bool)
  /-- The public DNS prerequisite has passed. -/
  | verified (certificateId : Text) (domains : List Text)

def effect (action : Action) (w : World) : Option World :=
  match action with
  | .read | .load _ | .script .. | .verified .. => some w
  | .write batch => some { w with store := Families.write w.store batch }
  | .lock => if w.gate then none else some { w with gate := true }
  | .unlock => some { w with gate := false }
  | .swap entries => some { w with cache := entries }
  | .recallRejection key now ttl => some { w with rejections := (w.rejections.recall key now ttl).2 }
  | .putRejection key now => some { w with rejections := w.rejections.put key now }

theorem effect_store {action : Action} {w changed : World} (taken : effect action w = some changed) :
    (∃ batch, action = .write batch ∧ changed.store = Families.write w.store batch) ∨ changed.store = w.store := by
  cases action with
  | write batch =>
    cases taken
    exact .inl ⟨batch, rfl, rfl⟩
  | lock => grind [effect]
  | _ =>
    cases taken
    exact .inr rfl

def Action.writes (family : ColumnFamily) (id : Text) : Action → Bool
  | .write batch => batch.any (Families.Write.touches family id)
  | _ => false

theorem effect_of_quiet {action : Action} {w next : World} {family : ColumnFamily} {id : Text}
    (quiet : action.writes family id = false) (taken : effect action w = some next) :
    (next.store family)[id]? = (w.store family)[id]? := by
  rcases effect_store taken with ⟨batch, rfl, same⟩ | same
  · rw [same]
    exact Families.getElem?_write_of_quiet quiet
  · rw [same]

abbrev Task := ExceptT Text (Program Action World)

abbrev History := List (Entry Action World)

section Calls

variable {α : Type}

def ofExcept (value : Except Text α) : Task α := ExceptT.mk (.done value)

def ask (action : Action) (answer : World → Except Text α) : Task α :=
  ExceptT.mk (.action action fun w => .done (answer w))

def query (answer : Certificates.Store → Except Text α) : Task α := ask .read fun w => answer w.store

def commit (batch : List Certificates.Write) : Task Unit := ask (.write batch) fun _ => .ok ()

def finish (task : Task α) : Program Action World (Except Text Unit) := (do let _ ← task).run

def underGate (body : Task α) : Task α := ExceptT.mk do
  let _ ← (ask .lock fun _ => .ok ()).run
  let result ← body.run
  let _ ← (ask .unlock fun _ => .ok ()).run
  return result

end Calls

section Rules

variable {α β τ : Type} {monitor : Monitor Action World τ} {ok : τ → α → Prop} {failed : τ → Text → Prop} {t : τ}

/-- The task obeys the monitor, and this is known where it returns and where it fails. -/
def Concludes (monitor : Monitor Action World τ) (ok : τ → α → Prop) (failed : τ → Text → Prop) (t : τ) (task : Task α) :
    Prop :=
  Obeys monitor (Outcome ok failed) t task.run

theorem Concludes.pure {a : α} (holds : ok t a) : Concludes monitor ok failed t (pure a) := holds

theorem Concludes.throw {cause : Text} (fails : failed t cause) : Concludes monitor ok failed t (throw cause) := fails

theorem Concludes.ofExcept {value : Except Text α} (holds : ∀ a, value = .ok a → ok t a)
    (fails : ∀ cause, value = .error cause → failed t cause) : Concludes monitor ok failed t (ofExcept value) := by
  cases value with
  | ok a => exact holds a rfl
  | error cause => exact fails cause rfl

theorem Concludes.ask {action : Action} {answer : World → Except Text α} (allowed : monitor.allowed t action)
    (holds : ∀ w a, monitor.assumes t action w → answer w = .ok a → ok (monitor.observe t action w) a)
    (fails : ∀ w cause, monitor.assumes t action w → answer w = .error cause →
      failed (monitor.observe t action w) cause) : Concludes monitor ok failed t (ask action answer) := by
  refine ⟨allowed, fun w known => ?_⟩
  change Outcome ok failed _ (answer w)
  cases found : answer w with
  | ok a => exact holds w a known found
  | error cause => exact fails w cause known found

theorem Concludes.mono {other : τ → α → Prop} {missed : τ → Text → Prop} {task : Task α}
    (concludes : Concludes monitor ok failed t task) (weaker : ∀ t a, ok t a → other t a)
    (milder : ∀ t cause, failed t cause → missed t cause) : Concludes monitor other missed t task := by
  refine Obeys.mono ?_ concludes
  intro t result known
  cases result with
  | ok a => exact weaker t a known
  | error cause => exact milder t cause known

theorem Concludes.bind {ok : τ → β → Prop} {task : Task α} {rest : α → Task β}
    (first : Concludes monitor (fun t a => Concludes monitor ok failed t (rest a)) failed t task) :
    Concludes monitor ok failed t (task >>= rest) :=
  Obeys.bindExcept first

theorem Concludes.forM {kept : τ → Prop} {xs : List α} {body : α → Task PUnit}
    (each : ∀ x ∈ xs, ∀ t, kept t → Concludes monitor (fun t _ => kept t) failed t (body x)) (start : kept t) :
    Concludes monitor (fun t _ => kept t) failed t (xs.forM body) :=
  Obeys.forM each start

theorem Concludes.underGate {body : Task α} (locks : monitor.allowed t .lock)
    (inside : ∀ w, monitor.assumes t .lock w →
      Concludes monitor (fun t a => monitor.allowed t .unlock ∧ ∀ w, ok (monitor.observe t .unlock w) a)
        (fun t cause => monitor.allowed t .unlock ∧ ∀ w, failed (monitor.observe t .unlock w) cause)
        (monitor.observe t .lock w) body) : Concludes monitor ok failed t (underGate body) := by
  refine Obeys.bind ⟨locks, fun w known => Obeys.bind (Obeys.mono ?_ (inside w known))⟩
  intro t result known
  cases result with
  | ok a => exact ⟨known.1, fun w _ => known.2 w⟩
  | error cause => exact ⟨known.1, fun w _ => known.2 w⟩

/-- The task obeys the monitor, and what holds of its result is known unless it fails. -/
def Yields (monitor : Monitor Action World τ) (ok : τ → α → Prop) (t : τ) (task : Task α) : Prop :=
  Obeys monitor (Outcome ok fun _ _ => True) t task.run

theorem Yields.pure {a : α} (holds : ok t a) : Yields monitor ok t (pure a) := Concludes.pure holds

theorem Yields.throw (cause : Text) : Yields monitor ok t (throw cause) := Concludes.throw trivial

theorem Yields.ofExcept {value : Except Text α} (holds : ∀ a, value = .ok a → ok t a) :
    Yields monitor ok t (ofExcept value) :=
  Concludes.ofExcept holds fun _ _ => trivial

theorem Yields.ask {action : Action} {answer : World → Except Text α} (allowed : monitor.allowed t action)
    (holds : ∀ w a, monitor.assumes t action w → answer w = .ok a → ok (monitor.observe t action w) a) :
    Yields monitor ok t (ask action answer) :=
  Concludes.ask allowed holds fun _ _ _ _ => trivial

theorem Yields.mono {other : τ → α → Prop} {task : Task α} (yields : Yields monitor ok t task)
    (weaker : ∀ t a, ok t a → other t a) : Yields monitor other t task :=
  Concludes.mono yields weaker fun _ _ _ => trivial

theorem Yields.bind {ok : τ → β → Prop} {task : Task α} {rest : α → Task β}
    (first : Yields monitor (fun t a => Yields monitor ok t (rest a)) t task) : Yields monitor ok t (task >>= rest) :=
  Concludes.bind first

theorem Yields.forM {kept : τ → Prop} {xs : List α} {body : α → Task PUnit}
    (each : ∀ x ∈ xs, ∀ t, kept t → Yields monitor (fun t _ => kept t) t (body x)) (start : kept t) :
    Yields monitor (fun t _ => kept t) t (xs.forM body) :=
  Concludes.forM each start

theorem Yields.underGate {body : Task α} (locks : monitor.allowed t .lock) (unlocks : ∀ t, monitor.allowed t .unlock)
    (inside : ∀ w, monitor.assumes t .lock w →
      Yields monitor (fun t a => ∀ w, ok (monitor.observe t .unlock w) a) (monitor.observe t .lock w) body) :
    Yields monitor ok t (underGate body) := by
  refine Concludes.underGate locks fun w known => Concludes.mono (inside w known) ?_ ?_
  · grind
  · grind

end Rules

def certificateForDomain (domain : Text) : Task (Option ManagedCertificate) := do
  let domain ← ofExcept (normalizeDomain domain)
  match ← query fun store => .ok (store .domainIndex)[domain]? with
  | none => return none
  | some id => query (managedCertificate · id)

def activeGeneration (certificateId : Text) : Task (Option CertificateGeneration) := do
  match ← query fun store => .ok (store .activeGenerations)[certificateId]? with
  | none => return none
  | some generationId => query fun store => decoded (store .generations)[generationKey certificateId generationId]?

def saveManagedCertificateLocked (certificate : ManagedCertificate) (now : OffsetDateTime) : Task Unit := do
  ofExcept (require (certificate.domains.length = 1) "managed certificate must contain exactly one domain".toList)
  let existing ← query (managedCertificate · certificate.id)
  let normalized ← ofExcept (certificate.domains.mapM normalizeDomain)
  ofExcept (checkNames certificate.id normalized)
  normalized.forM fun domain => query (checkOwner · certificate.id domain)
  let old ← ofExcept (((existing.map ManagedCertificate.domains).getD []).mapM normalizeDomain)
  commit (saveBatch certificate existing old normalized now)

def saveManagedCertificate (certificate : ManagedCertificate) (now : OffsetDateTime) : Task Unit :=
  underGate (saveManagedCertificateLocked certificate now)

def createIfAbsentLocked (domain : Text) (now : OffsetDateTime) : Task Bool := do
  match ← certificateForDomain domain with
  | some _ => return false
  | none =>
    let providerId ← query defaultProviderId
    saveManagedCertificateLocked (automaticCertificate domain providerId) now
    return true

def createAutomaticCertificateIfAbsent (domain : Text) (now : OffsetDateTime) : Task Bool := do
  let domain ← ofExcept (normalizeDomain domain)
  underGate (createIfAbsentLocked domain now)

def ownedDomains (certificateId : Text) : List Text → Task (List Text)
  | [] => return []
  | domain :: rest => do
    let domain ← ofExcept (normalizeDomain domain)
    let owner ← query fun store => .ok (store .domainIndex)[domain]?
    let others ← ownedDomains certificateId rest
    return if owner = some certificateId then domain :: others else others

def deleteManagedCertificate (certificateId : Text) : Task Bool := do
  match ← query (managedCertificate · certificateId) with
  | none => return false
  | some certificate =>
    let domains ← ownedDomains certificateId certificate.domains
    let generations ← query fun store => .ok (generationKeys store certificateId)
    let diagnostics ← query fun store => .ok (diagnosticKeys store certificateId)
    commit (deleteBatch certificateId domains generations diagnostics)
    return true

def activateGeneration (generation : CertificateGeneration) (renewal : RenewalState) : Task Unit := do
  let batch ← ofExcept (activationBatch generation renewal)
  commit batch

def saveRenewalState (renewal : RenewalState) : Task Unit := do
  let batch ← ofExcept (renewalBatch renewal)
  commit batch

def saveDnsDiagnostics (certificateId : Text) (values : List DnsDiagnostic) : Task Unit := do
  let keys ← query fun store => .ok (diagnosticKeys store certificateId)
  commit (diagnosticsBatch certificateId keys values)

end TlsProxy.Acme
