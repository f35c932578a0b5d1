import TlsProxy.Config.Validated
import TlsProxy.Control.Publication
import TlsProxy.Lib.Refusals
import TlsProxy.Store.Automatic
import TlsProxy.Store.Database

/-! `put_config` and `rollback_config` on the whole store. -/
namespace TlsProxy.Control

open Config Checks Certificates Acme Refusals Store

structure ConfigStore where
  certificates : Certificates.Store := .empty
  configs : Store.Database := {}
  /-- Who has saved a revision, as the audit log says. -/
  audit : Nat → Option Text := fun _ => none

structure ConfigService where
  environment : Environment
  tls : Tls
  clock : Text → OffsetDateTime
  /-- What `serde_json` says of a row that does not decode. -/
  undecodable : Text

def badRequest (message : Text) : Response := { status := 400, body := .text message }

structure SaveConfigRequest where
  revision : Nat
  config : RuntimeConfig

abbrev Handler := Request Response ConfigStore

section Requests

variable (service : ConfigService)

def rowOrNotFound : Row StoredConfig → Except Response StoredConfig
  | .missing => .error notFound
  | .malformed => .error (internal service.undecodable)
  | .value stored => .ok stored

def loadConfig : Handler StoredConfig := observed fun s => rowOrNotFound service s.configs.current

def configRevision (revision : Nat) : Handler StoredConfig :=
  observed fun s => rowOrNotFound service (s.configs.history revision)

def checkHostname (current hostname : Text) : Handler Unit :=
  if current = hostname then pure ()
  else do
    let managed ← observed fun s =>
      match certificateForDomain s.certificates hostname with
      | .error cause => .error (internal cause)
      | .ok none => .error (badRequest
          "Issue a managed certificate for the new control hostname before switching".toList)
      | .ok (some managed) => .ok managed
    let generation ← observed fun s =>
      match activeGeneration s.certificates managed.id with
      | .error cause => .error (internal cause)
      | .ok none => .error (badRequest "The new control hostname certificate has not been issued yet".toList)
      | .ok (some generation) => .ok generation
    decided ((validateGeneration service.tls managed generation).mapError fun cause =>
      badRequest ("The new control hostname certificate is unusable: ".toList ++ cause))

def usableHostname (s : ConfigStore) (hostname : Text) : Bool :=
  match certificateForDomain s.certificates hostname with
  | .ok (some managed) =>
    match activeGeneration s.certificates managed.id with
    | .ok (some generation) => (validateGeneration service.tls managed generation).toBool
    | _ => false
  | _ => false

def registerCertificates (config : RuntimeConfig) : Request Text ConfigStore Nat := ExceptT.mk fun s =>
  if config.acme.enabled then
    match defaultProviderId s.certificates with
    | .error cause => (.error cause, s)
    | .ok providerId =>
      let result := registerHosts providerId service.clock s.certificates (terminatingHosts config)
      (result.1, { s with certificates := result.2 })
  else (.ok 0, s)

def saveConfig (config : RuntimeConfig) (updatedBy : Text) : Request Text ConfigStore StoredConfig :=
  updated fun s => do
    let (stored, configs) ← Store.saveConfig service.environment s.configs config updatedBy
    return (stored, { s with configs, audit := Function.update s.audit stored.revision (some updatedBy) })

def registerAndSave (config : RuntimeConfig) (updatedBy : Text) : Handler StoredConfig := do
  let _ ← recast badRequest (registerCertificates service config)
  recast badRequest (saveConfig service config updatedBy)

def putConfig (request : SaveConfigRequest) (username : Text) : Handler StoredConfig := do
  let current ← loadConfig service
  refuseUnless (current.revision = request.revision)
    { status := 409, body := .text "Configuration revision changed".toList }
  refuseUnless (request.config.defaultListener.bind = current.config.defaultListener.bind)
    (badRequest "the mandatory Public HTTPS bind address cannot be changed".toList)
  decided ((request.config.validate service.environment).mapError badRequest)
  checkHostname service current.config.controlPlane.hostname request.config.controlPlane.hostname
  registerAndSave service request.config username

def rollbackConfig (revision : Nat) (username : Text) : Handler StoredConfig := do
  let previous ← configRevision service revision
  let current ← loadConfig service
  refuseUnless (previous.config.defaultListener.bind = current.config.defaultListener.bind)
    (badRequest "the mandatory Public HTTPS bind address cannot be changed by rollback".toList)
  let s ← observed .ok
  refuseUnless (current.config.controlPlane.hostname = previous.config.controlPlane.hostname ∨
      usableHostname service s previous.config.controlPlane.hostname = true)
    (badRequest "historical control hostname has no active valid managed certificate".toList)
  registerAndSave service previous.config username

end Requests

def Covered (store : Certificates.Store) (host : Text) : Prop :=
  ∃ name certificate, normalizeDomain host = .ok name ∧ certificateForDomain store name = .ok (some certificate)

/-- The loop comes to a host that it gives a certificate. -/
def BeginsAt (providerId : Text) (clock : Text → OffsetDateTime) (store : Certificates.Store) (hosts : List Text) :
    Prop :=
  ∃ before host after next, hosts = before ++ host :: after ∧ (∀ earlier ∈ before, Covered store earlier) ∧
    ensureHost providerId clock store host = .ok (true, next)

/-- Automatic certificates are on, and the first host without one can be given one. -/
def Begins (service : ConfigService) (s : ConfigStore) (config : RuntimeConfig) : Prop :=
  config.acme.enabled = true ∧ ∃ providerId, defaultProviderId s.certificates = .ok providerId ∧
    BeginsAt providerId service.clock s.certificates (terminatingHosts config)

/-- All hosts can be given one, the configuration is valid and the revision counter can be advanced. -/
structure Completes (service : ConfigService) (s : ConfigStore) (config : RuntimeConfig) : Prop where
  certificates : ∃ result, ensureAutomaticCertificates s.certificates config service.clock = .ok result
  valid : config.validate service.environment = .ok ()
  revision : (nextRevision s.configs.counter).isSome

/-- What `put_config` checks before it registers certificates. -/
structure PutAdmitted (service : ConfigService) (s : ConfigStore) (request : SaveConfigRequest)
    (current : StoredConfig) : Prop where
  row : s.configs.current = .value current
  revision : current.revision = request.revision
  bind : request.config.defaultListener.bind = current.config.defaultListener.bind
  valid : request.config.validate service.environment = .ok ()
  hostname : current.config.controlPlane.hostname = request.config.controlPlane.hostname ∨
    usableHostname service s request.config.controlPlane.hostname = true

/-- What `rollback_config` checks before it registers certificates; the validator is not asked. -/
structure RollbackAdmitted (service : ConfigService) (s : ConfigStore) (revision : Nat)
    (previous current : StoredConfig) : Prop where
  historical : s.configs.history revision = .value previous
  row : s.configs.current = .value current
  bind : previous.config.defaultListener.bind = current.config.defaultListener.bind
  hostname : current.config.controlPlane.hostname = previous.config.controlPlane.hostname ∨
    usableHostname service s previous.config.controlPlane.hostname = true

section Loop

variable (service : ConfigService) {providerId : Text} {store : Certificates.Store} {hosts : List Text}

theorem ensureHost_of_covered {host : Text} (covered : Covered store host) (clock : Text → OffsetDateTime) :
    ensureHost providerId clock store host = .ok (false, store) := by
  obtain ⟨name, certificate, normal, found⟩ := covered
  exact bind_eq_ok.mpr ⟨name, normal, bind_eq_ok.mpr ⟨some certificate, found, rfl⟩⟩

theorem covered_of_ensureHost {host : Text} {clock : Text → OffsetDateTime} {next : Certificates.Store}
    (done : ensureHost providerId clock store host = .ok (false, next)) : Covered store host ∧ next = store := by
  obtain ⟨name, normal, done⟩ := bind_eq_ok.mp done
  obtain ⟨found, read, done⟩ := bind_eq_ok.mp done
  cases found with
  | some certificate =>
    cases done
    exact ⟨⟨name, certificate, normal, read⟩, rfl⟩
  | none =>
    obtain ⟨batch, -, done⟩ := bind_eq_ok.mp done
    cases done

theorem registerHosts_of_not_begins (idle : ¬ BeginsAt providerId service.clock store hosts) :
    (registerHosts providerId service.clock store hosts).2 = store := by
  induction hosts with
  | nil => rfl
  | cons host rest ih =>
    rw [registerHosts]
    cases done : ensureHost providerId service.clock store host with
    | error cause => rfl
    | ok result =>
      obtain ⟨created, next⟩ := result
      cases created with
      | true => exact absurd ⟨[], host, rest, next, rfl, by simp, done⟩ idle
      | false =>
        obtain ⟨covered, rfl⟩ := covered_of_ensureHost done
        apply ih
        rintro ⟨before, other, after, last, split, all, later⟩
        exact idle ⟨host :: before, other, after, last, by rw [split, List.cons_append],
          List.forall_mem_cons.mpr ⟨covered, all⟩, later⟩

theorem listed_registerHosts (consistent : Consistent store) {name : Text} (listed : Listed store name) :
    Listed (registerHosts providerId service.clock store hosts).2 name := by
  induction hosts generalizing store with
  | nil => exact listed
  | cons host rest ih =>
    rw [registerHosts]
    cases done : ensureHost providerId service.clock store host with
    | error cause => exact listed
    | ok result =>
      obtain ⟨kept, lists⟩ := consistent.ensureHost done
      exact ih kept ((lists name).mpr (.inl listed))

theorem lists_of_created (consistent : Consistent store) {host : Text} {clock : Text → OffsetDateTime}
    {next : Certificates.Store} (done : ensureHost providerId clock store host = .ok (true, next)) :
    ∃ name, ¬ Listed store name ∧ Names host name := by
  obtain ⟨name, normal, done⟩ := bind_eq_ok.mp done
  obtain ⟨found, read, done⟩ := bind_eq_ok.mp done
  cases found with
  | some certificate => cases done
  | none =>
    obtain ⟨batch, saved, -⟩ := bind_eq_ok.mp done
    obtain ⟨target, again, -⟩ := bind_eq_ok.mp read
    obtain ⟨rfl, -⟩ := (consistent.saveManagedCertificateLocked_isOk _ _ again).mp ⟨batch, saved⟩
    obtain ⟨other, same, unlisted⟩ := consistent.certificateForDomain again
    cases read.symm.trans same
    exact ⟨target, unlisted.mp rfl, normal, again⟩

theorem registerHosts_changes (consistent : Consistent store) (begins : BeginsAt providerId service.clock store hosts) :
    (registerHosts providerId service.clock store hosts).2 ≠ store := by
  obtain ⟨before, host, after, next, rfl, covered, done⟩ := begins
  induction before with
  | nil =>
    obtain ⟨name, unlisted, names⟩ := lists_of_created consistent done
    obtain ⟨kept, lists⟩ := consistent.ensureHost done
    rw [List.nil_append, registerHosts, done]
    intro same
    exact unlisted (same ▸ listed_registerHosts service kept ((lists name).mpr (.inr names)))
  | cons earlier before ih =>
    obtain ⟨first, later⟩ := List.forall_mem_cons.mp covered
    rw [List.cons_append, registerHosts, ensureHost_of_covered first]
    exact ih later

end Loop

section Clean

variable (service : ConfigService) {s : ConfigStore} {config : RuntimeConfig}

/-- What a registration answers and leaves. -/
structure Registered (s : ConfigStore) (config : RuntimeConfig) (answer : Except Text Nat)
    (certificates : Certificates.Store) : Prop where
  exec : exec (registerCertificates service config) s = (answer, { s with certificates })
  answer : ensureAutomaticCertificates s.certificates config service.clock = answer.map fun n => (n, certificates)
  idle : ¬ Begins service s config → certificates = s.certificates
  changes : Consistent s.certificates → Begins service s config → certificates ≠ s.certificates

theorem exists_registered (s : ConfigStore) (config : RuntimeConfig) :
    ∃ answer certificates, Registered service s config answer certificates := by
  by_cases enabled : config.acme.enabled = true
  · cases default : defaultProviderId s.certificates with
    | error cause =>
      refine ⟨.error cause, s.certificates, ?_, ?_, fun _ => rfl, fun _ ⟨_, other, found, _⟩ => ?_⟩
      · simp only [registerCertificates, Refusals.exec, ExceptT.run, ExceptT.mk, StateT.run, enabled, default, if_true]
      · simp only [Certificates.ensureAutomaticCertificates, enabled, default, if_true]
        rfl
      · cases default.symm.trans found
    | ok providerId =>
      refine ⟨(registerHosts providerId service.clock s.certificates (terminatingHosts config)).1,
        (registerHosts providerId service.clock s.certificates (terminatingHosts config)).2, ?_, ?_,
        fun idle => registerHosts_of_not_begins service fun begins => idle ?_, fun consistent begins => ?_⟩
      · simp only [registerCertificates, Refusals.exec, ExceptT.run, ExceptT.mk, StateT.run, enabled, default, if_true]
      · simp only [Certificates.ensureAutomaticCertificates, enabled, default, if_true]
        exact ensureHosts_eq providerId service.clock s.certificates (terminatingHosts config)
      · exact ⟨enabled, providerId, default, begins⟩
      · obtain ⟨-, other, found, begins⟩ := begins
        cases default.symm.trans found
        exact registerHosts_changes service consistent begins
  · refine ⟨.ok 0, s.certificates, ?_, ?_, fun _ => rfl, fun _ begins => absurd begins.1 enabled⟩
    · simp only [registerCertificates, Refusals.exec, ExceptT.run, ExceptT.mk, StateT.run, enabled]
      rfl
    · simp only [Certificates.ensureAutomaticCertificates, enabled]
      rfl

theorem registerAndSave_clean (whole : Begins service s config → Completes service s config) (updatedBy : Text) :
    RefusesCleanly (registerAndSave service config updatedBy) s := by
  obtain ⟨answer, certificates, registered⟩ := exists_registered service s config
  by_cases begins : Begins service s config
  · obtain ⟨⟨result, done⟩, valid, revision⟩ := whole begins
    obtain ⟨number, advanced⟩ := Option.isSome_iff_exists.mp revision
    cases answer with
    | error cause => cases registered.answer.symm.trans done
    | ok created =>
      have saved : exec (saveConfig service config updatedBy) { s with certificates } = (.ok _, _) :=
        exec_updated_ok (bind_eq_ok.mpr ⟨_, saveConfig_of_valid valid advanced updatedBy, rfl⟩)
      exact refusesCleanly_of_ok
        ((exec_bind_ok (exec_recast_ok registered.exec badRequest)).trans (exec_recast_ok saved badRequest))
  · have kept : (exec (registerCertificates service config) s).2 = s := by
      rw [registered.exec, registered.idle begins]
    have reads : (exec (recast badRequest (registerCertificates service config)) s).2 = s := kept
    exact (refusesCleanly_bind reads).mpr fun _ _ => (refusesCleanly_updated _ s).recast badRequest

/-- What has been registered is not taken back, so a registration that has begun must be followed by the save. -/
theorem completes_of_clean (consistent : Consistent s.certificates) {updatedBy : Text}
    (clean : RefusesCleanly (registerAndSave service config updatedBy) s) (begins : Begins service s config) :
    Completes service s config := by
  obtain ⟨answer, certificates, registered⟩ := exists_registered service s config
  have kept : ∀ response,
      exec (registerAndSave service config updatedBy) s ≠ (.error response, { s with certificates }) := by
    intro response refused
    have same := clean response (by rw [refused])
    rw [refused] at same
    exact registered.changes consistent begins (congrArg ConfigStore.certificates same)
  cases answer with
  | error cause => exact absurd (exec_bind_error (exec_recast_error registered.exec badRequest)) (kept _)
  | ok created =>
    have first : exec (registerAndSave service config updatedBy) s =
        exec (recast badRequest (saveConfig service config updatedBy)) { s with certificates } :=
      exec_bind_ok (exec_recast_ok registered.exec badRequest)
    cases saved : Store.saveConfig service.environment s.configs config updatedBy with
    | error cause =>
      have failed : exec (saveConfig service config updatedBy) { s with certificates } = (.error cause, _) :=
        exec_updated_error (by simp only [saved]; rfl)
      exact absurd (first.trans (exec_recast_error failed badRequest)) (kept _)
    | ok result =>
      obtain ⟨valid, advanced, -, -⟩ := saveConfig_eq_ok saved
      exact ⟨⟨_, registered.answer⟩, valid, advanced ▸ rfl⟩

theorem rowOrNotFound_eq_ok {row : Row StoredConfig} {stored : StoredConfig} :
    rowOrNotFound service row = .ok stored ↔ row = .value stored := by
  cases row <;> simp [rowOrNotFound]

theorem reads_checkHostname (current hostname : Text) : Reads (checkHostname service current hostname) := by
  unfold checkHostname
  split
  · exact reads_decided (.ok ())
  · exact (reads_observed _).bind fun _ => (reads_observed _).bind fun _ => reads_decided _

theorem checkHostname_eq_ok {current hostname : Text} {done : Unit} :
    (exec (checkHostname service current hostname) s).1 = .ok done ↔
      current = hostname ∨ usableHostname service s hostname = true := by
  unfold checkHostname usableHostname
  by_cases same : current = hostname
  · simp only [same, if_true, true_or, iff_true]
    rfl
  · simp only [same, if_false, false_or, exec_bind_eq_ok (reads_observed _ _), exec_observed, exec_decided,
      mapError_eq_ok]
    rcases certificateForDomain s.certificates hostname with cause | (_ | managed)
    · simp
    · simp
    · simp only [Except.ok.injEq, exists_eq_left']
      rcases activeGeneration s.certificates managed.id with cause | (_ | generation)
      · simp
      · simp
      · simp only [Except.ok.injEq, exists_eq_left']
        cases validateGeneration service.tls managed generation <;> simp [Except.toBool]

theorem putConfig_clean_iff (request : SaveConfigRequest) (username : Text) :
    RefusesCleanly (putConfig service request username) s ↔ ∀ current, PutAdmitted service s request current →
      RefusesCleanly (registerAndSave service request.config username) s := by
  simp only [putConfig, loadConfig, refusesCleanly_bind (reads_observed _ _), refusesCleanly_bind (reads_decided _ _),
    refusesCleanly_bind (reads_refuseUnless _ _ _), refusesCleanly_bind (reads_checkHostname service _ _ _),
    exec_refuseUnless, exec_observed, exec_decided, rowOrNotFound_eq_ok, mapError_eq_ok, checkHostname_eq_ok]
  constructor
  · intro clean current ⟨row, revision, bind, valid, hostname⟩
    exact clean current row () revision () bind () valid () hostname
  · intro clean current row _ revision _ bind _ valid _ hostname
    exact clean current ⟨row, revision, bind, valid, hostname⟩

theorem rollbackConfig_clean_iff (revision : Nat) (username : Text) :
    RefusesCleanly (rollbackConfig service revision username) s ↔ ∀ previous current,
      RollbackAdmitted service s revision previous current →
        RefusesCleanly (registerAndSave service previous.config username) s := by
  simp only [rollbackConfig, configRevision, loadConfig, refusesCleanly_bind (reads_observed _ _),
    refusesCleanly_bind (reads_refuseUnless _ _ _), exec_refuseUnless, exec_observed, rowOrNotFound_eq_ok,
    Except.ok.injEq]
  constructor
  · intro clean previous current ⟨historical, row, bind, hostname⟩
    exact clean previous historical current row () bind s rfl () hostname
  · rintro clean previous historical current row _ bind _ rfl _ hostname
    exact clean previous current ⟨historical, row, bind, hostname⟩

end Clean

/-- A save or a rollback that is refused leaves the store as it was, unless it passes the checks, registers a
certificate and then fails. -/
theorem refused_saves_change_nothing (service : ConfigService) (s : ConfigStore) (username : Text) :
    (∀ request,
      ((∀ current, PutAdmitted service s request current → Begins service s request.config →
          Completes service s request.config) → RefusesCleanly (putConfig service request username) s) ∧
      (Consistent s.certificates → RefusesCleanly (putConfig service request username) s →
        ∀ current, PutAdmitted service s request current → Begins service s request.config →
          Completes service s request.config)) ∧
    ∀ revision,
      ((∀ previous current, RollbackAdmitted service s revision previous current → Begins service s previous.config →
          Completes service s previous.config) → RefusesCleanly (rollbackConfig service revision username) s) ∧
      (Consistent s.certificates → RefusesCleanly (rollbackConfig service revision username) s →
        ∀ previous current, RollbackAdmitted service s revision previous current → Begins service s previous.config →
          Completes service s previous.config) := by
  simp only [putConfig_clean_iff, rollbackConfig_clean_iff]
  refine ⟨fun request => ⟨fun whole current admitted => ?_, fun consistent clean current admitted begins => ?_⟩,
    fun revision => ⟨fun whole previous current admitted => ?_,
      fun consistent clean previous current admitted begins => ?_⟩⟩
  · exact registerAndSave_clean service (whole current admitted) username
  · exact completes_of_clean service consistent (clean current admitted) begins
  · exact registerAndSave_clean service (whole previous current admitted) username
  · exact completes_of_clean service consistent (clean previous current admitted) begins

section Example

def quietService : ConfigService where
  environment := bareEnvironment
  tls := ⟨fun _ => .error [], 0⟩
  clock _ := 0
  undecodable := []

def terminatingSite (hosts : List Text) : RuntimeConfig where
  defaultListener := { ordinaryTraffic := { routes :=
    [{ matcher := { exact := hosts }, action := .terminate 8080 none .plaintext .roundRobin .none }] } }

def siteStore : ConfigStore where
  configs := { current := .value ⟨1, "admin".toList, {}⟩, counter := .value 1
               history := Function.update (fun _ => .missing) 1 (.value ⟨1, "admin".toList, {}⟩) }

/-- A save whose only host has an empty label, and a rollback to a revision that there is not. -/
theorem refused_saves_change_nothing_emptyLabel :
    let request : SaveConfigRequest := ⟨1, terminatingSite ["b..c".toList]⟩
    (exec (putConfig quietService request "admin".toList) siteStore).1.toBool = false ∧
      (exec (putConfig quietService request "admin".toList) siteStore).2 = siteStore ∧
      (exec (rollbackConfig quietService 2 "admin".toList) siteStore).2 = siteStore := by
  intro request
  obtain ⟨saves, rollbacks⟩ := refused_saves_change_nothing quietService siteStore "admin".toList
  have refused : (exec (putConfig quietService request "admin".toList) siteStore).1.toBool = false := by decide +kernel
  have idle : ¬ Begins quietService siteStore request.config := by
    rintro ⟨-, providerId, -, before, host, after, next, split, -, done⟩
    have single : terminatingHosts request.config = ["b..c".toList] := by decide +kernel
    cases before with
    | nil =>
      cases single.symm.trans split
      cases done
    | cons first rest => cases rest <;> cases single.symm.trans split
  refine ⟨refused, ?_, ?_⟩
  · cases answer : (exec (putConfig quietService request "admin".toList) siteStore).1 with
    | ok saved =>
      rw [answer] at refused
      cases refused
    | error response => exact (saves request).1 (fun _ _ begins => absurd begins idle) response answer
  · refine (rollbacks 2).1 ?_ notFound rfl
    intro previous current admitted
    cases admitted.historical

/-- The second host has an empty label: the save is refused, and the first has its certificate. -/
theorem refused_save_registers :
    let request : SaveConfigRequest := ⟨1, terminatingSite ["a.example".toList, "b..c".toList]⟩
    let result := exec (putConfig quietService request "admin".toList) siteStore
    result.1.toBool = false ∧ result.2 ≠ siteStore := by
  intro request result
  refine ⟨by decide +kernel, fun same => ?_⟩
  have registered : ((result.2.certificates .certificates)["a.example".toList]?).isSome = true := by decide +kernel
  rw [same] at registered
  cases registered

end Example

end TlsProxy.Control
