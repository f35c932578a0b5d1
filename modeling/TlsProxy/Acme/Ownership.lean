import TlsProxy.Acme.Providers
import TlsProxy.Acme.Renewal
import TlsProxy.Store.Automatic

/-! Renewal states, active generations and generations refer to a certificate by
its ID. Every write that adds one does so after other steps of its task, and a
deletion removes the rows that it has found before. -/
namespace TlsProxy.Acme

open Config Checks Certificates Programs

/-- Every row belongs to a certificate that is there, and active generations exist. -/
structure Owned (store : Certificates.Store) : Prop where
  renewals : ∀ id : Text, (store .renewals)[id]? ≠ none → (store .certificates)[id]? ≠ none
  active : ∀ id generationId : Text, (store .activeGenerations)[id]? = some generationId →
    (store .certificates)[id]? ≠ none ∧ (store .generations)[generationKey id generationId]? ≠ none
  generations : ∀ key : Text, (store .generations)[key]? ≠ none →
    ∃ id generationId, key = generationKey id generationId ∧ (store .certificates)[id]? ≠ none

/-- No ID of a certificate contains the separator of keys. -/
def Separated (store : Certificates.Store) : Prop := ∀ id : Text, (store .certificates)[id]? ≠ none → '\x00' ∉ id

/-- A row that refers to a certificate is written while the certificate is there, and a deletion covers all
generations of its certificate. -/
def inOrder (store : Certificates.Store) (batch : List Certificates.Write) : Certificates.Write → Bool
  | .put .renewals id _ | .put .activeGenerations id _ => (store .certificates)[id]?.isSome
  | .delete .certificates id => (generationKeys store id).all fun key => batch.any fun
      | .delete .generations other => other == key
      | _ => false
  | _ => true

def InOrder (w : World) : Action → Prop
  | .write batch => batch.all (inOrder w.store batch) = true
  | _ => True

/-- What holds of every batch by itself, whatever store it is written to. -/
structure Respectful (batch : List Certificates.Write) : Prop where
  orderly : ∀ item ∈ batch, Certificates.Orderly item
  ids : ∀ id row, .put .certificates id row ∈ batch → '\x00' ∉ id
  activated : ∀ id generationId, .put .activeGenerations id generationId ∈ batch →
    ∃ row, .put .generations (generationKey id generationId) row ∈ batch
  generated : ∀ key row, .put .generations key row ∈ batch →
    ∃ id generationId, key = generationKey id generationId ∧ .put .activeGenerations id generationId ∈ batch
  deleted : ∀ id, .delete .certificates id ∈ batch →
    '\x00' ∉ id ∧ .delete .renewals id ∈ batch ∧ .delete .activeGenerations id ∈ batch
  purged : ∀ key, .delete .generations key ∈ batch →
    ∃ id, .delete .certificates id ∈ batch ∧ generationKey id [] <+: key
  exclusive : ∀ id, .delete .certificates id ∈ batch → ∀ family key row, .put family key row ∉ batch

theorem saveBatch_respectful {certificate : ManagedCertificate} {existing : Option ManagedCertificate}
    {old : List Text} {now : OffsetDateTime} (plain : '\x00' ∉ certificate.id) :
    Respectful (saveBatch certificate existing old [certificate.id] now) := by
  constructor
  · exact saveBatch_orderly
  all_goals simp [saveBatch, plain]

theorem deleteBatch_respectful {id : Text} {domains generations diagnostics : List Text} (plain : '\x00' ∉ id)
    (under : ∀ key ∈ generations, generationKey id [] <+: key) :
    Respectful (deleteBatch id domains generations diagnostics) := by
  constructor
  case orderly =>
    intro item member
    simp only [deleteBatch, List.mem_append, List.mem_map, List.mem_cons, List.not_mem_nil, or_false] at member
    grind [Certificates.Orderly]
  all_goals simp [deleteBatch, plain]
  exact under

theorem activationBatch_respectful {generation : CertificateGeneration} {renewal : RenewalState}
    {batch : List Certificates.Write} (made : activationBatch generation renewal = .ok batch) : Respectful batch := by
  obtain ⟨⟨⟩, -, made⟩ := bind_eq_ok.mp made
  obtain ⟨⟨⟩, -, made⟩ := bind_eq_ok.mp made
  cases made
  constructor <;> simp [Certificates.Orderly]

theorem renewalBatch_respectful {renewal : RenewalState} {batch : List Certificates.Write}
    (made : renewalBatch renewal = .ok batch) : Respectful batch := by
  obtain ⟨⟨⟩, -, made⟩ := bind_eq_ok.mp made
  cases made
  constructor <;> simp [Certificates.Orderly]

theorem diagnosticsBatch_respectful {id : Text} {keys : List Text} {values : List DnsDiagnostic} :
    Respectful (diagnosticsBatch id keys values) := by
  constructor
  case orderly =>
    intro item member
    simp only [diagnosticsBatch, List.mem_append, List.mem_map] at member
    grind [Certificates.Orderly]
  all_goals simp [diagnosticsBatch]

/-- A batch of providers refers to no certificate. -/
theorem respectful_of_providers {batch : List Certificates.Write}
    (only : ∀ item ∈ batch, (∃ provider : AcmeProvider, item = .put .providers provider.id (.ok provider)) ∨
      ∃ id, item = .delete .providers id) : Respectful batch := by
  constructor <;> grind [Certificates.Orderly]

theorem mem_generationKeys {store : Certificates.Store} {id key : Text} :
    key ∈ generationKeys store id ↔ (store .generations)[key]? ≠ none ∧ generationKey id [] <+: key :=
  mem_keys_withPrefix

section Write

variable {store : Certificates.Store} {batch : List Certificates.Write}

theorem present_of_put (ordered : batch.all (inOrder store batch) = true) {id : Text} :
    ((∃ row, .put .renewals id row ∈ batch) ∨ ∃ generationId, .put .activeGenerations id generationId ∈ batch) →
      (store .certificates)[id]? ≠ none := by
  rintro (⟨row, member⟩ | ⟨generationId, member⟩)
  · exact Option.isSome_iff_ne_none.mp (List.all_eq_true.mp ordered _ member)
  · exact Option.isSome_iff_ne_none.mp (List.all_eq_true.mp ordered _ member)

theorem purged_of_deleted (ordered : batch.all (inOrder store batch) = true) {id : Text}
    (member : .delete .certificates id ∈ batch) {key : Text} (found : key ∈ generationKeys store id) :
    .delete .generations key ∈ batch := by
  have covered := List.all_eq_true.mp (List.all_eq_true.mp ordered _ member) key found
  grind

theorem present_write {id : Text} (there : (store .certificates)[id]? ≠ none)
    (kept : .delete .certificates id ∉ batch) : (Families.write store batch .certificates)[id]? ≠ none :=
  Families.getElem?_write_ne_none kept (.inl there)

theorem Owned.write (owned : Owned store) (separated : Separated store) (respectful : Respectful batch)
    (ordered : batch.all (inOrder store batch) = true) : Owned (Families.write store batch) := by
  have undeleted : ∀ {family key row}, .put family key row ∈ batch → ∀ id, .delete .certificates id ∉ batch :=
    fun put id deleted => respectful.exclusive id deleted _ _ _ put
  refine ⟨?_, ?_, ?_⟩
  · intro id found
    obtain ⟨row, found⟩ := Option.ne_none_iff_exists'.mp found
    rcases Families.mem_or_of_getElem?_write found with put | ⟨there, kept⟩
    · exact present_write (present_of_put ordered (.inl ⟨row, put⟩)) (undeleted put id)
    · refine present_write (owned.renewals id (by simp [there])) fun deleted => kept ?_
      exact (respectful.deleted id deleted).2.1
  · intro id generationId found
    rcases Families.mem_or_of_getElem?_write found with put | ⟨there, kept⟩
    · refine ⟨present_write (present_of_put ordered (.inr ⟨_, put⟩)) (undeleted put id), ?_⟩
      grind [Respectful.activated, Families.getElem?_write_ne_none, Respectful.purged]
    · obtain ⟨certificate, generation⟩ := owned.active id generationId there
      have stays : .delete .certificates id ∉ batch := fun deleted => kept (respectful.deleted id deleted).2.2
      refine ⟨present_write certificate stays, Families.getElem?_write_ne_none (fun purged => ?_) (.inl generation)⟩
      obtain ⟨other, deleted, starts⟩ := respectful.purged _ purged
      cases eq_of_prefix_generationKey (separated id certificate) (respectful.deleted other deleted).1 starts
      exact stays deleted
  · intro key found
    obtain ⟨row, found⟩ := Option.ne_none_iff_exists'.mp found
    rcases Families.mem_or_of_getElem?_write found with put | ⟨there, kept⟩
    · obtain ⟨id, generationId, rfl, activates⟩ := respectful.generated key row put
      grind [present_write, present_of_put]
    · obtain ⟨id, generationId, rfl, certificate⟩ := owned.generations key (by simp [there])
      refine ⟨id, generationId, rfl, present_write certificate fun deleted => kept ?_⟩
      apply purged_of_deleted ordered deleted
      exact mem_generationKeys.mpr ⟨by simp [there], prefix_generationKey id generationId⟩

theorem Separated.write (separated : Separated store) (respectful : Respectful batch) :
    Separated (Families.write store batch) := by
  intro id found
  obtain ⟨row, found⟩ := Option.ne_none_iff_exists'.mp found
  rcases Families.mem_or_of_getElem?_write found with put | ⟨there, -⟩
  · exact respectful.ids id row put
  · exact separated id (by simp [there])

end Write

/-- Only respectful batches are written, and no ID has the separator whenever the store is read. -/
def writing : Monitor Action World Unit where
  allowed _ action := ∀ batch, action = .write batch → Respectful batch
  assumes _ _ w := Separated w.store
  observe _ _ _ := ()

def Harmless {α : Type} (task : Task α) : Prop := Yields writing (fun _ _ => True) () task

section Rules

variable {α β : Type}

theorem Harmless.pure (a : α) : Harmless (pure a : Task α) := trivial

theorem Harmless.throw (cause : Text) : Harmless (throw cause : Task α) := trivial

theorem Harmless.bind {task : Task α} {rest : α → Task β} (first : Harmless task) (next : ∀ a, Harmless (rest a)) :
    Harmless (task >>= rest) :=
  Yields.bind (first.mono fun _ a _ => next a)

theorem Harmless.ofExcept {value : Except Text α} {rest : α → Task β}
    (next : ∀ a, value = .ok a → Harmless (rest a)) : Harmless (ofExcept value >>= rest) :=
  Yields.bind (.ofExcept next)

theorem Harmless.ask {action : Action} (quiet : ∀ batch, action ≠ .write batch) {answer : World → Except Text α} :
    Harmless (ask action answer) :=
  Yields.ask (fun batch same => absurd same (quiet batch)) fun _ _ _ _ => trivial

theorem Harmless.query {answer : Certificates.Store → Except Text α} {rest : α → Task β}
    (next : ∀ store a, Separated store → answer store = .ok a → Harmless (rest a)) :
    Harmless (query answer >>= rest) := by
  refine Yields.bind (Yields.ask nofun ?_)
  intro w a known read
  exact next w.store a known read

theorem Harmless.lookup {answer : Certificates.Store → Except Text α} : Harmless (Acme.query answer) :=
  .ask (by nofun)

theorem Harmless.commit {batch : List Certificates.Write} (respectful : Respectful batch) :
    Harmless (commit batch) := by
  refine Yields.ask ?_ fun _ _ _ _ => trivial
  rintro _ ⟨⟩
  exact respectful

theorem Harmless.forM {xs : List α} {body : α → Task PUnit} (each : ∀ x ∈ xs, Harmless (body x)) :
    Harmless (xs.forM body) :=
  (Yields.forM (fun x member _ _ => each x member) trivial).mono fun _ _ _ => trivial

end Rules

section Calls

variable {ca : Ca}

theorem certificateForDomain_harmless (domain : Text) : Harmless (certificateForDomain domain) := by
  refine .ofExcept fun name _ => .bind .lookup fun found => ?_
  cases found with
  | none => exact .pure _
  | some id => exact .lookup

theorem activeGeneration_harmless (id : Text) : Harmless (activeGeneration id) := by
  refine .bind .lookup fun found => ?_
  cases found with
  | none => exact .pure _
  | some generationId => exact .lookup

theorem saveManagedCertificateLocked_harmless (certificate : ManagedCertificate) (now : OffsetDateTime) :
    Harmless (saveManagedCertificateLocked certificate now) := by
  refine .ofExcept fun _ one => .bind .lookup fun existing => .ofExcept fun normalized mapped => ?_
  refine .ofExcept fun _ named => .bind (.forM fun domain _ => .lookup) fun _ => .ofExcept fun old _ => ?_
  obtain ⟨domain, single⟩ := List.length_eq_one_iff.mp (require_eq_ok.mp one)
  rw [single] at mapped
  obtain ⟨name, normal, mapped⟩ := bind_eq_ok.mp mapped
  cases mapped
  obtain ⟨rfl, -⟩ := checkNames_eq_ok.mp named
  exact .commit (saveBatch_respectful (not_mem_normalizeDomain normal))

theorem underGate_harmless {α : Type} {body : Task α} (inside : Harmless body) : Harmless (underGate body) :=
  .underGate nofun nofun fun _ _ => inside.mono fun _ _ _ _ => trivial

theorem createIfAbsentLocked_harmless (domain : Text) (now : OffsetDateTime) :
    Harmless (createIfAbsentLocked domain now) := by
  refine .bind (certificateForDomain_harmless _) fun found => ?_
  cases found with
  | some certificate => exact .pure _
  | none =>
    refine .bind .lookup fun providerId => .bind (saveManagedCertificateLocked_harmless _ _) fun _ => ?_
    exact .pure _

theorem createAutomaticCertificateIfAbsent_harmless (domain : Text) (now : OffsetDateTime) :
    Harmless (createAutomaticCertificateIfAbsent domain now) :=
  .ofExcept fun _ _ => underGate_harmless (createIfAbsentLocked_harmless _ _)

theorem ownedDomains_harmless (id : Text) (domains : List Text) : Harmless (ownedDomains id domains) := by
  induction domains with
  | nil => exact .pure _
  | cons domain rest ih => exact .ofExcept fun name _ => .bind .lookup fun owner => .bind ih fun others => .pure _

theorem deleteManagedCertificate_harmless (id : Text) : Harmless (deleteManagedCertificate id) := by
  refine .query fun store found separated read => ?_
  cases found with
  | none => exact .pure _
  | some certificate =>
    have plain : '\x00' ∉ id := by
      apply separated
      intro absent
      rw [managedCertificate, absent] at read
      cases read
    refine .bind (ownedDomains_harmless _ _) fun domains => .query fun scanned generations _ listed => ?_
    refine .bind .lookup fun diagnostics => .bind (.commit (deleteBatch_respectful plain ?_)) fun _ => .pure _
    cases listed
    intro key member
    exact (mem_generationKeys.mp member).2

theorem restoreDefault_harmless : Harmless restoreDefault := by
  refine .bind .lookup fun all => ?_
  split
  · exact .pure _
  · refine .bind .lookup fun found => ?_
    cases found with
    | none => exact .pure _
    | some production => exact .commit (respectful_of_providers (by simp))

theorem saveProvider_harmless (provider : AcmeProvider) : Harmless (saveProvider provider) := by
  have finish : ∀ demoted : List AcmeProvider, Harmless (do
      commit (demoted.map (fun current => .put .providers current.id (.ok current)) ++
        [.put .providers provider.id (.ok provider)])
      restoreDefault) := by
    intro demoted
    refine .bind (.commit (respectful_of_providers ?_)) fun _ => restoreDefault_harmless
    grind
  refine .ofExcept fun _ _ => ?_
  split
  · refine .bind .lookup fun all => ?_
    have demoted := finish ((all.filter fun current => current.id != provider.id && current.isDefault).map
      fun current => { current with isDefault := false })
    rw [List.map_map] at demoted
    exact demoted
  · exact finish []

theorem deleteProvider_harmless (id : Text) : Harmless (deleteProvider id) :=
  .ofExcept fun _ _ => .bind .lookup fun _ => .ofExcept fun _ _ => .commit (respectful_of_providers (by simp))

theorem activateGeneration_harmless (generation : CertificateGeneration) (renewal : RenewalState) :
    Harmless (activateGeneration generation renewal) :=
  .ofExcept fun _ made => .commit (activationBatch_respectful made)

theorem saveRenewalState_harmless (renewal : RenewalState) : Harmless (saveRenewalState renewal) :=
  .ofExcept fun _ made => .commit (renewalBatch_respectful made)

theorem saveDnsDiagnostics_harmless (id : Text) (values : List DnsDiagnostic) :
    Harmless (saveDnsDiagnostics id values) :=
  .bind .lookup fun _ => .commit diagnosticsBatch_respectful

theorem verify_harmless (resolving : Resolving) (id : Text) (domains : List Text) (control : ControlPlaneConfig) :
    Harmless (verify resolving id domains control) :=
  .ofExcept fun _ _ => .bind ((verifyDomains_yields resolving (fun values =>
    (saveDnsDiagnostics_harmless id values).mono fun _ _ _ => rfl) ..).mono fun _ _ _ => trivial) fun _ => .ask (by nofun)

theorem activateAndReload_harmless (tls : Tls) (generation : CertificateGeneration) (renewal : RenewalState) :
    Harmless (activateAndReload tls generation renewal) := by
  refine .bind (activateGeneration_harmless _ _) fun _ => .bind .lookup fun entries => .bind (.ask (by nofun)) fun _ => ?_
  exact .pure _

theorem refreshOne_harmless (managed : ManagedCertificate) : Harmless (refreshOne ca managed) := by
  unfold refreshOne
  split
  · refine .bind .lookup fun previous => ?_
    dsimp only
    split
    · refine .bind (activeGeneration_harmless _) fun found => ?_
      cases found with
      | none => exact .pure _
      | some generation =>
        dsimp only
        split
        · exact saveRenewalState_harmless _
        · exact saveRenewalState_harmless _
        · exact .pure _
    · exact .pure _
  · exact .pure _

theorem isDue_harmless (cutoff : OffsetDateTime) (certificate : ManagedCertificate) :
    Harmless (isDue ca cutoff certificate) := by
  unfold isDue
  split
  · refine .bind .lookup fun state => ?_
    split
    · exact .pure _
    · refine .bind .lookup fun state => ?_
      split
      · exact .pure _
      · exact .bind (activeGeneration_harmless _) fun _ => .pure _
  · exact .pure _

theorem dueAmong_harmless (cutoff : OffsetDateTime) (certificates : List ManagedCertificate) :
    Harmless (dueAmong ca cutoff certificates) := by
  induction certificates with
  | nil => exact .pure _
  | cons certificate rest ih => exact .bind (isDue_harmless _ _) fun due => .bind ih fun others => .pure _

theorem dueCertificates_harmless (renewBeforeDays : UInt16) : Harmless (dueCertificates ca renewBeforeDays) := by
  refine .bind (.bind .lookup fun certificates => .forM fun managed _ => refreshOne_harmless managed) fun _ => ?_
  exact .bind .lookup fun certificates => .bind (dueAmong_harmless _ _) fun due => .pure _

theorem recordFailure_harmless (id error : Text) : Harmless (recordFailure ca id error) :=
  .bind .lookup fun _ => saveRenewalState_harmless _

theorem renewInner_harmless (candidate : RenewalCandidate) : Harmless (renewInner ca candidate) := by
  refine .bind .lookup fun found => ?_
  cases found with
  | none => exact .throw _
  | some managed =>
    refine .ofExcept fun _ _ => .ofExcept fun _ _ => .bind (verify_harmless ..) fun _ => .ofExcept fun _ _ => ?_
    refine .bind (activeGeneration_harmless _) fun previous => .ofExcept fun generation _ => .ofExcept fun _ _ => ?_
    exact .bind (activateAndReload_harmless ..) fun _ => .pure _

theorem renew_harmless (candidate : RenewalCandidate) : Harmless (renew ca candidate) := by
  refine Obeys.bind (Obeys.mono ?_ (renewInner_harmless candidate))
  intro _ result _
  cases result with
  | ok result => trivial
  | error cause =>
    refine Obeys.bind (Obeys.mono ?_ (@recordFailure_harmless ca candidate.certificateId cause))
    intro _ result _
    cases result with
    | ok result => trivial
    | error other => trivial

end Calls

inductive CertificateCall
  | saveManagedCertificate (certificate : ManagedCertificate) (now : OffsetDateTime)
  | createAutomaticCertificateIfAbsent (domain : Text) (now : OffsetDateTime)
  | deleteManagedCertificate (certificateId : Text)
  | activateGeneration (generation : CertificateGeneration) (renewal : RenewalState)
  | dueCertificates (ca : Ca) (renewBeforeDays : UInt16)
  | renew (ca : Ca) (candidate : RenewalCandidate)
  | recordTimeout (ca : Ca) (candidate : RenewalCandidate) (deadline : Nat)
  | saveProvider (provider : AcmeProvider)
  | deleteProvider (providerId : Text)

def CertificateCall.program : CertificateCall → Program Action World (Except Text Unit)
  | .saveManagedCertificate certificate now => finish (Acme.saveManagedCertificate certificate now)
  | .createAutomaticCertificateIfAbsent domain now => finish (Acme.createAutomaticCertificateIfAbsent domain now)
  | .deleteManagedCertificate id => finish (Acme.deleteManagedCertificate id)
  | .activateGeneration generation renewal => finish (Acme.activateGeneration generation renewal)
  | .dueCertificates ca renewBeforeDays => finish (Acme.dueCertificates ca renewBeforeDays)
  | .renew ca candidate => finish (Acme.renew ca candidate)
  | .recordTimeout ca candidate deadline => finish (Acme.recordTimeout ca candidate deadline)
  | .saveProvider provider => finish (Acme.saveProvider provider)
  | .deleteProvider providerId => finish (Acme.deleteProvider providerId)

/-- Calls of certificates and providers, and renewals. A renewal that exceeds its deadline is abandoned, and the
timeout recorded by another task; what a blocking thread had begun may still be done before the renewal stops. -/
def certificateSystem : System CertificateCall Empty Action World (Except Text Unit) where
  program := CertificateCall.program
  effect := effect
  outside := nofun

abbrev CertificateState := State CertificateCall Action World (Except Text Unit)

def RowsInOrder (s : CertificateState) : Event CertificateCall Empty → Prop
  | .advance task => ∀ action ∈ s.label? task, InOrder s.shared action
  | _ => True

instance (w : World) : (action : Action) → Decidable (InOrder w action)
  | .write batch => inferInstanceAs (Decidable (batch.all (inOrder w.store batch) = true))
  | .read | .lock | .unlock | .load _ | .swap _ | .recallRejection .. | .putRejection .. | .script .. | .verified .. =>
    .isTrue trivial

instance (s : CertificateState) : (event : Event CertificateCall Empty) → Decidable (RowsInOrder s event)
  | .advance task => inferInstanceAs (Decidable (∀ action ∈ s.label? task, InOrder s.shared action))
  | .spawn .. | .abandon _ | .outside _ => .isTrue trivial

theorem Harmless.finish {α : Type} {task : Task α} (harmless : Harmless task) :
    Obeys writing (fun _ _ => True) () (finish task) :=
  Obeys.mono (fun _ _ _ => trivial) (Harmless.bind harmless fun _ => .pure _)

theorem program_harmless (call : CertificateCall) : Obeys writing (fun _ _ => True) () call.program := by
  cases call with
  | saveManagedCertificate certificate now =>
    exact (underGate_harmless (saveManagedCertificateLocked_harmless certificate now)).finish
  | createAutomaticCertificateIfAbsent domain now =>
    exact (createAutomaticCertificateIfAbsent_harmless domain now).finish
  | deleteManagedCertificate id => exact (deleteManagedCertificate_harmless id).finish
  | activateGeneration generation renewal => exact (activateGeneration_harmless generation renewal).finish
  | dueCertificates ca renewBeforeDays => exact (dueCertificates_harmless renewBeforeDays).finish
  | renew ca candidate => exact (renew_harmless candidate).finish
  | recordTimeout ca candidate deadline => exact (recordFailure_harmless _ _).finish
  | saveProvider provider => exact (saveProvider_harmless provider).finish
  | deleteProvider providerId => exact (deleteProvider_harmless providerId).finish

section Keeps

variable (inv : Certificates.Store → Prop) {ok : CertificateState → Event CertificateCall Empty → Prop}

theorem keeps_of_write (separated : ∀ store, inv store → Separated store)
    (kept : ∀ s task batch, ok s (.advance task) → s.label? task = some (.write batch) → Respectful batch →
      inv s.shared.store → inv (Families.write s.shared.store batch)) :
    Keeps certificateSystem writing (fun _ => ()) () (fun _ _ _ => True) ok fun w _ _ => inv w.store where
  programs := program_harmless
  assumes := by
    intro s seen task action watched _ _ _
    exact separated _ watched.holds
  advance := by
    intro s seen task action changed watched condition running allowed taken
    rcases effect_store taken with ⟨batch, rfl, same⟩ | same
    · rw [same]
      exact kept s task batch condition running (allowed batch rfl) watched.holds
    · rw [same]
      exact watched.holds
  spawn := by
    intro s seen task call watched _ _
    exact watched.holds
  abandon := by
    intro s seen task watched
    exact watched.holds
  outside := by
    intro s seen change
    cases change

/-- What each respectful write keeps is kept by the calls, in every interleaving. -/
theorem run_of_write {w : World} (start : inv w.store) (separated : ∀ store, inv store → Separated store)
    (kept : ∀ s task batch, ok s (.advance task) → s.label? task = some (.write batch) → Respectful batch →
      inv s.shared.store → inv (Families.write s.shared.store batch))
    {events : List (Event CertificateCall Empty)} {last : CertificateState}
    (meets : Runs.Meets (step certificateSystem) ok { shared := w } events)
    (whole : Runs.run (step certificateSystem) { shared := w } events = some last) : inv last.shared.store := by
  have first := @watched_initial _ _ _ (Except Text Unit) writing CertificateCall (fun _ _ _ => True)
    (fun w _ _ => inv w.store) w (fun _ => ()) start
  obtain ⟨seen, watched⟩ := (keeps_of_write inv separated kept).run first meets whole
  exact watched.holds

end Keeps

/-- The calls keep the order that registrations rely on, however they interleave. -/
theorem calls_consistent {w : World} (consistent : Consistent w.store) (separated : Separated w.store)
    {events : List (Event CertificateCall Empty)} {last : CertificateState}
    (whole : Runs.run (step certificateSystem) { shared := w } events = some last) : Consistent last.shared.store := by
  have both := run_of_write (fun store => Consistent store ∧ Separated store) ⟨consistent, separated⟩
    (fun _ both => both.2) (fun s task batch _ _ respectful both =>
      ⟨both.1.write respectful.orderly, both.2.write respectful⟩)
    (Runs.meets_of_forall _ (fun _ _ => trivial) _ _) whole
  exact both.1

/-- Rows do not outlive their certificate, as long as every row is written while its certificate is there and every
deletion finds all generations. -/
theorem rows_owned {w : World} (owned : Owned w.store) (separated : Separated w.store)
    {events : List (Event CertificateCall Empty)} {last : CertificateState}
    (meets : Runs.Meets (step certificateSystem) RowsInOrder { shared := w } events)
    (whole : Runs.run (step certificateSystem) { shared := w } events = some last) : Owned last.shared.store := by
  have both := run_of_write (fun store => Owned store ∧ Separated store) ⟨owned, separated⟩ (fun _ both => both.2)
    (fun s task batch ordered running respectful both =>
      ⟨both.1.write both.2 respectful (ordered _ running), both.2.write respectful⟩) meets whole
  exact both.1

section Example

def shop : ManagedCertificate where
  id := "shop.example".toList
  domains := ["shop.example".toList]
  providerId := "letsencrypt".toList

def shopCandidate : RenewalCandidate := ⟨shop.id, shop.domains, shop.providerId⟩

def shopWorld : World where
  store := Families.write Certificates.Store.empty (saveBatch shop none [] [shop.id] 0)

def willingCa : Ca where
  tls := { parse := fun _ => .ok ⟨[], 100, some [shop.id]⟩, now := 0 }
  resolving := oneAddress (.v4 .localhost)
  control := { selfIps := ["127.0.0.1".toList], publicResolvers := ["1.1.1.1".toList] }
  account := fun _ => .ok ()
  issue := fun managed _ => .ok { id := "first".toList, certificateId := managed.id }
  renewalInformation := fun _ => .ok none
  now := 0
  retryAfterFromError := fun _ _ => none
  jitter := 0

def advances (task times : Nat) : List (Event CertificateCall Empty) := List.replicate times (.advance task)

def scanShop : List (Event CertificateCall Empty) := .spawn 0 (.dueCertificates willingCa 15) :: advances 0 7

def deleteShop (task : Nat) : List (Event CertificateCall Empty) :=
  .spawn task (.deleteManagedCertificate shop.id) :: advances task 5

/-- Which rows of the certificate a store has: itself, its renewal state, its active generation, a generation. -/
def shopRows (s : CertificateState) : Bool × Bool × Bool × Bool :=
  let store := s.shared.store
  ((store .certificates).contains shop.id, (store .renewals).contains shop.id,
    (store .activeGenerations).contains shop.id, !(generationKeys store shop.id).isEmpty)

theorem shopWorld_owned : Owned shopWorld.store ∧ Separated shopWorld.store := by
  have empty : Owned Certificates.Store.empty ∧ Separated Certificates.Store.empty := by
    refine ⟨⟨?_, ?_, ?_⟩, ?_⟩
    · intro id found
      exact absurd rfl found
    · intro id generationId found
      cases found
    · intro key found
      exact absurd rfl found
    · intro id found
      exact absurd rfl found
  have respectful : Respectful (saveBatch shop none [] [shop.id] 0) := saveBatch_respectful (by decide)
  exact ⟨empty.1.write empty.2 respectful rfl, empty.2.write respectful⟩

/-- A renewal during which the certificate is saved again, and its deletion afterwards. -/
theorem rows_owned_undisturbed :
    let events := scanShop ++ .spawn 1 (.renew willingCa shopCandidate) :: advances 1 5 ++
      .spawn 2 (.saveManagedCertificate shop 1) :: advances 2 5 ++ advances 1 3
    Runs.Meets (step certificateSystem) RowsInOrder { shared := shopWorld } (events ++ deleteShop 3) ∧
    ∃ issued, Runs.run (step certificateSystem) { shared := shopWorld } events = some issued ∧
      shopRows issued = (true, true, true, true) ∧ Owned issued.shared.store := by
  have meets : Runs.Meets (step certificateSystem) RowsInOrder { shared := shopWorld }
      (scanShop ++ .spawn 1 (.renew willingCa shopCandidate) :: advances 1 5 ++
        .spawn 2 (.saveManagedCertificate shop 1) :: advances 2 5 ++ advances 1 3) := by
    decide +kernel
  have rows : (Runs.run (step certificateSystem) { shared := shopWorld }
      (scanShop ++ .spawn 1 (.renew willingCa shopCandidate) :: advances 1 5 ++
        .spawn 2 (.saveManagedCertificate shop 1) :: advances 2 5 ++ advances 1 3)).map shopRows =
      some (true, true, true, true) := by
    decide +kernel
  refine ⟨by decide +kernel, ?_⟩
  obtain ⟨issued, whole, rows⟩ := Option.map_eq_some_iff.mp rows
  exact ⟨issued, whole, rows, rows_owned shopWorld_owned.1 shopWorld_owned.2 meets whole⟩

/-- In one run the certificate is deleted while its renewal waits for the CA, in another between scan and renewal:
it is gone, but has a generation, or a renewal state. -/
theorem renewal_outlives_certificate :
    (dueCertificates willingCa 15).run.alone effect shopWorld = some (.ok [shopCandidate], shopWorld) ∧
    (Runs.run (step certificateSystem) { shared := shopWorld }
      (scanShop ++ .spawn 1 (.renew willingCa shopCandidate) :: advances 1 5 ++ deleteShop 2 ++
        advances 1 3)).map shopRows = some (false, true, true, true) ∧
    (Runs.run (step certificateSystem) { shared := shopWorld }
      (scanShop ++ deleteShop 1 ++ .spawn 2 (.renew willingCa shopCandidate) :: advances 2 3)).map shopRows =
        some (false, true, false, false) := by
  refine ⟨rfl, by decide +kernel, by decide +kernel⟩

end Example

end TlsProxy.Acme
