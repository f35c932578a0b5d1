import TlsProxy.Acme.Tasks
import TlsProxy.Lib.Alone

/-! A call of the store with nothing else running: it does what its sequential
description says, and leaves the gate as it was. -/
namespace TlsProxy.Acme

open Config Checks Certificates Programs

section Alone

variable {α β : Type} {w : World}

def Task.alone (task : Task α) (w : World) : Option (Except Text α × World) := Program.alone effect task.run w

theorem alone_bind_ok {task : Task α} {rest : α → Task β} {a : α} {next : World}
    (first : Task.alone task w = some (.ok a, next)) : Task.alone (task >>= rest) w = Task.alone (rest a) next := by
  grind [Program.alone_bind, Task.alone]

theorem alone_bind_error {task : Task α} {rest : α → Task β} {cause : Text} {next : World}
    (first : Task.alone task w = some (.error cause, next)) :
    Task.alone (task >>= rest) w = some (.error cause, next) := by
  refine (Program.alone_bind ..).trans ?_
  change (Task.alone task w).bind _ = _
  rw [first]
  rfl

def applied (w : World) : Except Text (List Certificates.Write) → Except Text Unit × World
  | .ok batch => (.ok (), { w with store := Families.write w.store batch })
  | .error cause => (.error cause, w)

theorem alone_ofExcept_bind {value : Except Text α} {rest : α → Task Unit}
    {batch : α → Except Text (List Certificates.Write)}
    (next : ∀ a, Task.alone (rest a) w = some (applied w (batch a))) :
    Task.alone (ofExcept value >>= rest) w = some (applied w (value >>= batch)) := by
  cases value with
  | ok a => exact next a
  | error cause => rfl

theorem alone_query_bind {answer : Certificates.Store → Except Text α} {rest : α → Task Unit}
    {batch : α → Except Text (List Certificates.Write)}
    (next : ∀ a, Task.alone (rest a) w = some (applied w (batch a))) :
    Task.alone (query answer >>= rest) w = some (applied w (answer w.store >>= batch)) := by
  have asked : Task.alone (query answer) w = some (answer w.store, w) := rfl
  cases found : answer w.store with
  | ok a => exact (alone_bind_ok (asked.trans (by rw [found]))).trans (next a)
  | error cause => exact alone_bind_error (asked.trans (by rw [found]))

theorem alone_forM_query (xs : List α) (answer : Certificates.Store → α → Except Text Unit) :
    Task.alone (xs.forM fun x => query (answer · x)) w = some (xs.forM (answer w.store), w) := by
  induction xs with
  | nil => rfl
  | cons x rest ih =>
    have asked : Task.alone (query (answer · x)) w = some (answer w.store x, w) := rfl
    change Task.alone (query (answer · x) >>= fun _ => rest.forM fun y => query (answer · y)) w =
      some (answer w.store x >>= fun _ => rest.forM (answer w.store), w)
    cases found : answer w.store x with
    | ok a => exact (alone_bind_ok (asked.trans (by rw [found]))).trans ih
    | error cause => exact alone_bind_error (asked.trans (by rw [found]))

end Alone

section Rules

variable {α β : Type} {w : World} {ok : World → α → Prop} {failed : World → Text → Prop}

/-- The task ends, and what holds of its result and of the state afterwards is known, also when it fails. -/
def Leaves (ok : World → α → Prop) (failed : World → Text → Prop) (w : World) (task : Task α) : Prop :=
  Ends effect (Outcome ok failed) w task.run

theorem leaves_iff {task : Task α} : Leaves ok failed w task ↔
    ∃ result next, Task.alone task w = some (result, next) ∧ Outcome ok failed next result :=
  ends_iff

theorem Leaves.exists_alone {kept : World → Prop} {task : Task α}
    (leaves : Leaves (fun after _ => kept after) (fun after _ => kept after) w task) :
    ∃ after, (Task.alone task w).map Prod.snd = some after ∧ kept after := by
  obtain ⟨result, after, done, holds⟩ := leaves_iff.mp leaves
  refine ⟨after, ?_, ?_⟩
  · rw [done]
    rfl
  · cases result with
    | ok _ => exact holds
    | error _ => exact holds

theorem Leaves.pure {a : α} (holds : ok w a) : Leaves ok failed w (pure a) := holds

theorem Leaves.ofExcept {value : Except Text α} (holds : ∀ a, value = .ok a → ok w a)
    (fails : ∀ cause, value = .error cause → failed w cause) : Leaves ok failed w (ofExcept value) := by
  cases value with
  | ok a => exact holds a rfl
  | error cause => exact fails cause rfl

theorem Leaves.query {answer : Certificates.Store → Except Text α} (holds : ∀ a, answer w.store = .ok a → ok w a)
    (fails : ∀ cause, answer w.store = .error cause → failed w cause) : Leaves ok failed w (query answer) :=
  ⟨w, rfl, Leaves.ofExcept holds fails⟩

theorem Leaves.commit {ok : World → Unit → Prop} {batch : List Certificates.Write}
    (holds : ok { w with store := Families.write w.store batch } ()) : Leaves ok failed w (commit batch) :=
  ⟨_, rfl, holds⟩

theorem Leaves.mono {other : World → α → Prop} {otherFailed : World → Text → Prop} {task : Task α}
    (leaves : Leaves ok failed w task) (weaker : ∀ w a, ok w a → other w a)
    (also : ∀ w cause, failed w cause → otherFailed w cause) : Leaves other otherFailed w task := by
  refine Ends.mono ?_ leaves
  intro w result known
  cases result with
  | ok a => exact weaker w a known
  | error cause => exact also w cause known

theorem Leaves.bind {ok : World → β → Prop} {task : Task α} {rest : α → Task β}
    (first : Leaves (fun w a => Leaves ok failed w (rest a)) failed w task) : Leaves ok failed w (task >>= rest) :=
  Ends.bindExcept first

end Rules

variable {w : World} {domain : Text}

theorem certificateForDomain_alone (domain : Text) (w : World) :
    Task.alone (certificateForDomain domain) w = some (Certificates.certificateForDomain w.store domain, w) := by
  unfold certificateForDomain
  cases normal : normalizeDomain domain with
  | error cause =>
    rw [Certificates.certificateForDomain, normal]
    rfl
  | ok name =>
    refine (alone_bind_ok (a := name) rfl).trans ?_
    refine (alone_bind_ok (a := (w.store .domainIndex)[name]?) rfl).trans ?_
    cases listed : (w.store .domainIndex)[name]? with
    | none =>
      rw [certificateForDomain_of_unlisted w.store normal listed]
      rfl
    | some id =>
      rw [certificateForDomain_of_listed w.store normal listed]
      rfl

theorem ownedDomains_alone (id : Text) {domains names : List Text} (normal : domains.mapM normalizeDomain = .ok names)
    (w : World) :
    Task.alone (ownedDomains id domains) w =
      some (.ok (names.filter fun name => (w.store .domainIndex)[name]? = some id), w) := by
  induction domains generalizing names with
  | nil =>
    cases normal
    rfl
  | cons domain rest ih =>
    rw [List.mapM_cons] at normal
    obtain ⟨name, isName, normal⟩ := bind_eq_ok.mp normal
    obtain ⟨others, areOthers, normal⟩ := bind_eq_ok.mp normal
    cases normal
    have named : Task.alone (ofExcept (normalizeDomain domain)) w = some (.ok name, w) := by
      rw [isName]
      rfl
    refine (alone_bind_ok named).trans ((alone_bind_ok (a := (w.store .domainIndex)[name]?) rfl).trans ?_)
    refine (alone_bind_ok (ih areOthers)).trans ?_
    rw [List.filter_cons]
    simp only [decide_eq_true_eq]
    rfl

theorem saveManagedCertificateLocked_alone (certificate : ManagedCertificate) (now : OffsetDateTime) (w : World) :
    Task.alone (saveManagedCertificateLocked certificate now) w =
      some (applied w (Certificates.saveManagedCertificateLocked w.store certificate now)) := by
  refine alone_ofExcept_bind fun _ => alone_query_bind fun existing => alone_ofExcept_bind fun normalized => ?_
  refine alone_ofExcept_bind fun _ => ?_
  have checked := alone_forM_query (w := w) normalized fun store domain => checkOwner store certificate.id domain
  have written : ∀ old, Task.alone (commit (saveBatch certificate existing old normalized now)) w =
      some (applied w (.ok (saveBatch certificate existing old normalized now))) := fun _ => rfl
  cases owners : normalized.forM (checkOwner w.store certificate.id) with
  | error cause => exact alone_bind_error (checked.trans (by rw [owners]))
  | ok done =>
    refine (alone_bind_ok (checked.trans (by rw [owners]))).trans ?_
    exact alone_ofExcept_bind written

theorem underGate_alone {α : Type} {body : Task α} {result : Except Text α} {next : World} (free : w.gate = false)
    (inside : Task.alone body { w with gate := true } = some (result, next)) :
    Task.alone (underGate body) w = some (result, { next with gate := false }) := by
  have locks : effect .lock w = some { w with gate := true } := by
    rw [effect, free]
    rfl
  refine (Program.alone_bind ..).trans ?_
  change ((effect .lock w).bind fun changed => some (Except.ok (), changed)).bind _ = _
  rw [locks]
  refine (Program.alone_bind ..).trans ?_
  change (Task.alone body { w with gate := true }).bind _ = _
  rw [inside]
  rfl

theorem Leaves.underGate {α : Type} {ok : World → α → Prop} {failed : World → Text → Prop} {body : Task α}
    (free : w.gate = false)
    (inside : Leaves (fun after a => ok { after with gate := false } a)
      (fun after cause => failed { after with gate := false } cause) { w with gate := true } body) :
    Leaves ok failed w (underGate body) := by
  obtain ⟨result, next, done, holds⟩ := leaves_iff.mp inside
  refine leaves_iff.mpr ⟨result, _, underGate_alone free done, ?_⟩
  cases result with
  | ok a => exact holds
  | error cause => exact holds

def Creatable (store : Certificates.Store) (name : Text) (now : OffsetDateTime) : Prop :=
  Certificates.certificateForDomain store name = .ok none ∧ ∃ providerId batch,
    defaultProviderId store = .ok providerId ∧
    Certificates.saveManagedCertificateLocked store (automaticCertificate name providerId) now = .ok batch

theorem createIfAbsentLocked_alone (name : Text) (now : OffsetDateTime) (w : World) :
    ∃ result next, Task.alone (createIfAbsentLocked name now) w = some (result, next) ∧
      (result = .ok true ↔ Creatable w.store name now) ∧ (result ≠ .ok true → next.store = w.store) := by
  unfold Creatable
  have looked := certificateForDomain_alone name w
  have asked : Task.alone (query defaultProviderId) w = some (defaultProviderId w.store, w) := rfl
  cases found : Certificates.certificateForDomain w.store name with
  | error cause =>
    rw [found] at looked
    exact ⟨_, _, alone_bind_error looked, by simp, fun _ => rfl⟩
  | ok certificate =>
    rw [found] at looked
    cases certificate with
    | some certificate => exact ⟨_, _, alone_bind_ok looked, by simp, fun _ => rfl⟩
    | none =>
      cases provider : defaultProviderId w.store with
      | error cause =>
        rw [provider] at asked
        exact ⟨_, _, (alone_bind_ok looked).trans (alone_bind_error asked), by simp, fun _ => rfl⟩
      | ok providerId =>
        rw [provider] at asked
        have saved := saveManagedCertificateLocked_alone (automaticCertificate name providerId) now w
        cases batch : Certificates.saveManagedCertificateLocked w.store (automaticCertificate name providerId)
          now with
        | error cause =>
          rw [batch] at saved
          refine ⟨_, _, (alone_bind_ok looked).trans ((alone_bind_ok asked).trans (alone_bind_error saved)), ?_,
            fun _ => rfl⟩
          simp [batch]
        | ok batch =>
          rw [batch] at saved
          refine ⟨.ok true, _, (alone_bind_ok looked).trans ((alone_bind_ok asked).trans (alone_bind_ok saved)),
            ?_, fun refused => absurd rfl refused⟩
          simp [*]

theorem createAutomaticCertificateIfAbsent_alone {name : Text} (normal : normalizeDomain domain = .ok name)
    (now : OffsetDateTime) (free : w.gate = false) :
    ∃ result next, Task.alone (createAutomaticCertificateIfAbsent domain now) w = some (result, next) ∧
      (result = .ok true ↔ Creatable w.store name now) ∧ (result ≠ .ok true → next.store = w.store) := by
  obtain ⟨result, next, inside, created, unchanged⟩ := createIfAbsentLocked_alone name now { w with gate := true }
  refine ⟨result, { next with gate := false }, ?_, created, unchanged⟩
  rw [createAutomaticCertificateIfAbsent, normal]
  exact (alone_bind_ok (a := name) rfl).trans (underGate_alone free inside)

end TlsProxy.Acme
