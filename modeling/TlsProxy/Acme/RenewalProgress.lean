import TlsProxy.Acme.Ownership
import TlsProxy.Acme.RetryGates
import TlsProxy.Acme.Serving

/-! A renewal that succeeds clears the gate and stores the new generation. -/
namespace TlsProxy.Acme

open Config Checks Certificates Programs

structure Renewed (ca : Ca) (store : Certificates.Store) (managed : ManagedCertificate)
    (generation : CertificateGeneration) : Prop where
  state : (store .renewals)[managed.id]? = some (.ok (renewedState ca managed generation))
  active : Certificates.activeGeneration store managed.id = .ok (some generation)

def KeepsCertificates (batch : List Certificates.Write) : Prop :=
  ∀ store : Certificates.Store, Families.write store batch .certificates = store .certificates

section Renewals

variable {ca : Ca} {w : World}

theorem activateAndReload_leaves (tls : Tls) (managed : ManagedCertificate) (generation : CertificateGeneration) :
    Leaves (fun after _ => Renewed ca after.store managed generation) (fun _ _ => True) w
      (activateAndReload tls generation (renewedState ca managed generation)) := by
  refine Leaves.bind (Leaves.bind (Leaves.ofExcept (fun batch made => Leaves.commit ?_) fun _ _ => trivial))
  have renewed : Renewed ca (Families.write w.store batch) managed generation := by
    have active := @activeGeneration_activated w.store _ _ _ made
    obtain ⟨-, -, made⟩ := bind_eq_ok.mp made
    obtain ⟨⟨⟩, same, made⟩ := bind_eq_ok.mp made
    have named : generation.certificateId = managed.id := require_eq_ok.mp same
    cases made
    rw [named] at active ⊢
    refine ⟨?_, active⟩
    change ((w.store .renewals).insert managed.id _)[managed.id]? = _
    rw [Families.getElem?_insert, if_pos rfl]
  refine Leaves.bind (Leaves.query (fun entries _ => ?_) fun _ _ => trivial)
  exact Leaves.bind ⟨_, rfl, Leaves.pure renewed⟩

theorem renewInner_leaves (candidate : RenewalCandidate) :
    Leaves (fun after _ => ∃ managed previous generation,
        managedCertificate w.store candidate.certificateId = .ok (some managed) ∧ managed.enabled = true ∧
        ca.issue managed previous = .ok generation ∧ Renewed ca after.store managed generation)
      (fun _ _ => True) w (renewInner ca candidate) := by
  refine Leaves.bind (Leaves.query (fun found read => ?_) fun _ _ => trivial)
  cases found with
  | none => trivial
  | some managed =>
    refine Leaves.bind (Leaves.ofExcept (fun _ enabled => ?_) fun _ _ => trivial)
    refine Leaves.bind (Leaves.ofExcept (fun _ _ => ?_) fun _ _ => trivial)
    have verified : Leaves (fun _ _ => True) (fun _ _ => True) w (verify ca.resolving managed.id managed.domains ca.control) :=
      (@verify_careful (fun _ => True) (fun _ => True) (fun _ _ _ => trivial) ..).leaves (fun _ _ _ _ => trivial) trivial
    refine Leaves.bind (verified.mono (fun checked _ _ => ?_) fun _ _ => id)
    refine Leaves.bind (Leaves.ofExcept (fun _ _ => ?_) fun _ _ => trivial)
    refine Leaves.bind ((activeGeneration_leaves managed.id).mono (fun checked previous _ => ?_) fun _ _ _ => trivial)
    refine Leaves.bind (Leaves.ofExcept (fun generation issued => ?_) fun _ _ => trivial)
    refine Leaves.bind (Leaves.ofExcept (fun _ _ => ?_) fun _ _ => trivial)
    refine Leaves.bind ((activateAndReload_leaves ca.tls managed generation).mono (fun after _ renewed => ?_) fun _ _ => id)
    exact Leaves.pure ⟨managed, previous, generation, read, require_eq_ok.mp enabled, issued, renewed⟩

/-- The records of certificates are left alone. -/
theorem renewInner_certificates (candidate : RenewalCandidate) :
    Leaves (fun after _ => after.store .certificates = w.store .certificates)
      (fun after _ => after.store .certificates = w.store .certificates) w (renewInner ca candidate) := by
  have careful : Careful (fun store => store .certificates = w.store .certificates) KeepsCertificates
      (renewInner ca candidate) := by
    refine renewInner_careful ?_ ?_ candidate
    · intro id keys values store
      refine Families.write_of_untouched fun item member => ?_
      rcases List.mem_append.mp member with deleted | put
      · obtain ⟨key, -, rfl⟩ := List.mem_map.mp deleted
        rfl
      · obtain ⟨value, -, rfl⟩ := List.mem_map.mp put
        rfl
    · intro managed generation batch made store
      obtain ⟨⟨⟩, -, made⟩ := bind_eq_ok.mp made
      obtain ⟨⟨⟩, -, made⟩ := bind_eq_ok.mp made
      cases made
      rfl
  exact careful.leaves (fun store batch same keeps => (keeps store).trans same) rfl

/-- Neither the gate nor a suggestion makes it due again, and its expiry only within the window. -/
theorem Renewed.due_iff {managed : ManagedCertificate} {generation : CertificateGeneration} {cutoff : OffsetDateTime}
    (renewed : Renewed ca w.store managed generation)
    (later : ∀ value, ca.renewalInformation generation = .ok (some value) → ca.now < value.suggestedAt)
    {certificate : ManagedCertificate} (same : certificate.id = managed.id) :
    Due w.store ca.now cutoff certificate ↔ ∀ expiry, generation.notAfter = some expiry → expiry ≤ cutoff := by
  constructor
  · rintro ⟨-, ⟨state, suggested, stored, isSuggested, passed⟩ | expires⟩
    · rw [same, renewed.state] at stored
      cases stored
      obtain ⟨value, answered, rfl⟩ := Option.map_eq_some_iff.mp isSuggested
      have known : ca.renewalInformation generation = .ok (some value) := by
        cases answer : ca.renewalInformation generation with
        | error cause =>
          rw [answer] at answered
          cases answered
        | ok found =>
          rw [answer] at answered
          exact congrArg Except.ok answered
      exact absurd passed (Int.not_le.mpr (later value known))
    · rw [same] at expires
      exact fun expiry => expires generation expiry renewed.active
  · intro expires
    constructor
    · intro state next stored waits
      rw [same, renewed.state] at stored
      cases stored
      cases waits
    · refine .inr fun other expiry current isExpiry => ?_
      rw [same, renewed.active] at current
      cases current
      exact expires expiry isExpiry

end Renewals

/-- A certificate that has been renewed, with no suggestion that lies in the past, is not due at once if and only if
its new generation outlives the renewal window. -/
theorem renewal_not_repeated {ca : Ca} {candidate : RenewalCandidate} {w after : World}
    (done : Task.alone (renewInner ca candidate) w = some (.ok (), after)) :
    ∃ managed previous generation, managedCertificate w.store candidate.certificateId = .ok (some managed) ∧
      ca.issue managed previous = .ok generation ∧
      Certificates.activeGeneration after.store managed.id = .ok (some generation) ∧
      ((∀ value, ca.renewalInformation generation = .ok (some value) → ca.now < value.suggestedAt) →
        ∀ renewBeforeDays : UInt16, ∃ result,
          Task.alone (dueManagedCertificates ca renewBeforeDays) after = some (result, after) ∧
          ∀ due, result = .ok due → ((∀ certificate ∈ due, certificate.id ≠ managed.id) ↔
            ∃ expiry, generation.notAfter = some expiry ∧ ca.now + hours (24 * renewBeforeDays.toNat) < expiry)) := by
  obtain ⟨_, _, again, holds⟩ := leaves_iff.mp (@renewInner_leaves ca w candidate)
  cases done.symm.trans again
  obtain ⟨_, _, again, kept⟩ := leaves_iff.mp (@renewInner_certificates ca w candidate)
  cases done.symm.trans again
  obtain ⟨managed, previous, generation, read, enabled, issued, renewed⟩ := holds
  refine ⟨managed, previous, generation, read, issued, renewed.active, fun later renewBeforeDays => ?_⟩
  obtain ⟨result, last, scanned, found⟩ := leaves_iff.mp (@dueManagedCertificates_leaves ca after renewBeforeDays)
  cases result with
  | error cause =>
    cases found
    exact ⟨_, scanned, nofun⟩
  | ok due =>
    obtain ⟨rfl, certificates, listed, isDue⟩ := found
    refine ⟨_, scanned, ?_⟩
    rintro _ ⟨⟩
    have stored : managed ∈ certificates := by
      refine (mem_managedCertificates _ listed).mpr ⟨candidate.certificateId, ?_⟩
      have row := (decoded_eq_ok read managed).mp rfl
      exact (congrArg (fun table => table[candidate.certificateId]?) kept).trans row
    constructor
    · intro absent
      by_contra within
      refine absent managed ((isDue managed).mpr ⟨stored, enabled, (renewed.due_iff later rfl).mpr ?_⟩) rfl
      intro expiry isExpiry
      by_contra outside
      exact within ⟨expiry, isExpiry, Int.not_le.mp outside⟩
    · rintro ⟨expiry, isExpiry, outside⟩ certificate member same
      have expired := (renewed.due_iff later same).mp ((isDue certificate).mp member).2.2 expiry isExpiry
      exact absurd expired (Int.not_le.mpr outside)

section Example

def issuing (lifetime : Int) : Ca :=
  { willingCa with
    issue := fun managed _ => .ok { id := "first".toList, certificateId := managed.id, notAfter := some lifetime } }

/-- Ninety days, renewed thirty days before they end. -/
theorem renewal_not_repeated_quarter :
    ∃ (after : World) (managed : ManagedCertificate), Task.alone (renewInner (issuing (hours 2160)) shopCandidate) shopWorld =
        some (.ok (), after) ∧
      ∃ result, Task.alone (dueManagedCertificates (issuing (hours 2160)) 30) after = some (result, after) ∧
        ∀ due, result = .ok due → ∀ certificate ∈ due, certificate.id ≠ managed.id := by
  obtain ⟨after, done⟩ : ∃ after,
      Task.alone (renewInner (issuing (hours 2160)) shopCandidate) shopWorld = some (.ok (), after) := ⟨_, rfl⟩
  obtain ⟨managed, previous, generation, -, issued, -, scanned⟩ := renewal_not_repeated done
  cases issued
  obtain ⟨result, alone, unlisted⟩ := scanned nofun 30
  exact ⟨after, managed, done, result, alone, fun due found => (unlisted due found).mpr ⟨hours 2160, rfl, by decide⟩⟩

/-- Six days, with the window of thirty: the next scan finds the certificate again. -/
theorem short_lifetime_due_at_once :
    (Task.alone (renewInner (issuing (hours 144)) shopCandidate >>= fun _ =>
        dueManagedCertificates (issuing (hours 144)) 30) shopWorld).map
      (fun outcome => outcome.1.map fun due => due.map ManagedCertificate.id) = some (.ok [shop.id]) := by
  decide +kernel

end Example

end TlsProxy.Acme
