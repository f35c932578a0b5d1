import TlsProxy.Acme.Alone
import TlsProxy.Acme.Renewal

/-! After a failure a certificate waits until `next_attempt`; a deadline that the CA
has set is kept in `ca_retry_after` too. -/
namespace TlsProxy.Acme

open Config Checks Certificates Programs

def clearedGate (now : OffsetDateTime) (state : RenewalState) : Option RenewalState :=
  if !(state.caRetryAfter.any fun deadline => decide (now < deadline)) && state.nextAttempt.isSome then
    some { state with nextAttempt := none, caRetryAfter := none }
  else none

def clearedGates (clock : Text → OffsetDateTime) (store : Certificates.Store) :
    Except Text (List (Text × RenewalState)) := do
  let states ← (store .renewals).toList.mapM fun row => row.2.map (Prod.mk row.1)
  return states.filterMap fun row => (clearedGate (clock row.1) row.2).map (Prod.mk row.1)

def clearRenewalRetryGates (clock : Text → OffsetDateTime) : Task Nat := do
  let updates ← query (clearedGates clock)
  commit (updates.map fun row => .put .renewals row.1 (.ok row.2))
  return updates.length

def dueManagedCertificates (ca : Ca) (renewBeforeDays : UInt16) : Task (List ManagedCertificate) := do
  let certificates ← query managedCertificates
  dueAmong ca (ca.now + hours (24 * renewBeforeDays.toNat)) certificates

/-- Every batch is a good one, the store is sound whenever it is read, and nobody waits for the gate. -/
def careful (sound : Certificates.Store → Prop) (good : List Certificates.Write → Prop) : Monitor Action World Unit where
  allowed _ action := (∀ batch, action = .write batch → good batch) ∧ action ≠ .lock
  assumes _ _ w := sound w.store
  observe _ _ _ := ()

def Careful (sound : Certificates.Store → Prop) (good : List Certificates.Write → Prop) {α : Type} (task : Task α) : Prop :=
  Yields (careful sound good) (fun _ _ => True) () task

section Rules

variable {sound : Certificates.Store → Prop} {good : List Certificates.Write → Prop} {α β : Type}

theorem Careful.pure (a : α) : Careful sound good (pure a : Task α) := trivial

theorem Careful.throw (cause : Text) : Careful sound good (throw cause : Task α) := trivial

theorem Careful.bind {task : Task α} {rest : α → Task β} (first : Careful sound good task)
    (next : ∀ a, Careful sound good (rest a)) : Careful sound good (task >>= rest) :=
  Yields.bind (first.mono fun _ a _ => next a)

theorem Careful.ofExcept {value : Except Text α} {rest : α → Task β}
    (next : ∀ a, value = .ok a → Careful sound good (rest a)) : Careful sound good (ofExcept value >>= rest) :=
  Yields.bind (.ofExcept next)

theorem Careful.ask {action : Action} (quiet : ∀ batch, action ≠ .write batch) (unlocked : action ≠ .lock)
    {answer : World → Except Text α} : Careful sound good (ask action answer) :=
  Yields.ask ⟨fun batch same => absurd same (quiet batch), unlocked⟩ fun _ _ _ _ => trivial

theorem Careful.query {answer : Certificates.Store → Except Text α} {rest : α → Task β}
    (next : ∀ store a, sound store → answer store = .ok a → Careful sound good (rest a)) :
    Careful sound good (query answer >>= rest) := by
  refine Yields.bind (Yields.ask ⟨nofun, nofun⟩ ?_)
  intro w a known read
  exact next w.store a known read

theorem Careful.lookup {answer : Certificates.Store → Except Text α} : Careful sound good (Acme.query answer) :=
  .ask (by nofun) (by nofun)

theorem Careful.commit {batch : List Certificates.Write} (fine : good batch) : Careful sound good (commit batch) := by
  refine Yields.ask ⟨?_, nofun⟩ fun _ _ _ _ => trivial
  rintro _ ⟨⟩
  exact fine

theorem Careful.forM {xs : List α} {body : α → Task PUnit} (each : ∀ x ∈ xs, Careful sound good (body x)) :
    Careful sound good (xs.forM body) :=
  (Yields.forM (fun x member _ _ => each x member) trivial).mono fun _ _ _ => trivial

theorem Careful.leaves {task : Task α} (obeys : Careful sound good task)
    (kept : ∀ store batch, sound store → good batch → sound (Families.write store batch)) {w : World}
    (start : sound w.store) :
    Leaves (fun after _ => sound after.store) (fun after _ => sound after.store) w task := by
  have progress : ∀ t action w, (careful sound good).allowed t action → sound w.store →
      (careful sound good).assumes t action w ∧ ∃ changed, effect action w = some changed ∧ sound changed.store := by
    intro _ action w allowed holds
    refine ⟨holds, ?_⟩
    cases action with
    | write batch => exact ⟨_, rfl, kept w.store batch holds (allowed.1 batch rfl)⟩
    | lock => exact absurd rfl allowed.2
    | _ => exact ⟨_, rfl, holds⟩
  refine Ends.mono ?_ (Obeys.ends progress obeys start)
  rintro after (a | cause) ⟨_, holds, -⟩
  · exact holds
  · exact holds

end Rules

section Calls

variable {sound : Certificates.Store → Prop} {good : List Certificates.Write → Prop}

theorem activeGeneration_careful (id : Text) : Careful sound good (activeGeneration id) := by
  refine .bind .lookup fun found => ?_
  cases found with
  | none => exact .pure _
  | some generationId => exact .lookup

theorem saveDnsDiagnostics_careful (fine : ∀ id keys values, good (diagnosticsBatch id keys values)) (id : Text)
    (values : List DnsDiagnostic) : Careful sound good (saveDnsDiagnostics id values) :=
  .bind .lookup fun _ => .commit (fine ..)

theorem verify_careful (fine : ∀ id keys values, good (diagnosticsBatch id keys values)) (resolving : Resolving)
    (id : Text) (domains : List Text) (control : ControlPlaneConfig) :
    Careful sound good (verify resolving id domains control) := by
  refine .ofExcept fun selfIps _ => .bind ?_ fun _ => .ask (by nofun) (by nofun)
  exact (verifyDomains_yields resolving (fun values =>
    (saveDnsDiagnostics_careful fine id values).mono fun _ _ _ => rfl) ..).mono fun _ _ _ => trivial

end Calls

/-- A deadline of the CA is the time of the next attempt. -/
def RenewalState.Agrees (state : RenewalState) : Prop :=
  ∀ deadline, state.caRetryAfter = some deadline → state.nextAttempt = some deadline

def Agreeing (store : Certificates.Store) : Prop :=
  ∀ (id : Text) (state : RenewalState), (store .renewals)[id]? = some (.ok state) → RenewalState.Agrees state

def KeepsGates (batch : List Certificates.Write) : Prop :=
  ∀ (id : Text) (state : RenewalState), .put .renewals id (.ok state) ∈ batch → RenewalState.Agrees state

theorem Agreeing.write {store : Certificates.Store} {batch : List Certificates.Write} (agreeing : Agreeing store)
    (keeps : KeepsGates batch) : Agreeing (Families.write store batch) := by
  intro id state found
  rcases Families.mem_or_of_getElem?_write found with put | ⟨there, -⟩
  · exact keeps id state put
  · exact agreeing id state there

theorem Agreeing.renewalState {store : Certificates.Store} (agreeing : Agreeing store) {id : Text}
    {found : Option RenewalState} (read : renewalState store id = .ok found) :
    RenewalState.Agrees (found.getD { certificateId := id }) := by
  cases found with
  | none =>
    intro deadline none
    cases none
  | some state => exact agreeing id state ((decoded_eq_ok read state).mp rfl)

section Tasks

variable {ca : Ca}

theorem saveRenewalState_agreeing {state : RenewalState} (agrees : RenewalState.Agrees state) :
    Careful Agreeing KeepsGates (saveRenewalState state) := by
  refine .ofExcept fun batch made => .commit ?_
  obtain ⟨⟨⟩, -, made⟩ := bind_eq_ok.mp made
  cases made
  intro id other put
  grind

theorem refreshAri_agreeing : Careful Agreeing KeepsGates (refreshAri ca) := by
  refine .bind .lookup fun certificates => .forM fun managed _ => ?_
  unfold refreshOne
  split
  · refine .query fun store found agreeing read => ?_
    have agrees := agreeing.renewalState read
    dsimp only
    split
    · refine .bind (activeGeneration_careful _) fun generation => ?_
      cases generation with
      | none => exact .pure _
      | some generation =>
        dsimp only
        split
        · exact saveRenewalState_agreeing agrees
        · exact saveRenewalState_agreeing agrees
        · exact .pure _
    · exact .pure _
  · exact .pure _

theorem failedState_agrees (id error : Text) (previous : Option RenewalState) :
    RenewalState.Agrees (failedState ca id error previous) := by
  intro deadline gated
  grind [failedState]

theorem recordFailure_agreeing (id error : Text) : Careful Agreeing KeepsGates (recordFailure ca id error) :=
  .bind .lookup fun previous => saveRenewalState_agreeing (failedState_agrees id error previous)

theorem renewInner_careful {sound : Certificates.Store → Prop} {good : List Certificates.Write → Prop}
    (diagnosed : ∀ id keys values, good (diagnosticsBatch id keys values))
    (activated : ∀ managed generation batch,
      activationBatch generation (renewedState ca managed generation) = .ok batch → good batch)
    (candidate : RenewalCandidate) : Careful sound good (renewInner ca candidate) := by
  refine .bind .lookup fun found => ?_
  cases found with
  | none => exact .throw _
  | some managed =>
    refine .ofExcept fun _ _ => .ofExcept fun _ _ => .bind (verify_careful diagnosed ..) fun _ => ?_
    refine .ofExcept fun _ _ => .bind (activeGeneration_careful _) fun previous => .ofExcept fun generation _ => ?_
    refine .ofExcept fun _ _ => .bind (.bind (.ofExcept fun batch made => .commit ?_) fun _ => ?_) fun _ => .pure _
    · exact activated managed generation batch made
    · exact .bind .lookup fun entries => .bind (.ask (by nofun) (by nofun)) fun _ => .pure _

theorem renewInner_agreeing (candidate : RenewalCandidate) :
    Careful Agreeing KeepsGates (renewInner ca candidate) := by
  refine renewInner_careful ?_ ?_ candidate
  · intro id keys values other state put
    simp [diagnosticsBatch] at put
  · intro managed generation batch made
    obtain ⟨⟨⟩, -, made⟩ := bind_eq_ok.mp made
    obtain ⟨⟨⟩, -, made⟩ := bind_eq_ok.mp made
    cases made
    intro id state put
    have same : id = generation.certificateId ∧ state = renewedState ca managed generation := by simpa using put
    rw [same.2]
    intro deadline none
    cases none

theorem renew_agreeing (candidate : RenewalCandidate) : Careful Agreeing KeepsGates (renew ca candidate) := by
  refine Obeys.bind (Obeys.mono ?_ (renewInner_agreeing candidate))
  intro _ result _
  cases result with
  | ok result => trivial
  | error cause =>
    refine Obeys.bind (Obeys.mono ?_ (@recordFailure_agreeing ca candidate.certificateId cause))
    intro _ result _
    cases result with
    | ok result => trivial
    | error other => trivial

theorem clearRenewalRetryGates_agreeing (clock : Text → OffsetDateTime) :
    Careful Agreeing KeepsGates (clearRenewalRetryGates clock) := by
  refine .query fun store updates _ read => .bind (.commit ?_) fun _ => .pure _
  intro id state put
  obtain ⟨⟨key, cleared⟩, member, same⟩ := List.mem_map.mp put
  cases same
  obtain ⟨states, -, read⟩ := bind_eq_ok.mp read
  cases read
  obtain ⟨⟨other, before⟩, -, changed⟩ := List.mem_filterMap.mp member
  obtain ⟨after, clears, same⟩ := Option.map_eq_some_iff.mp changed
  cases same
  unfold clearedGate at clears
  split at clears
  · cases clears
    intro deadline none
    cases none
  · cases clears

theorem dueCertificates_agreeing (renewBeforeDays : UInt16) :
    Careful Agreeing KeepsGates (dueCertificates ca renewBeforeDays) := by
  have due : ∀ cutoff certificate, Careful Agreeing KeepsGates (isDue ca cutoff certificate) := by
    intro cutoff certificate
    unfold isDue
    split
    · refine .bind .lookup fun state => ?_
      split
      · exact .pure _
      · refine .bind .lookup fun state => ?_
        split
        · exact .pure _
        · exact .bind (activeGeneration_careful _) fun _ => .pure _
    · exact .pure _
  refine .bind refreshAri_agreeing fun _ => .bind .lookup fun certificates => .bind ?_ fun _ => .pure _
  induction certificates with
  | nil => exact .pure _
  | cons certificate rest ih => exact .bind (due _ _) fun _ => .bind ih fun _ => .pure _

end Tasks

inductive RenewalEvent
  | scan (ca : Ca) (renewBeforeDays : UInt16)
  | refresh (ca : Ca)
  | renew (ca : Ca) (candidate : RenewalCandidate)
  | timeout (ca : Ca) (candidate : RenewalCandidate) (deadline : Nat)
  | clear (clock : Text → OffsetDateTime)

def renewalStep (w : World) : RenewalEvent → Option World
  | .scan ca renewBeforeDays => (Task.alone (dueCertificates ca renewBeforeDays) w).map Prod.snd
  | .refresh ca => (Task.alone (refreshAri ca) w).map Prod.snd
  | .renew ca candidate => (Task.alone (renew ca candidate) w).map Prod.snd
  | .timeout ca candidate deadline => (Task.alone (recordTimeout ca candidate deadline) w).map Prod.snd
  | .clear clock => (Task.alone (clearRenewalRetryGates clock) w).map Prod.snd

theorem renewalStep_agreeing {w : World} (agreeing : Agreeing w.store) (event : RenewalEvent) :
    ∃ next, renewalStep w event = some next ∧ Agreeing next.store := by
  have ends : ∀ {α : Type} {task : Task α}, Careful Agreeing KeepsGates task →
      ∃ next, (Task.alone task w).map Prod.snd = some next ∧ Agreeing next.store := fun careful =>
    (careful.leaves (fun _ _ agreeing keeps => agreeing.write keeps) agreeing).exists_alone
  cases event with
  | scan ca renewBeforeDays => exact ends (dueCertificates_agreeing renewBeforeDays)
  | refresh ca => exact ends refreshAri_agreeing
  | renew ca candidate => exact ends (renew_agreeing candidate)
  | timeout ca candidate deadline => exact ends (recordFailure_agreeing ..)
  | clear clock => exact ends (clearRenewalRetryGates_agreeing clock)

section Due

variable {ca : Ca} {w : World}

def Ungated (store : Certificates.Store) (now : OffsetDateTime) (certificate : ManagedCertificate) : Prop :=
  ∀ (state : RenewalState) (next : OffsetDateTime), (store .renewals)[certificate.id]? = some (.ok state) →
    state.nextAttempt = some next → next ≤ now

theorem activeGeneration_leaves (id : Text) :
    Leaves (fun after found => after = w ∧ Certificates.activeGeneration w.store id = .ok found)
      (fun after _ => after = w) w (activeGeneration id) := by
  refine Leaves.bind (Leaves.query (fun listed same => ?_) fun _ _ => rfl)
  cases same
  unfold Certificates.activeGeneration
  cases (w.store .activeGenerations)[id]? with
  | none => exact Leaves.pure ⟨rfl, rfl⟩
  | some generationId => exact Leaves.query (fun _ read => ⟨rfl, read⟩) fun _ _ => rfl

/-- Why a certificate is due: it does not wait, and a renewal is suggested by now or it expires before the cutoff. -/
structure Due (store : Certificates.Store) (now cutoff : OffsetDateTime) (certificate : ManagedCertificate) : Prop where
  ungated : Ungated store now certificate
  reason : (∃ (state : RenewalState) (suggested : OffsetDateTime),
      (store .renewals)[certificate.id]? = some (.ok state) ∧ state.ariSuggestedAt = some suggested ∧ suggested ≤ now) ∨
    ∀ generation expiry, Certificates.activeGeneration store certificate.id = .ok (some generation) →
      generation.notAfter = some expiry → expiry ≤ cutoff

theorem isDue_leaves (cutoff : OffsetDateTime) (certificate : ManagedCertificate) :
    Leaves (fun after due => after = w ∧
        (due = true ↔ certificate.enabled = true ∧ Due w.store ca.now cutoff certificate))
      (fun after _ => after = w) w (isDue ca cutoff certificate) := by
  unfold isDue
  split
  · rename_i enabled
    refine Leaves.bind (Leaves.query (fun found read => ?_) fun _ _ => rfl)
    have stored (state : RenewalState) : (w.store .renewals)[certificate.id]? = some (.ok state) ↔ found = some state :=
      (decoded_eq_ok read state).symm
    split
    · rename_i gated
      obtain ⟨next, waits, later⟩ := Option.any_eq_true _ _ |>.mp gated
      obtain ⟨state, isState, isNext⟩ := Option.bind_eq_some_iff.mp waits
      refine Leaves.pure ⟨rfl, iff_of_false nofun ?_⟩
      rintro ⟨-, ungated, -⟩
      exact absurd (ungated state next ((stored state).mpr isState) isNext) (Int.not_le.mpr (of_decide_eq_true later))
    · rename_i passed
      have ungated : Ungated w.store ca.now certificate := by
        intro state next isStored waits
        cases (stored state).mp isStored
        grind
      refine Leaves.bind (Leaves.query (fun again reread => ?_) fun _ _ => rfl)
      cases read.symm.trans reread
      split
      · rename_i suggested
        obtain ⟨time, isTime, passed⟩ := Option.any_eq_true _ _ |>.mp suggested
        obtain ⟨state, isState, isSuggested⟩ := Option.bind_eq_some_iff.mp isTime
        refine Leaves.pure ⟨rfl, iff_of_true rfl ⟨enabled, ungated, .inl ⟨state, time, ?_, isSuggested, ?_⟩⟩⟩
        · exact (stored state).mpr isState
        · exact of_decide_eq_true passed
      · rename_i unsuggested
        refine Leaves.bind ((activeGeneration_leaves certificate.id).mono ?_ fun _ _ => id)
        rintro _ found ⟨rfl, active⟩
        refine Leaves.pure ⟨rfl, fun expires => ⟨enabled, ungated, .inr fun generation expiry current isExpiry => ?_⟩, ?_⟩
        · cases active.symm.trans current
          simpa [isExpiry] using expires
        · rintro ⟨-, -, ⟨state, time, isStored, isSuggested, byNow⟩ | expires⟩
          · cases (stored state).mp isStored
            refine absurd (Option.any_eq_true _ _ |>.mpr ⟨time, ?_, decide_eq_true byNow⟩) unsuggested
            exact Option.bind_eq_some_iff.mpr ⟨state, rfl, isSuggested⟩
          · rw [Option.all_eq_true]
            intro expiry isExpiry
            obtain ⟨generation, rfl, isExpiry⟩ := Option.bind_eq_some_iff.mp isExpiry
            exact decide_eq_true (expires generation expiry active isExpiry)
  · rename_i disabled
    exact Leaves.pure ⟨rfl, iff_of_false nofun fun due => disabled due.1⟩

theorem dueAmong_leaves (cutoff : OffsetDateTime) (certificates : List ManagedCertificate) :
    Leaves (fun after due => after = w ∧ ∀ certificate, certificate ∈ due ↔ certificate ∈ certificates ∧
        certificate.enabled = true ∧ Due w.store ca.now cutoff certificate)
      (fun after _ => after = w) w (dueAmong ca cutoff certificates) := by
  induction certificates with
  | nil => exact Leaves.pure ⟨rfl, fun certificate => by simp⟩
  | cons certificate rest ih =>
    refine Leaves.bind ((isDue_leaves cutoff certificate).mono ?_ fun _ _ => id)
    rintro _ due ⟨rfl, first⟩
    refine Leaves.bind (ih.mono ?_ fun _ _ => id)
    rintro _ others ⟨rfl, later⟩
    refine Leaves.pure ⟨rfl, fun other => ?_⟩
    split <;> grind

/-- The scan changes nothing and finds the enabled certificates that are due. -/
theorem dueManagedCertificates_leaves (renewBeforeDays : UInt16) :
    Leaves (fun after due => after = w ∧ ∃ certificates, managedCertificates w.store = .ok certificates ∧
        ∀ certificate, certificate ∈ due ↔ certificate ∈ certificates ∧ certificate.enabled = true ∧
          Due w.store ca.now (ca.now + hours (24 * renewBeforeDays.toNat)) certificate)
      (fun after _ => after = w) w (dueManagedCertificates ca renewBeforeDays) :=
  Leaves.bind (Leaves.query (fun certificates read => (dueAmong_leaves _ certificates).mono
    (fun _ _ found => ⟨found.1, certificates, read, found.2⟩) fun _ _ => id) fun _ _ => rfl)

end Due

def backoffBase (failures : UInt32) : Int :=
  min (5 * Nat.pow 2 (min (failures.toNat - 1) 8)) (12 * 60) * 60

/-- What the random number generator promises: a fifth of the delay in either direction. -/
def Ca.JitterInRange (ca : Ca) (failures : UInt32) : Prop :=
  -(backoffBase failures) / 5 ≤ ca.jitter ∧ ca.jitter ≤ backoffBase failures / 5

def failuresAfter (previous : Option RenewalState) : UInt32 :=
  (previous.map fun state => saturatingSucc state.consecutiveFailures).getD 1

theorem failureBackoff_bounds {ca : Ca} {failures : UInt32} (range : ca.JitterInRange failures) :
    0 < failureBackoff ca failures ∧ failureBackoff ca failures ≤ hours 48 := by
  have positive : 1 ≤ Nat.pow 2 (min (failures.toNat - 1) 8) := Nat.one_le_two_pow
  have base : 300 ≤ backoffBase failures ∧ backoffBase failures ≤ 43200 := by
    unfold backoffBase
    omega
  obtain ⟨low, high⟩ := range
  change 0 < backoffBase failures + ca.jitter ∧ backoffBase failures + ca.jitter ≤ 48 * 3600
  omega

theorem failedState_bounds {ca : Ca} (id error : Text) {previous : Option RenewalState}
    (range : ca.JitterInRange (failuresAfter previous)) :
    ∃ next, (failedState ca id error previous).nextAttempt = some next ∧ ca.now < next ∧ next ≤ ca.now + hours 48 := by
  refine ⟨_, rfl, ?_⟩
  have day : 0 < hours 48 := by decide
  cases parsed : (ca.retryAfterFromError error ca.now).filter (ca.now < ·) with
  | none =>
    obtain ⟨low, high⟩ := failureBackoff_bounds range
    rw [Option.map_none, Option.getD_none]
    exact ⟨Int.lt_add_of_pos_right _ low, Int.add_le_add_left high _⟩
  | some deadline =>
    have later : ca.now < deadline := by simpa using (Option.filter_eq_some_iff.mp parsed).2
    grind

theorem recordFailure_bounds {ca : Ca} (id error : Text) {w : World}
    (range : ∀ previous, renewalState w.store id = .ok previous → ca.JitterInRange (failuresAfter previous)) :
    Leaves (fun after _ => ∃ (state : RenewalState) (next : OffsetDateTime),
        (after.store .renewals)[id]? = some (.ok state) ∧ state.nextAttempt = some next ∧ ca.now < next ∧
          next ≤ ca.now + hours 48)
      (fun _ _ => True) w (recordFailure ca id error) := by
  refine Leaves.bind (Leaves.query (fun previous read => ?_) fun _ _ => trivial)
  refine Leaves.bind (Leaves.ofExcept (fun batch made => ?_) fun _ _ => trivial)
  obtain ⟨⟨⟩, -, made⟩ := bind_eq_ok.mp made
  cases made
  obtain ⟨next, waits, bounds⟩ := failedState_bounds id error (range previous read)
  refine Leaves.commit ⟨_, next, ?_, waits, bounds⟩
  dsimp only
  rw [Families.write_put, Families.getElem?_insert]
  exact if_pos rfl

/-- After every history no certificate that waits for the CA is due, and a failure that is recorded at any time is
followed by an attempt within two days. -/
theorem retry_after_honoured {start : World} (agreeing : Agreeing start.store) (history : List RenewalEvent) :
    ∃ last, Runs.run renewalStep start history = some last ∧
      (∀ ca renewBeforeDays, ∃ result, Task.alone (dueManagedCertificates ca renewBeforeDays) last = some (result, last) ∧
        ∀ due, result = .ok due → ∀ certificate ∈ due, ∀ (state : RenewalState) (deadline : OffsetDateTime),
          (last.store .renewals)[certificate.id]? = some (.ok state) → state.caRetryAfter = some deadline →
          deadline ≤ ca.now) ∧
      ∀ (ca : Ca) (id error : Text) (w after : World),
        (∀ previous, renewalState w.store id = .ok previous → ca.JitterInRange (failuresAfter previous)) →
        Task.alone (recordFailure ca id error) w = some (.ok (), after) →
        ∃ (state : RenewalState) (next : OffsetDateTime), (after.store .renewals)[id]? = some (.ok state) ∧
          state.nextAttempt = some next ∧ ca.now < next ∧ next ≤ ca.now + hours 48 := by
  obtain ⟨last, whole, agreeing⟩ := @Runs.exists_run _ _ renewalStep (fun w => Agreeing w.store) history
    (fun event _ w agreeing => renewalStep_agreeing agreeing event) _ agreeing
  refine ⟨last, whole, ?_, ?_⟩
  · intro ca renewBeforeDays
    obtain ⟨result, after, done, holds⟩ := leaves_iff.mp (@dueManagedCertificates_leaves ca last renewBeforeDays)
    cases result with
    | error cause =>
      cases holds
      exact ⟨_, done, nofun⟩
    | ok due =>
      obtain ⟨rfl, certificates, -, due⟩ := holds
      refine ⟨_, done, ?_⟩
      rintro _ ⟨⟩ certificate member state deadline stored gated
      exact ((due certificate).mp member).2.2.ungated state deadline stored (agreeing certificate.id state stored deadline gated)
  · intro ca id error w after range done
    obtain ⟨result, next, again, holds⟩ := leaves_iff.mp (recordFailure_bounds id error range)
    cases done.symm.trans again
    exact holds

section Example

def waiting : ManagedCertificate where
  id := "waiting.example".toList
  domains := ["waiting.example".toList]

def waitingWorld : World where
  store := Families.write Certificates.Store.empty (saveBatch waiting none [] [waiting.id] 0)

def busyCa : Ca where
  tls := { parse := fun _ => .error [], now := 0 }
  resolving := oneAddress (.v4 .localhost)
  control := { selfIps := ["127.0.0.1".toList], publicResolvers := ["1.1.1.1".toList] }
  account := fun _ => .ok ()
  issue := fun _ _ => .error "Retry-After: 3600".toList
  renewalInformation := fun _ => .ok none
  now := 0
  retryAfterFromError := fun _ now => some (now + 3600)
  jitter := 0

def turnedAway : List RenewalEvent :=
  [.renew busyCa { certificateId := waiting.id, domains := waiting.domains, providerId := waiting.providerId },
    .clear fun _ => 60]

theorem retry_after_honoured_busy :
    Agreeing waitingWorld.store ∧ ∃ last, Runs.run renewalStep waitingWorld turnedAway = some last ∧
      (last.store .renewals)[waiting.id]?.any (fun row => row.toOption.any fun state => state.caRetryAfter == some 3600) ∧
      ∃ result, Task.alone (dueManagedCertificates busyCa 30) last = some (result, last) ∧
        ∀ due, result = .ok due → ∀ certificate ∈ due, ∀ (state : RenewalState) (deadline : OffsetDateTime),
          (last.store .renewals)[certificate.id]? = some (.ok state) → state.caRetryAfter = some deadline →
          deadline ≤ busyCa.now := by
  have agreeing : Agreeing waitingWorld.store := by
    intro id state found
    rcases Families.mem_or_of_getElem?_write found with put | ⟨absent, -⟩
    · simp [saveBatch] at put
    · cases absent
  have gated : ((Runs.run renewalStep waitingWorld turnedAway).map fun last =>
      (last.store .renewals)[waiting.id]?.any fun row => row.toOption.any fun state => state.caRetryAfter == some 3600) =
        some true := by
    decide +kernel
  obtain ⟨last, whole, due, -⟩ := retry_after_honoured agreeing turnedAway
  rw [whole] at gated
  exact ⟨agreeing, last, whole, Option.some.inj gated, due busyCa 30⟩

end Example

end TlsProxy.Acme
