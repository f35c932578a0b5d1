import TlsProxy.Acme.RetryGates
import TlsProxy.Lib.Histories

/-! A refresh of the renewal information, a clear of the retry gates and a recorded
failure each read a renewal state and later write it as a whole. -/
namespace TlsProxy.Acme

open Config Checks Certificates Programs

inductive RenewalCall
  | refresh (ca : Ca)
  | clear (clock : Text → OffsetDateTime)
  | failure (ca : Ca) (certificateId error : Text)

def RenewalCall.program : RenewalCall → Program Action World (Except Text Unit)
  | .refresh ca => finish (refreshAri ca)
  | .clear clock => finish (clearRenewalRetryGates clock)
  | .failure ca certificateId error => finish (recordFailure ca certificateId error)

abbrev RenewalAction := RenewalCall × Action

def renewalSystem : System RenewalCall Empty RenewalAction World (Except Text Unit) where
  program call := call.program.embed (Prod.mk call) id
  effect label := effect label.2
  outside := nofun

def withoutAri (state : RenewalState) : RenewalState :=
  { state with ariSuggestedAt := none, ariExplanationUrl := none, ariCheckedAt := none, ariNextCheck := none }

def withoutGate (state : RenewalState) : RenewalState :=
  { state with nextAttempt := none, caRetryAfter := none }

/-- The new state is that of the row, or of a certificate without one, but for what the function leaves out. -/
def SameBut (without : RenewalState → RenewalState) (id : Text) (before : Option (Json RenewalState))
    (after : RenewalState) : Prop :=
  ∃ found, decoded before = .ok found ∧ without after = without (found.getD { certificateId := id })

/-- The states that the batch puts differ as said from those that they replace. -/
def Revises (without : RenewalState → RenewalState) (store : Certificates.Store) (batch : List Certificates.Write) :
    Prop :=
  ∀ item ∈ batch, ∃ (id : Text) (state : RenewalState), item = .put .renewals id (.ok state) ∧
    SameBut without id (store .renewals)[id]? state

/-- A refresh changes only renewal information, and a clear only retry gates, of the states that they find. -/
def KeepsUpdates (entry : Entry RenewalAction World) : Prop :=
  match entry.label with
  | (.refresh _, .write batch) => Revises withoutAri entry.found.store batch
  | (.clear _, .write batch) => Revises withoutGate entry.found.store batch
  | _ => True

/-- How many actions of its own lie between the read of a state and its write. -/
def RenewalCall.between : RenewalCall → Option Nat
  | .refresh _ => some 2
  | .clear _ => some 0
  | .failure .. => none

def undisturbed (past : List (Entry RenewalAction World)) (task between : Nat) (batch : List Certificates.Write) : Bool :=
  batch.all fun
    | .put .renewals id _ => (since task between past).all fun entry => !entry.label.2.writes .renewals id
    | _ => true

/-- A refresh or a clear writes only what is still as it was when the call has read it. -/
def Fresh (_ : World) (past : List (Entry RenewalAction World)) (task : Nat) (label : RenewalAction) : Prop :=
  match label with
  | (call, .write batch) => ∀ between ∈ call.between, undisturbed past task between batch = true
  | _ => True

instance (w : World) (past : List (Entry RenewalAction World)) (task : Nat) :
    (label : RenewalAction) → Decidable (Fresh w past task label)
  | (call, .write batch) =>
    inferInstanceAs (Decidable (∀ between ∈ call.between, undisturbed past task between batch = true))
  | (_, .read) | (_, .lock) | (_, .unlock) | (_, .load _) | (_, .swap _) | (_, .recallRejection ..)
  | (_, .putRejection ..) | (_, .script ..) | (_, .verified ..) => .isTrue trivial

def RenewalsFiled (store : Certificates.Store) : Prop :=
  ∀ (id : Text) (state : RenewalState), (store .renewals)[id]? = some (.ok state) → state.certificateId = id

def Files (batch : List Certificates.Write) : Prop :=
  ∀ (id : Text) (state : RenewalState), .put .renewals id (.ok state) ∈ batch → state.certificateId = id

def RevisesItsRead (steps : List (RenewalAction × World)) (label : RenewalAction) : Prop :=
  match label with
  | (.refresh _, .write batch) => Files batch ∧ ∃ read found, steps[2]? = some (read, found) ∧
      Revises withoutAri found.store batch
  | (.clear _, .write batch) => Files batch ∧ ∃ read found, steps[0]? = some (read, found) ∧
      Revises withoutGate found.store batch
  | (.failure .., .write batch) => Files batch
  | _ => True

def writingOf (call : RenewalCall) : Monitor Action World (List (RenewalAction × World)) :=
  (tracking RevisesItsRead fun _ w => RenewalsFiled w.store).comap (Prod.mk call)

section Calls

variable {steps : List (RenewalAction × World)}

theorem Yields.reads {α : Type} {call : RenewalCall} {answer : Certificates.Store → Except Text α}
    {ok : List (RenewalAction × World) → α → Prop}
    (next : ∀ w a, RenewalsFiled w.store → answer w.store = .ok a → ok (((call, .read), w) :: steps) a) :
    Yields (writingOf call) ok steps (query answer) :=
  Yields.ask (by cases call <;> trivial) next

theorem saveRenewalState_yields {call : RenewalCall} {state : RenewalState}
    (justified : ∀ batch, batch = [.put .renewals state.certificateId (.ok state)] →
      RevisesItsRead steps (call, .write batch)) :
    Yields (writingOf call) (fun _ _ => True) steps (saveRenewalState state) := by
  refine Yields.bind (.ofExcept fun batch made => Yields.ask (justified batch ?_) fun _ _ _ _ => trivial)
  obtain ⟨⟨⟩, -, made⟩ := bind_eq_ok.mp made
  cases made
  rfl

theorem revisesItsRead_refresh {ca : Ca} {id : Text} {found : Option RenewalState} {state : RenewalState} {w : World}
    {first second third : RenewalAction} {middle last : World} (filed : RenewalsFiled w.store)
    (read : renewalState w.store id = .ok found)
    (same : withoutAri state = withoutAri (found.getD { certificateId := id })) :
    ∀ batch, batch = [.put .renewals state.certificateId (.ok state)] →
      RevisesItsRead ((third, last) :: (second, middle) :: (first, w) :: steps) (.refresh ca, .write batch) := by
  rintro _ rfl
  have own : state.certificateId = id := by
    have named := congrArg RenewalState.certificateId same
    change state.certificateId = (found.getD { certificateId := id }).certificateId at named
    rw [named]
    cases found with
    | none => rfl
    | some before => exact filed id before ((decoded_eq_ok read before).mp rfl)
  refine ⟨?_, first, w, rfl, ?_⟩
  · intro other written put
    cases List.mem_singleton.mp put
    rfl
  · intro item member
    cases List.mem_singleton.mp member
    refine ⟨state.certificateId, state, rfl, found, ?_, ?_⟩
    · rw [own]
      exact read
    · rw [own]
      exact same

theorem refreshOne_yields {ca : Ca} (managed : ManagedCertificate) :
    Yields (writingOf (.refresh ca)) (fun _ _ => True) steps (refreshOne ca managed) := by
  unfold refreshOne
  split
  · refine Yields.bind (.reads fun w found filed read => ?_)
    dsimp only
    split
    · refine Yields.bind (Yields.bind (.reads fun middle active _ _ => ?_))
      cases active with
      | none => exact .pure (.pure trivial)
      | some generationId =>
        refine .reads fun last generation _ _ => ?_
        cases generation with
        | none => exact .pure trivial
        | some generation =>
          dsimp only
          split
          · exact saveRenewalState_yields (revisesItsRead_refresh filed read rfl)
          · exact saveRenewalState_yields (revisesItsRead_refresh filed read rfl)
          · exact .pure trivial
    · exact .pure trivial
  · exact .pure trivial

theorem clearRenewalRetryGates_yields (clock : Text → OffsetDateTime) :
    Yields (writingOf (.clear clock)) (fun _ _ => True) steps (clearRenewalRetryGates clock) := by
  refine Yields.bind (.reads fun w updates filed read => Yields.bind (Yields.ask ?_ fun _ _ _ _ => .pure trivial))
  obtain ⟨states, mapped, read⟩ := bind_eq_ok.mp read
  cases read
  have cleared : ∀ item ∈ (states.filterMap fun row => (clearedGate (clock row.1) row.2).map (Prod.mk row.1)).map
      fun row => (.put .renewals row.1 (.ok row.2) : Certificates.Write),
      ∃ (id : Text) (before : RenewalState), (w.store .renewals)[id]? = some (.ok before) ∧
        item = .put .renewals id (.ok (withoutGate before)) := by
    intro item member
    obtain ⟨⟨id, state⟩, listed, rfl⟩ := List.mem_map.mp member
    obtain ⟨⟨other, before⟩, inside, changed⟩ := List.mem_filterMap.mp listed
    obtain ⟨after, clears, same⟩ := Option.map_eq_some_iff.mp changed
    cases same
    obtain ⟨⟨key, row⟩, stored, decodes⟩ := exists_of_mem_mapM mapped inside
    cases row with
    | error cause => cases decodes
    | ok value =>
      cases decodes
      refine ⟨_, _, Std.ExtTreeMap.mem_toList_iff_getElem?_eq_some.mp stored, ?_⟩
      unfold clearedGate at clears
      split at clears
      · cases clears
        rfl
      · cases clears
  refine ⟨?_, _, w, rfl, ?_⟩
  · intro id state put
    obtain ⟨other, before, stored, same⟩ := cleared _ put
    cases same
    exact filed id before stored
  · intro item member
    obtain ⟨id, before, stored, rfl⟩ := cleared item member
    refine ⟨id, withoutGate before, rfl, some before, ?_, rfl⟩
    rw [stored]
    rfl

theorem recordFailure_yields (ca : Ca) (id error : Text) {other : Ca} {name text : Text} :
    Yields (writingOf (.failure other name text)) (fun _ _ => True) steps (recordFailure ca id error) := by
  refine Yields.bind (.reads fun w previous _ _ => saveRenewalState_yields ?_)
  rintro _ rfl
  intro key state put
  cases List.mem_singleton.mp put
  rfl

theorem program_yields (call : RenewalCall) :
    Obeys (tracking RevisesItsRead fun _ w => RenewalsFiled w.store) (fun _ _ => True) [] (renewalSystem.program call) := by
  have finished : ∀ {α : Type} {task : Task α}, Yields (writingOf call) (fun _ _ => True) [] task →
      Obeys (writingOf call) (fun _ _ => True) [] (finish task) := by
    intro α task yields
    have bound : Yields (writingOf call) (fun _ _ => True) [] (do let _ ← task) :=
      Yields.bind (yields.mono fun _ _ _ => .pure trivial)
    exact Obeys.mono (fun _ _ _ => trivial) bound
  refine Obeys.embed ?_
  cases call with
  | refresh ca =>
    refine finished (Yields.bind (.reads fun w certificates _ _ => ?_))
    exact (Yields.forM (fun managed _ _ _ => refreshOne_yields managed) trivial).mono fun _ _ _ => trivial
  | clear clock => exact finished (clearRenewalRetryGates_yields clock)
  | failure ca id error => exact finished (recordFailure_yields ca id error)

end Calls

section Runs

variable {first shared : World} {past : List (Entry RenewalAction World)}

/-- What revises the states that were read revises those that are there, if nobody has written them. -/
theorem Revises.now {without : RenewalState → RenewalState} {batch : List Certificates.Write} {task k : Nat}
    {read : RenewalAction} {found : World} (revises : Revises without found.store batch)
    (leads : Leads renewalSystem.effect first past shared) (done : (trace task past)[k]? = some (read, found))
    (fresh : undisturbed past task k batch = true) : Revises without shared.store batch := by
  intro item member
  obtain ⟨id, state, rfl, same⟩ := revises item member
  have untouched := List.all_eq_true.mp (List.all_eq_true.mp fresh _ member)
  have kept : (shared.store .renewals)[id]? = (found.store .renewals)[id]? := by
    refine @Leads.kept _ _ _ _ _ _ _ leads _ _ _ _ done (fun w : World => (w.store .renewals)[id]?) ?_
    intro entry inside next taken
    exact effect_of_quiet (by simpa using untouched entry inside) taken
  refine ⟨id, state, rfl, ?_⟩
  rw [kept]
  exact same

theorem RenewalsFiled.step {label : RenewalAction} {steps : List (RenewalAction × World)} {next : World}
    (filed : RenewalsFiled shared.store) (may : RevisesItsRead steps label)
    (taken : renewalSystem.effect label shared = some next) : RenewalsFiled next.store := by
  obtain ⟨call, action⟩ := label
  rcases effect_store taken with ⟨batch, rfl, same⟩ | same
  · have files : Files batch := by
      cases call with
      | refresh _ => exact may.1
      | clear _ => exact may.1
      | failure _ _ _ => exact may
    rw [same]
    intro id state found
    rcases Families.mem_or_of_getElem?_write found with put | ⟨there, -⟩
    · exact files id state put
    · exact filed id state there
  · rw [same]
    exact filed

theorem renewalWrites_track (filed : RenewalsFiled first.store) :
    Tracks renewalSystem first RevisesItsRead (fun _ w => RenewalsFiled w.store) (fun _ _ _ => True) Fresh
      fun w past => RenewalsFiled w.store ∧ ∀ entry ∈ past, KeepsUpdates entry where
  programs := program_yields
  start := ⟨filed, fun _ none => (List.not_mem_nil none).elim⟩
  sound := fun _ _ _ inv => inv.1
  advance := by
    rintro shared past task ⟨call, action⟩ next leads ⟨filed, kept⟩ may fresh taken
    refine ⟨filed.step may taken, fun entry member => ?_⟩
    rcases List.mem_cons.mp member with rfl | old
    · cases action with
      | write batch =>
        cases call with
        | refresh ca =>
          obtain ⟨-, read, found, done, revises⟩ := may
          exact revises.now leads done (fresh 2 rfl)
        | clear clock =>
          obtain ⟨-, read, found, done, revises⟩ := may
          exact revises.now leads done (fresh 0 rfl)
        | failure _ _ _ => trivial
      | _ => cases call <;> trivial
    · exact kept entry old

end Runs

/-- In every run whose refreshes and clears write only states that nobody has written since they were read, a refresh
leaves everything but the renewal information and a clear everything but the gate as they find it. -/
theorem renewal_updates_kept {first : World} (filed : RenewalsFiled first.store) {events : List (Event RenewalCall Empty)}
    {last : State RenewalCall RenewalAction World (Except Text Unit)}
    (meets : Runs.Meets (step renewalSystem) (Observes Fresh) { shared := first } events)
    (whole : Runs.run (step renewalSystem) { shared := first } events = some last) :
    ∀ entry ∈ last.history, KeepsUpdates entry := by
  intro entry member
  exact ((renewalWrites_track filed).run meets whole).holds.2 entry (List.mem_reverse.mpr member)

section Example

def gatedWorld : World where
  store := Families.write waitingWorld.store
    [.put .activeGenerations waiting.id [], .put .generations (generationKey waiting.id []) (.ok {}),
      .put .renewals waiting.id (.ok { certificateId := waiting.id, nextAttempt := some 100, consecutiveFailures := 1 })]

theorem gatedWorld_filed : RenewalsFiled gatedWorld.store := by
  intro id state found
  rcases Families.mem_or_of_getElem?_write found with put | ⟨earlier, -⟩
  · grind
  · rcases Families.mem_or_of_getElem?_write earlier with put | ⟨absent, -⟩
    · simp [saveBatch] at put
    · cases absent

/-- The gate is cleared before the refresh reads the state, and a failure is recorded after its write. -/
def apart : List (Event RenewalCall Empty) :=
  [.spawn 0 (.refresh busyCa), .advance 0, .spawn 1 (.clear fun _ => 60), .advance 1, .advance 1, .advance 0,
    .advance 0, .advance 0, .advance 0, .spawn 2 (.failure busyCa waiting.id []), .advance 2, .advance 2]

theorem renewal_updates_kept_apart :
    ∃ last, Runs.run (step renewalSystem) { shared := gatedWorld } apart = some last ∧
      (last.history.filter fun entry => entry.label.2.writes .renewals waiting.id).length = 3 ∧
      ∀ entry ∈ last.history, KeepsUpdates entry := by
  have meets : Runs.Meets (step renewalSystem) (Observes Fresh) { shared := gatedWorld } apart := by
    decide +kernel
  have writes : (Runs.run (step renewalSystem) { shared := gatedWorld } apart).map (fun last =>
      (last.history.filter fun entry => entry.label.2.writes .renewals waiting.id).length) = some 3 := by
    decide +kernel
  obtain ⟨last, whole, three⟩ := Option.map_eq_some_iff.mp writes
  exact ⟨last, whole, three, renewal_updates_kept gatedWorld_filed meets whole⟩

def across : List (Event RenewalCall Empty) :=
  [.spawn 0 (.refresh busyCa), .advance 0, .advance 0, .spawn 1 (.clear fun _ => 60), .advance 1, .advance 1,
    .advance 0, .advance 0, .advance 0]

def setsGate (entry : Entry RenewalAction World) (id : Text) : Bool :=
  match entry.label with
  | (.refresh _, .write [.put .renewals other (.ok state)]) => other == id &&
      (renewalState entry.found.store id).toOption.any fun found =>
        found.bind RenewalState.nextAttempt != state.nextAttempt
  | _ => false

theorem KeepsUpdates.setsGate_eq_false {entry : Entry RenewalAction World} (keeps : KeepsUpdates entry) (id : Text) :
    setsGate entry id = false := by
  unfold setsGate
  split
  · rename_i other state written
    rw [KeepsUpdates, written] at keeps
    obtain ⟨own, after, same, found, read, revised⟩ := keeps _ List.mem_cons_self
    cases same
    by_cases named : other = id
    · subst named
      have gates := congrArg RenewalState.nextAttempt revised
      rw [renewalState, read]
      cases found <;> simpa [withoutAri, Except.toOption] using gates.symm
    · simp [named]
  · rfl

theorem refresh_restores_cleared_gate :
    ∃ last, Runs.run (step renewalSystem) { shared := gatedWorld } across = some last ∧
      (renewalState last.shared.store waiting.id).toOption.any (·.any fun state => state.nextAttempt == some 100) ∧
      ¬ ∀ entry ∈ last.history, KeepsUpdates entry := by
  have restored : (Runs.run (step renewalSystem) { shared := gatedWorld } across).map (fun last =>
      ((renewalState last.shared.store waiting.id).toOption.any (·.any fun state => state.nextAttempt == some 100),
        last.history.any (setsGate · waiting.id))) = some (true, true) := by
    decide +kernel
  obtain ⟨last, whole, seen⟩ := Option.map_eq_some_iff.mp restored
  grind [KeepsUpdates.setsGate_eq_false]

end Example

end TlsProxy.Acme
