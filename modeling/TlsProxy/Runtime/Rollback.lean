import TlsProxy.Lib.Runs
import TlsProxy.Store.Database

/-! `runtime::run` with the slot of `runtime_live.rs`, interleaved with the
configuration handlers of the control plane: a save, what its handler does
next, the hot apply and the delayed reload notification are separate steps. -/
namespace TlsProxy.Rollback

open Config Store

inductive Origin
  | startup
  | reloaded
  | rollback

inductive Phase
  | applying (origin : Origin) (stored : StoredConfig)
  | running (stored : StoredConfig)
  | exited (failed : Bool)

def Phase.stored : Phase → Option StoredConfig
  | .applying _ stored | .running stored => some stored
  | .exited _ => none

/-- A `put_config` in flight; after its save it holds what it has saved. -/
structure Put where
  generation : Nat
  previous : RuntimeConfig
  config : RuntimeConfig
  updatedBy : Text
  saved : Option StoredConfig := none
  /-- What it has saved is live and is being applied. -/
  hot : Bool := false

structure State where
  db : Database
  phase : Phase
  lastGood : Option StoredConfig := none
  /-- Counts the control planes started; each has a `Notify` of its own. -/
  generation : Nat := 0
  /-- Handlers that have saved and are yet to ask for a reload, by their control plane. -/
  owing : List Nat := []
  /-- Reload notifications asleep, by the control plane that sent them. -/
  sleeping : List Nat := []
  notified : Bool := false
  puts : List Put := []
  /-- Topologies some revision has bound. -/
  bound : List Topology := []
  /-- Configurations a completed revision or a hot apply has shown to work. -/
  proven : List StoredConfig := []
  /-- The values the current row has had, newest first. -/
  saves : List StoredConfig

def initial (stored : StoredConfig) (counter : Nat) : State where
  db := { current := .value stored, counter := .value counter }
  phase := .applying .startup stored
  saves := [stored]

def storeLastGood (slot : Option StoredConfig) (stored : StoredConfig) : Option StoredConfig :=
  match slot with
  | some existing => if stored.revision ≤ existing.revision then some existing else some stored
  | none => some stored

def prove (s : State) (stored : StoredConfig) : State :=
  { s with lastGood := storeLastGood s.lastGood stored, proven := stored :: s.proven }

/-- The slot is taken before the save, which can fail. -/
def rollBack (environment : Environment) (s : State) : State :=
  match s.lastGood with
  | none => { s with phase := .exited true }
  | some previous =>
    match saveConfig environment s.db previous.config "runtime-auto-rollback".toList with
    | .error _ => { s with lastGood := none, phase := .exited true }
    | .ok (stored, db) =>
      { s with db, lastGood := none, phase := .applying .rollback stored, saves := stored :: s.saves }

def applyRuntimeConfig (s : State) (i : Nat) (put : Put) (saved : StoredConfig) : State :=
  if listenerSettingsOnly put.previous saved.config then
    { s with puts := s.puts.set i { put with hot := true } }
  else { s with puts := s.puts.eraseIdx i, sleeping := put.generation :: s.sleeping }

/-- What saves a configuration comes with the file system that its validator meets. -/
inductive Event
  | applied
  | fails (environment : Environment)
  | signalFails (environment : Environment)
  | interrupted
  | wake (generation : Nat)
  | reload
  | putLoad (revision : Nat) (config : RuntimeConfig) (updatedBy : Text)
  | putSave (environment : Environment) (i : Nat)
  | putApply (i : Nat)
  | hotApplied (i : Nat)
  | hotFails (i : Nat)
  | putDropped (i : Nat)
  | save (environment : Environment) (config : RuntimeConfig) (updatedBy : Text)
  | import_ (i : Import)
  | asks (generation : Nat)
  | cancelled (generation : Nat)

/-- One step of the runtime loop, of a request that saves, or of a failed application's rollback. -/
def step (s : State) : Event → Option State
  | .applied =>
    match s.phase with
    | .applying _ stored =>
      some { s with phase := .running stored, generation := s.generation + 1, notified := false,
                    bound := stored.config.topology :: s.bound }
    | _ => none
  | .fails environment =>
    match s.phase with
    | .applying _ _ => some (rollBack environment s)
    | _ => none
  | .signalFails environment =>
    match s.phase with
    | .running _ => some (rollBack environment s)
    | _ => none
  | .interrupted =>
    match s.phase with
    | .running _ => some { s with phase := .exited false }
    | _ => none
  | .wake generation =>
    if generation ∈ s.sleeping then
      some { s with sleeping := s.sleeping.erase generation,
                    notified := s.notified || generation == s.generation }
    else none
  | .reload =>
    match s.phase, s.notified with
    | .running stored, true =>
      match s.db.current with
      | .value next => some { prove s stored with phase := .applying .reloaded next }
      | _ => some { prove s stored with phase := .exited true }
    | _, _ => none
  | .putLoad revision config updatedBy =>
    match s.phase, s.db.current with
    -- `config_write` is held until the handler ends.
    | .running _, .value current =>
      if (s.puts.all fun put => put.generation != s.generation) ∧ current.revision = revision ∧
          config.defaultListener.bind = current.config.defaultListener.bind then
        some { s with puts := s.puts ++ [{ generation := s.generation, previous := current.config,
                                           config, updatedBy }] }
      else none
    | _, _ => none
  | .putSave environment i =>
    match s.puts[i]? with
    | some { generation, previous, config, updatedBy, saved := none, .. } =>
      match saveConfig environment s.db config updatedBy with
      | .ok (saved, db) =>
        some { s with db, saves := saved :: s.saves,
                      puts := s.puts.set i { generation, previous, config, updatedBy, saved := some saved } }
      | .error _ => some { s with puts := s.puts.eraseIdx i }
    | _ => none
  | .putApply i =>
    match s.puts[i]? with
    | some { generation, previous, config, updatedBy, saved := some saved, hot := false } =>
      some (applyRuntimeConfig s i { generation, previous, config, updatedBy, saved := some saved } saved)
    | _ => none
  | .hotApplied i =>
    match s.puts[i]? with
    | some { saved := some saved, hot := true, .. } => some { prove s saved with puts := s.puts.eraseIdx i }
    | _ => none
  | .hotFails i =>
    match s.puts[i]? with
    | some { saved := some _, hot := true, generation, .. } =>
      some { s with puts := s.puts.eraseIdx i, sleeping := generation :: s.sleeping }
    | _ => none
  -- The handler is cancelled at an await; a save already handed to the blocking pool is a `save`.
  | .putDropped i => some { s with puts := s.puts.eraseIdx i }
  -- `rollback_config`, `listener_operation` and the save of a cancelled handler.
  | .save environment config updatedBy =>
    match saveConfig environment s.db config updatedBy with
    | .ok (saved, db) => some { s with db, saves := saved :: s.saves, owing := s.generation :: s.owing }
    | .error _ => some s
  | .asks generation =>
    if generation ∈ s.owing then
      some { s with owing := s.owing.erase generation, sleeping := generation :: s.sleeping }
    else none
  | .cancelled generation => some { s with owing := s.owing.erase generation }
  | .import_ i =>
    some { s with db := i.apply s.db, owing := s.generation :: s.owing,
                  saves := match i.current with
                    | some (.value stored) => stored :: s.saves
                    | _ => s.saves }

/-- An import leaves the counter readable and not lower, and the configuration it installs, if any,
carries a revision above every earlier one. -/
def Advances (i : Import) (db : Database) : Prop :=
  ∃ before after, db.counter = .value before ∧ (i.apply db).counter = .value after ∧ before ≤ after ∧
    ∀ stored, i.current = some (.value stored) → before < stored.revision ∧ stored.revision ≤ after

/-- Settings are hot-applied only by the running control plane and onto its own topology, imports
advance the revision, and at a rollback the counter is not exhausted and the slot still passes the validator. -/
def Guarded (s : State) : Event → Prop
  | .hotApplied i => ∀ put saved, s.puts[i]? = some put → put.saved = some saved →
      put.generation = s.generation ∧
        ∃ running, s.phase = .running running ∧ saved.config.topology = running.config.topology
  | .import_ i => Advances i s.db
  | .fails environment | .signalFails environment => (nextRevision s.db.counter).isSome ∧
      ∀ previous, s.lastGood = some previous → previous.config.validate environment = .ok ()
  | _ => True

structure Inv (s : State) : Prop where
  counter : ∃ n, s.db.counter = .value n ∧ ∀ c ∈ s.saves, c.revision ≤ n
  order : s.saves.Pairwise fun newer older => older.revision < newer.revision
  current : ∀ c, s.db.current = .value c → c ∈ s.saves
  inHand : ∀ c, s.phase.stored = some c → c ∈ s.saves
  provenSaved : ∀ c ∈ s.proven, c ∈ s.saves
  slot : ∀ c, s.lastGood = some c → c ∈ s.proven ∧ c.config.topology ∈ s.bound ∧
    ∀ other ∈ s.proven, other.revision ≤ c.revision
  empty : s.lastGood = none → ∀ c, s.phase.stored = some c → ∀ other ∈ s.proven, other.revision < c.revision
  running : ∀ c, s.phase = .running c → c.config.topology ∈ s.bound
  reloaded : ∀ c, s.phase = .applying .reloaded c → s.lastGood ≠ none
  generations : ∀ put ∈ s.puts, put.generation ≤ s.generation
  hot : ∀ put ∈ s.puts, ∀ saved, put.saved = some saved → saved ∈ s.saves ∧
    (put.generation = s.generation → ∀ c, s.phase = .running c → c.revision < saved.revision)

theorem inv_initial {stored : StoredConfig} {counter : Nat} (bounded : stored.revision ≤ counter) :
    Inv (initial stored counter) where
  counter := ⟨counter, rfl, by simpa [initial] using bounded⟩
  order := List.pairwise_singleton _ _
  current := by
    intro c same
    cases same
    exact List.mem_singleton_self _
  inHand := by
    intro c same
    cases same
    exact List.mem_singleton_self _
  provenSaved := by simp [initial]
  slot := by simp [initial]
  empty := by simp [initial]
  running := by simp [initial]
  reloaded := by simp [initial]
  generations := by simp [initial]
  hot := by simp [initial]

/-- A configuration with the highest revision joins the saves. -/
theorem Inv.stores {s : State} (h : Inv s) {stored : StoredConfig} {db : Database} {n : Nat}
    (counter : db.counter = .value n) (bounded : stored.revision ≤ n) (above : ∀ c ∈ s.saves, c.revision < stored.revision)
    (current : ∀ c, db.current = .value c → c ∈ stored :: s.saves) : Inv { s with db, saves := stored :: s.saves } := by
  refine ⟨⟨n, counter, fun c member => ?_⟩, List.pairwise_cons.mpr ⟨above, h.order⟩, current,
    fun c same => List.mem_cons_of_mem _ (h.inHand c same),
    fun c member => List.mem_cons_of_mem _ (h.provenSaved c member), h.slot, h.empty, h.running, h.reloaded,
    h.generations, ?_⟩
  · rcases List.mem_cons.mp member with rfl | old
    · exact bounded
    · exact (Nat.le_of_lt (above c old)).trans bounded
  · intro put member saved same
    exact (h.hot put member saved same).imp_left (List.mem_cons_of_mem _)

theorem Inv.saved {s : State} (h : Inv s) {environment : Environment} {config : RuntimeConfig} {updatedBy : Text}
    {saved : StoredConfig} {db : Database} (done : saveConfig environment s.db config updatedBy = .ok (saved, db)) :
    (∀ c ∈ s.saves, c.revision < saved.revision) ∧ Inv { s with db, saves := saved :: s.saves } := by
  obtain ⟨-, next, -, rfl⟩ := saveConfig_eq_ok done
  obtain ⟨n, counter, bounded⟩ := h.counter
  rw [counter] at next
  have above : ∀ c ∈ s.saves, c.revision < saved.revision := by
    intro c member
    rw [nextRevision_value next]
    exact Nat.lt_succ_of_le (bounded c member)
  refine ⟨above, h.stores rfl (Nat.le_refl _) above fun c same => ?_⟩
  cases same
  exact List.mem_cons_self

theorem Inv.setPuts {s : State} (h : Inv s) {puts : List Put}
    (each : ∀ put ∈ puts, put.generation ≤ s.generation ∧ ∀ saved, put.saved = some saved → saved ∈ s.saves ∧
      (put.generation = s.generation → ∀ c, s.phase = .running c → c.revision < saved.revision)) :
    Inv { s with puts } :=
  ⟨h.counter, h.order, h.current, h.inHand, h.provenSaved, h.slot, h.empty, h.running, h.reloaded,
    fun put member => (each put member).1, fun put member => (each put member).2⟩

theorem Inv.withPuts {s : State} (h : Inv s) {puts : List Put} (fewer : ∀ put ∈ puts, put ∈ s.puts) :
    Inv { s with puts } :=
  h.setPuts fun put member => ⟨h.generations put (fewer put member), h.hot put (fewer put member)⟩

theorem Inv.withNotify {s : State} (h : Inv s) (owing sleeping : List Nat) (notified : Bool) :
    Inv { s with owing, sleeping, notified } :=
  ⟨h.counter, h.order, h.current, h.inHand, h.provenSaved, h.slot, h.empty, h.running, h.reloaded,
    h.generations, h.hot⟩

theorem storeLastGood_eq (slot : Option StoredConfig) (stored : StoredConfig) :
    (∃ existing, slot = some existing ∧ stored.revision ≤ existing.revision ∧
      storeLastGood slot stored = some existing) ∨
    (storeLastGood slot stored = some stored ∧
      ∀ existing, slot = some existing → existing.revision < stored.revision) := by
  cases slot with
  | none => exact .inr ⟨rfl, by simp⟩
  | some existing =>
    by_cases newer : stored.revision ≤ existing.revision
    · exact .inl ⟨existing, rfl, newer, if_pos newer⟩
    · refine .inr ⟨if_neg newer, ?_⟩
      grind

theorem prove_lastGood_ne_none (s : State) (stored : StoredConfig) : (prove s stored).lastGood ≠ none := by
  rcases storeLastGood_eq s.lastGood stored with ⟨existing, -, -, kept⟩ | ⟨replaced, -⟩
  · exact fun none_ => by cases kept.symm.trans none_
  · exact fun none_ => by cases replaced.symm.trans none_

theorem Inv.prove {s : State} (h : Inv s) {stored : StoredConfig} (known : stored ∈ s.saves)
    (topology : stored.config.topology ∈ s.bound)
    (newer : s.lastGood = none → ∀ other ∈ s.proven, other.revision ≤ stored.revision) :
    Inv (prove s stored) where
  counter := h.counter
  order := h.order
  current := h.current
  inHand := h.inHand
  provenSaved := by
    intro c member
    rcases List.mem_cons.mp member with rfl | old
    · exact known
    · exact h.provenSaved c old
  slot := by
    intro c same
    rcases storeLastGood_eq s.lastGood stored with ⟨existing, slot, above, kept⟩ | ⟨replaced, below⟩
    · obtain rfl : existing = c := Option.some.inj (kept.symm.trans same)
      obtain ⟨member, bound, newest⟩ := h.slot existing slot
      refine ⟨List.mem_cons_of_mem _ member, bound, ?_⟩
      intro other mem
      rcases List.mem_cons.mp mem with rfl | old
      · exact above
      · exact newest other old
    · obtain rfl : stored = c := Option.some.inj (replaced.symm.trans same)
      refine ⟨List.mem_cons_self, topology, ?_⟩
      intro other mem
      rcases List.mem_cons.mp mem with rfl | old
      · exact le_rfl
      · cases slot : s.lastGood with
        | none => exact newer slot other old
        | some existing => exact ((h.slot existing slot).2.2 other old).trans (below existing slot).le
  empty := fun none_ => absurd none_ (prove_lastGood_ne_none s stored)
  running := h.running
  reloaded := fun _ _ => prove_lastGood_ne_none s stored
  generations := h.generations
  hot := h.hot

theorem Inv.exited {s : State} (h : Inv s) (failed : Bool) : Inv { s with phase := .exited failed } where
  counter := h.counter
  order := h.order
  current := h.current
  inHand := by simp [Phase.stored]
  provenSaved := h.provenSaved
  slot := h.slot
  empty := by simp [Phase.stored]
  running := by simp
  reloaded := by simp
  generations := h.generations
  hot := by grind [Inv.hot]

/-- The next revision is taken in hand; with an empty slot it must be newer than all that worked. -/
theorem Inv.apply {s : State} (h : Inv s) {origin : Origin} {stored : StoredConfig} (known : stored ∈ s.saves)
    (newer : s.lastGood = none → ∀ other ∈ s.proven, other.revision < stored.revision)
    (slot : origin = .reloaded → s.lastGood ≠ none) : Inv { s with phase := .applying origin stored } where
  counter := h.counter
  order := h.order
  current := h.current
  inHand := by
    intro c same
    cases same
    exact known
  provenSaved := h.provenSaved
  slot := h.slot
  empty := by
    intro none_ c same
    cases same
    exact newer none_
  running := by simp
  reloaded := by grind
  generations := h.generations
  hot := by grind [Inv.hot]

theorem Inv.takeLastGood {s : State} (h : Inv s) (stopped : s.phase.stored = none) :
    Inv { s with lastGood := none } where
  counter := h.counter
  order := h.order
  current := h.current
  inHand := h.inHand
  provenSaved := h.provenSaved
  slot := by simp
  empty := by simp [stopped]
  running := h.running
  reloaded := by
    intro c phase
    rw [phase] at stopped
    cases stopped
  generations := h.generations
  hot := h.hot

theorem Inv.rollBack {s : State} (h : Inv s) (environment : Environment) : Inv (rollBack environment s) := by
  unfold Rollback.rollBack
  split
  · exact h.exited true
  · rename_i previous slot
    have taken : Inv { s with lastGood := none, phase := .exited true } := (h.exited true).takeLastGood rfl
    split
    · exact taken
    · rename_i stored db done
      obtain ⟨above, saved⟩ := taken.saved done
      exact saved.apply List.mem_cons_self (fun _ other member => above other (h.provenSaved other member)) (by simp)

theorem rollBack_of_valid {environment : Environment} {s : State} {previous : StoredConfig} {revision : Nat}
    (slot : s.lastGood = some previous) (valid : previous.config.validate environment = .ok ())
    (advanced : nextRevision s.db.counter = some revision) :
    (rollBack environment s).phase =
      .applying .rollback ⟨revision, "runtime-auto-rollback".toList, previous.config⟩ := by
  simp only [rollBack, slot, saveConfig_of_valid valid advanced]

theorem Inv.applied {s : State} (h : Inv s) {stored : StoredConfig} (inHand : s.phase.stored = some stored) :
    Inv { s with phase := .running stored, generation := s.generation + 1, notified := false,
                 bound := stored.config.topology :: s.bound } where
  counter := h.counter
  order := h.order
  current := h.current
  inHand := by
    intro c same
    cases same
    exact h.inHand stored inHand
  provenSaved := h.provenSaved
  slot := by grind [Inv.slot]
  empty := by
    intro none_ c same
    cases same
    exact h.empty none_ stored inHand
  running := by simp
  reloaded := by simp
  generations := fun put member => (h.generations put member).trans (Nat.le_succ _)
  hot := by
    intro put member saved same
    refine ⟨(h.hot put member saved same).1, ?_⟩
    intro current
    exact absurd current (Nat.ne_of_lt (Nat.lt_succ_of_le (h.generations put member)))

theorem Inv.putLoad {s : State} (h : Inv s) (previous config : RuntimeConfig) (updatedBy : Text) :
    Inv { s with puts := s.puts ++ [{ generation := s.generation, previous, config, updatedBy }] } := by
  refine h.setPuts fun put member => ?_
  rcases List.mem_append.mp member with old | new
  · exact ⟨h.generations put old, h.hot put old⟩
  · rw [List.mem_singleton.mp new]
    exact ⟨Nat.le_refl _, by simp⟩

/-- The handler goes on with what it has saved. -/
theorem Inv.setPut {s : State} (h : Inv s) {i : Nat} {put next : Put} (flying : s.puts[i]? = some put)
    (own : next.generation = put.generation)
    (newest : ∀ saved, next.saved = some saved → saved ∈ s.saves ∧
      (next.generation = s.generation → ∀ c, s.phase = .running c → c.revision < saved.revision)) :
    Inv { s with puts := s.puts.set i next } := by
  refine h.setPuts fun other member => ?_
  rcases List.mem_or_eq_of_mem_set member with old | rfl
  · exact ⟨h.generations other old, h.hot other old⟩
  · exact ⟨own ▸ h.generations put (List.mem_of_getElem? flying), newest⟩

theorem Inv.imported {s : State} (h : Inv s) {i : Import} (advances : Advances i s.db) :
    Inv { s with db := i.apply s.db, saves := match i.current with
            | some (.value stored) => stored :: s.saves
            | _ => s.saves } := by
  obtain ⟨before, after, counter, counted, forward, above⟩ := advances
  obtain ⟨n, same, bounded⟩ := h.counter
  obtain rfl : before = n := Row.value.inj (counter.symm.trans same)
  -- Only an import that installs a configuration adds to the saves.
  by_cases installs : ∃ stored, i.current = some (.value stored)
  · obtain ⟨stored, current⟩ := installs
    obtain ⟨below, within⟩ := above stored current
    simp only [current]
    refine h.stores counted within (fun c member => (bounded c member).trans_lt below) ?_
    grind [Import.apply]
  · have kept : (match i.current with
        | some (.value stored) => stored :: s.saves
        | _ => s.saves) = s.saves := by grind
    rw [kept]
    refine ⟨⟨after, counted, fun c member => (bounded c member).trans forward⟩, h.order, ?_, h.inHand,
      h.provenSaved, h.slot, h.empty, h.running, h.reloaded, h.generations, h.hot⟩
    intro c same
    cases current : i.current with
    | none => grind [Import.apply, Inv.current]
    | some row => grind [Import.apply]

theorem Inv.putSave {s : State} (h : Inv s) {i : Nat} {put : Put} (flying : s.puts[i]? = some put)
    {environment : Environment} {saved : StoredConfig} {db : Database}
    (done : saveConfig environment s.db put.config put.updatedBy = .ok (saved, db)) :
    Inv { s with db, saves := saved :: s.saves, puts := s.puts.set i { put with saved := some saved, hot := false } } := by
  obtain ⟨above, stored⟩ := h.saved done
  refine stored.setPut flying rfl fun other same => ?_
  cases same
  refine ⟨List.mem_cons_self, fun _ c running => above c (h.inHand c ?_)⟩
  rw [show s.phase = .running c from running]
  rfl

theorem Inv.putApply {s : State} (h : Inv s) {i : Nat} {put : Put} (flying : s.puts[i]? = some put)
    (saved : StoredConfig) : Inv (applyRuntimeConfig s i put saved) := by
  unfold applyRuntimeConfig
  split
  · exact h.setPut flying rfl (h.hot put (List.mem_of_getElem? flying))
  · exact (h.withPuts fun _ => List.mem_of_mem_eraseIdx).withNotify _ _ _

theorem step_preserves_inv (s : State) (event : Event) (next : State) (h : Inv s) (ok : Guarded s event)
    (enabled : step s event = some next) : Inv next := by
  have fewer : ∀ i, ∀ put ∈ s.puts.eraseIdx i, put ∈ s.puts := fun _ _ => List.mem_of_mem_eraseIdx
  cases event with
  | applied =>
    simp only [step] at enabled
    split at enabled
    · rename_i origin stored phase
      exact Option.some.inj enabled ▸ h.applied (by rw [phase]; rfl)
    · cases enabled
  | fails environment | signalFails environment =>
    simp only [step] at enabled
    split at enabled
    · exact Option.some.inj enabled ▸ h.rollBack environment
    · cases enabled
  | interrupted =>
    simp only [step] at enabled
    split at enabled
    · exact Option.some.inj enabled ▸ h.exited false
    · cases enabled
  | wake generation =>
    simp only [step] at enabled
    split at enabled
    · exact Option.some.inj enabled ▸ h.withNotify _ _ _
    · cases enabled
  | reload =>
    simp only [step] at enabled
    split at enabled
    · rename_i stored phase _
      have inHand : s.phase.stored = some stored := by
        rw [phase]
        rfl
      have proved : Inv (prove s stored) :=
        h.prove (h.inHand stored inHand) (h.running stored phase)
          fun none_ other member => (h.empty none_ stored inHand other member).le
      split at enabled
      · rename_i current row
        exact Option.some.inj enabled ▸ proved.apply (h.current current row)
          (fun none_ => absurd none_ (prove_lastGood_ne_none s stored))
          (fun _ => prove_lastGood_ne_none s stored)
      · exact Option.some.inj enabled ▸ proved.exited true
    · cases enabled
  | putLoad revision config updatedBy =>
    simp only [step] at enabled
    split at enabled
    · split at enabled
      · exact Option.some.inj enabled ▸ h.putLoad _ config updatedBy
      · cases enabled
    · cases enabled
  | putSave environment i =>
    simp only [step] at enabled
    split at enabled
    · rename_i generation previous config updatedBy hot flying
      split at enabled
      · rename_i saved db done
        exact Option.some.inj enabled ▸ h.putSave flying done
      · exact Option.some.inj enabled ▸ h.withPuts (fewer i)
    · cases enabled
  | putApply i =>
    simp only [step] at enabled
    split at enabled
    · rename_i generation previous config updatedBy saved flying
      exact Option.some.inj enabled ▸ h.putApply flying saved
    · cases enabled
  | hotApplied i =>
    simp only [step] at enabled
    split at enabled
    · rename_i generation previous config updatedBy saved flying
      obtain ⟨own, running, phase, topology⟩ := ok _ saved flying rfl
      obtain ⟨known, later⟩ := h.hot _ (List.mem_of_getElem? flying) saved rfl
      have inHand : s.phase.stored = some running := by
        rw [phase]
        rfl
      have newer : s.lastGood = none → ∀ other ∈ s.proven, other.revision ≤ saved.revision := by
        intro none_ other member
        exact ((h.empty none_ running inHand other member).trans (later own running phase)).le
      have proved : Inv (prove s saved) := h.prove known (topology ▸ h.running running phase) newer
      exact Option.some.inj enabled ▸ proved.withPuts (fewer i)
    · cases enabled
  | hotFails i =>
    simp only [step] at enabled
    split at enabled
    · exact Option.some.inj enabled ▸ (h.withPuts (fewer i)).withNotify _ _ _
    · cases enabled
  | putDropped i => exact Option.some.inj enabled ▸ h.withPuts (fewer i)
  | save environment config updatedBy =>
    simp only [step] at enabled
    split at enabled
    · rename_i saved db done
      exact Option.some.inj enabled ▸ (h.saved done).2.withNotify _ _ _
    · exact Option.some.inj enabled ▸ h
  | asks generation =>
    simp only [step] at enabled
    split at enabled
    · exact Option.some.inj enabled ▸ h.withNotify _ _ _
    · cases enabled
  | cancelled generation => exact Option.some.inj enabled ▸ h.withNotify _ _ _
  | import_ i => exact Option.some.inj enabled ▸ (h.imported ok).withNotify _ _ _

theorem exists_split_of_order {saves : List StoredConfig}
    (order : saves.Pairwise fun newer older => older.revision < newer.revision) {c : StoredConfig}
    (known : c ∈ saves) :
    ∃ newer older, saves = newer ++ c :: older ∧ ∀ other ∈ newer, c.revision < other.revision := by
  obtain ⟨newer, older, split⟩ := List.append_of_mem known
  grind

/-- In every guarded run the slot holds the newest configuration that has worked, of a topology that has been bound,
and a revision that fails after a reload is rolled back to it. -/
theorem lastGood_sound {stored : StoredConfig} {counter : Nat} (bounded : stored.revision ≤ counter)
    {events : List Event} {last : State} (whole : Runs.run step (initial stored counter) events = some last)
    (meets : Runs.Meets step Guarded (initial stored counter) events) :
    (∀ c, last.lastGood = some c → c.config.topology ∈ last.bound ∧ c ∈ last.proven ∧
      ∃ newer older, last.saves = newer ++ c :: older ∧ ∀ other ∈ last.proven, other ∉ newer) ∧
    ∀ c environment, last.phase = .applying .reloaded c → Guarded last (.fails environment) →
      ∃ previous next rolledBack, last.lastGood = some previous ∧ step last (.fails environment) = some next ∧
        next.phase = .applying .rollback rolledBack ∧ rolledBack.config = previous.config := by
  have h : Inv last := Runs.run_invariant step step_preserves_inv (inv_initial bounded) meets whole
  constructor
  · intro c slot
    obtain ⟨worked, bound, newest⟩ := h.slot c slot
    obtain ⟨newer, older, split, above⟩ := exists_split_of_order h.order (h.provenSaved c worked)
    refine ⟨bound, worked, newer, older, split, fun other proven later => ?_⟩
    exact absurd (newest other proven) (above other later).not_ge
  · intro c environment phase ⟨room, valid⟩
    obtain ⟨previous, slot⟩ := Option.ne_none_iff_exists'.mp (h.reloaded c phase)
    obtain ⟨revision, advanced⟩ := Option.isSome_iff_exists.mp room
    exact ⟨previous, _, _, slot, by simp only [step, phase], rollBack_of_valid slot (valid previous slot) advanced, rfl⟩

section Example

def bootstrapped : StoredConfig := { revision := 1, updatedBy := "admin".toList, config := {} }

def extraListener (policy : Policy) : AdditionalListenerConfig :=
  .tls { bind := "192.0.2.1:8443".toList, routing := { unknownHostPolicy := policy } }

def unbindable (policy : Policy) : RuntimeConfig :=
  { additionalListeners := .singleton "extra".toList (extraListener policy) }

def tuned : RuntimeConfig := { defaultListener := { ordinaryTraffic := { unknownHostPolicy := .deny } } }

def tunedThenMoved : List Event :=
  [.applied, .putLoad 1 tuned "admin".toList, .putSave bareEnvironment 0, .putApply 0, .hotApplied 0,
    .putLoad 2 (unbindable .allow) "admin".toList, .putSave bareEnvironment 0, .putApply 0, .wake 1, .reload]

theorem lastGood_sound_tuned :
    ∃ last c, Runs.run step (initial bootstrapped 1) tunedThenMoved = some last ∧
      last.phase = .applying .reloaded c ∧
      ∃ previous next rolledBack, last.lastGood = some previous ∧
        step last (.fails bareEnvironment) = some next ∧ next.phase = .applying .rollback rolledBack ∧
        rolledBack.config = previous.config := by
  have meets : Runs.Meets step Guarded (initial bootstrapped 1) tunedThenMoved := by
    refine .cons _ trivial rfl <| .cons _ trivial rfl <| .cons _ trivial rfl <| .cons _ trivial rfl <|
      .cons _ ?_ rfl <| .cons _ trivial rfl <| .cons _ trivial rfl <| .cons _ trivial rfl <| .cons _ trivial rfl <|
      .cons _ trivial rfl trivial
    intro put saved flying same
    cases flying
    cases same
    exact ⟨rfl, _, rfl, rfl⟩
  refine ⟨_, _, rfl, rfl, ?_⟩
  refine (lastGood_sound le_rfl rfl meets).2 _ bareEnvironment rfl ⟨rfl, fun previous slot => ?_⟩
  cases slot
  rfl

/-- A second save within the reload delay is compared with a configuration that never ran. -/
theorem hot_apply_poisons_lastGood :
    (∃ last c, Runs.run step (initial bootstrapped 1)
        [.applied, .putLoad 1 (unbindable .allow) "admin".toList, .putSave bareEnvironment 0, .putApply 0,
          .putLoad 2 (unbindable .deny) "admin".toList, .putSave bareEnvironment 0, .putApply 0, .hotApplied 0] =
          some last ∧
      last.lastGood = some c ∧ c.config.topology ∉ last.bound) ∧
    ∃ last, Runs.run step (initial bootstrapped 1)
        [.applied, .putLoad 1 (unbindable .allow) "admin".toList, .putSave bareEnvironment 0, .putApply 0,
          .putLoad 2 (unbindable .deny) "admin".toList, .putSave bareEnvironment 0, .putApply 0, .hotApplied 0,
          .wake 1, .reload, .fails bareEnvironment, .fails bareEnvironment] = some last ∧ last.phase = .exited true :=
  ⟨⟨_, _, rfl, rfl, by decide⟩, _, rfl, rfl⟩

end Example

end TlsProxy.Rollback
