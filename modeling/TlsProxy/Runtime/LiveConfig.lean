import TlsProxy.Runtime.Rollback

/-! The revision loop with `runtime_live::current`, which a revision sets as it
starts and a hot apply before it begins. No save is forgotten: the stored
configuration is the one that traffic meets, or what is under way makes it so. -/
namespace TlsProxy.Rollback

open Config Store

structure Served where
  state : State
  /-- `runtime_live::current`. -/
  live : RuntimeConfig

def Served.start (stored : StoredConfig) (counter : Nat) : Served where
  state := initial stored counter
  live := stored.config

def Served.liveAfter (s : Served) (next : State) : Event → RuntimeConfig
  -- A configuration that does not validate is not stored, and is in hand only until the run of its revision fails.
  | .reload | .fails _ | .signalFails _ => (next.phase.stored.map StoredConfig.config).getD s.live
  | .putApply i =>
    match s.state.puts[i]? with
    | some { previous, saved := some saved, .. } =>
      if listenerSettingsOnly previous saved.config then saved.config else s.live
    | _ => s.live
  | _ => s.live

def Served.step (s : Served) (event : Event) : Option Served :=
  (Rollback.step s.state event).map fun next => { state := next, live := s.liveAfter next event }

/-- Configurations are written by requests to the control plane that runs, and no handler is cancelled between its save
and what it does next. -/
def Attended (s : Served) : Event → Prop
  | .putSave _ i | .putApply i => ∀ put, s.state.puts[i]? = some put → put.generation = s.state.generation ∧
      ∃ running, s.state.phase = .running running
  | .save _ _ _ | .import_ _ => ∃ running, s.state.phase = .running running
  | .putDropped i => ∀ put, s.state.puts[i]? = some put → put.saved = none ∨ put.hot = true
  | .cancelled generation => generation ∉ s.state.owing
  | _ => True

/-- A notification is on its way to the revision that runs, or a handler is about to send it. -/
def Reloading (s : State) : Prop := s.generation ∈ s.owing ∨ s.generation ∈ s.sleeping ∨ s.notified = true

/-- A `put_config` of the control plane that runs is about to act on what it has saved. -/
structure Undecided (s : State) (put : Put) (saved : StoredConfig) : Prop where
  flying : put ∈ s.puts
  own : put.generation = s.generation
  saved : put.saved = some saved
  cold : put.hot = false

structure Followed (s : Served) : Prop where
  applying : ∀ origin stored, s.state.phase = .applying origin stored →
    s.state.db.current = .value stored ∧ s.live = stored.config
  running : ∀ running stored, s.state.phase = .running running → s.state.db.current = .value stored →
    Reloading s.state ∨ (∃ put, Undecided s.state put stored) ∨
      s.live = stored.config ∧ stored.config.topology = running.config.topology
  undecided : ∀ running put saved, s.state.phase = .running running → Undecided s.state put saved →
    Reloading s.state ∨ s.state.db.current = .value saved
  generations : ∀ put ∈ s.state.puts, put.generation ≤ s.state.generation
  /-- `config_write` admits one handler at a time. -/
  alone : (s.state.puts.map Put.generation).Nodup
  previous : ∀ put ∈ s.state.puts, put.generation = s.state.generation → ∀ running,
    s.state.phase = .running running → Reloading s.state ∨ put.previous.topology = running.config.topology

theorem Followed.start (stored : StoredConfig) (counter : Nat) : Followed (.start stored counter) where
  applying := by
    intro origin other same
    cases same
    exact ⟨rfl, rfl⟩
  running := by simp [Served.start, initial]
  undecided := by simp [Served.start, initial]
  generations := by simp [Served.start, initial]
  alone := by simp [Served.start, initial]
  previous := by simp [Served.start, initial]

/-- The loop turns to another revision, which is the stored one, or ends. -/
theorem Followed.turn {s : Served} (h : Followed s) {next : State} {live : RuntimeConfig}
    (stopped : ∀ running, next.phase ≠ .running running)
    (inHand : ∀ origin stored, next.phase = .applying origin stored →
      next.db.current = .value stored ∧ live = stored.config)
    (generation : next.generation = s.state.generation) (puts : next.puts = s.state.puts) : Followed ⟨next, live⟩ where
  applying := inHand
  running := fun running _ phase => absurd phase (stopped running)
  undecided := fun running _ _ phase => absurd phase (stopped running)
  generations := by
    rw [generation, puts]
    exact h.generations
  alone := by
    rw [puts]
    exact h.alone
  previous := fun _ _ _ running phase => absurd phase (stopped running)

/-- The phase stays, and so do the row and every `put_config` that is about to act unless a notification is on its
way. -/
theorem Followed.keep {s : Served} (h : Followed s) {next : State} (phase : next.phase = s.state.phase)
    (generation : next.generation = s.state.generation) (fewer : next.puts.Sublist s.state.puts)
    (reloading : Reloading s.state → Reloading next)
    (stays : ∀ put saved, Undecided s.state put saved → Reloading next ∨ put ∈ next.puts)
    (row : next.db = s.state.db ∨ Reloading next ∧ ∃ running, s.state.phase = .running running) :
    Followed ⟨next, s.live⟩ where
  applying := by
    intro origin stored same
    rcases row with row | ⟨-, running, other⟩
    · rw [row]
      exact h.applying origin stored (phase.symm.trans same)
    · cases other.symm.trans (phase.symm.trans same)
  running := by
    intro running stored same current
    rcases row with row | ⟨pending, -⟩
    · rcases h.running running stored (phase.symm.trans same) (row ▸ current) with pending | ⟨put, yet⟩ | inForce
      · exact .inl (reloading pending)
      · exact (stays put stored yet).imp_right fun there =>
          .inl ⟨put, there, yet.own.trans generation.symm, yet.saved, yet.cold⟩
      · exact .inr (.inr inForce)
    · exact .inl pending
  undecided := by
    intro running put saved same ⟨flying, own, written, cold⟩
    rcases row with row | ⟨pending, -⟩
    · have before : Undecided s.state put saved := ⟨fewer.subset flying, own.trans generation, written, cold⟩
      exact (h.undecided running put saved (phase.symm.trans same) before).imp reloading (row ▸ ·)
    · exact .inl pending
  generations := by
    intro put member
    exact generation ▸ h.generations put (fewer.subset member)
  alone := h.alone.sublist (fewer.map Put.generation)
  previous := by
    intro put member own running same
    exact (h.previous put (fewer.subset member) (own.trans generation) running (phase.symm.trans same)).imp_left
      reloading

theorem Followed.applied {s : Served} (h : Followed s) {origin : Origin} {stored : StoredConfig}
    (phase : s.state.phase = .applying origin stored) {bound : List Topology} :
    Followed ⟨{ s.state with phase := .running stored, generation := s.state.generation + 1, notified := false, bound },
      s.live⟩ where
  applying := by simp
  running := by
    intro running other same current
    cases same
    obtain ⟨row, live⟩ := h.applying origin stored phase
    cases row.symm.trans current
    exact .inr (.inr ⟨live, rfl⟩)
  undecided := by
    intro running put saved _ ⟨flying, own, _, _⟩
    exact absurd (h.generations put flying) (own ▸ Nat.not_succ_le_self _)
  generations := fun put member => (h.generations put member).trans (Nat.le_succ _)
  alone := h.alone
  previous := by
    intro put member own
    exact absurd (h.generations put member) (own ▸ Nat.not_succ_le_self _)

theorem Followed.putLoad {s : Served} (h : Followed s) {running current : StoredConfig}
    (phase : s.state.phase = .running running) (row : s.state.db.current = .value current)
    (free : ∀ put ∈ s.state.puts, put.generation ≠ s.state.generation) {put : Put}
    (own : put.generation = s.state.generation) (previous : put.previous = current.config) (fresh : put.saved = none) :
    Followed ⟨{ s.state with puts := s.state.puts ++ [put] }, s.live⟩ where
  applying := h.applying
  running := by
    intro bound stored same now
    refine (h.running bound stored same now).imp_right (Or.imp_left fun ⟨other, yet⟩ => ?_)
    exact absurd yet.own (free other yet.flying)
  undecided := by
    intro bound other saved same ⟨flying, mine, written, cold⟩
    rcases List.mem_append.mp flying with old | new
    · exact absurd mine (free other old)
    · rw [List.mem_singleton.mp new, fresh] at written
      cases written
  generations := by
    intro other member
    rcases List.mem_append.mp member with old | new
    · exact h.generations other old
    · rw [List.mem_singleton.mp new]
      exact own.le
  alone := by
    rw [List.map_append, List.nodup_append]
    refine ⟨h.alone, List.nodup_singleton _, fun a there b new => ?_⟩
    obtain ⟨other, flying, rfl⟩ := List.mem_map.mp there
    rw [List.mem_singleton.mp new, own]
    exact free other flying
  previous := by
    intro other member same bound now
    rcases List.mem_append.mp member with old | new
    · exact absurd same (free other old)
    · rw [List.mem_singleton.mp new, previous]
      cases phase.symm.trans now
      rcases h.running running current phase row with pending | ⟨late, yet⟩ | inForce
      · exact .inl pending
      · exact absurd yet.own (free late yet.flying)
      · exact .inr inForce.2

theorem nodup_generation_set {puts : List Put} (alone : (puts.map Put.generation).Nodup) {i : Nat} {put next : Put}
    (flying : puts[i]? = some put) (own : next.generation = put.generation) :
    ((puts.set i next).map Put.generation).Nodup := by
  obtain ⟨inside, rfl⟩ := List.getElem?_eq_some_iff.mp flying
  have mapped : i < (puts.map Put.generation).length := by rwa [List.length_map]
  have same : puts[i].generation = (puts.map Put.generation)[i] := (List.getElem_map Put.generation).symm
  rw [List.map_set, own, same, List.set_getElem_self]
  exact alone

/-- What was saved by the only handler of the control plane is the row. -/
theorem Followed.putSaved {s : Served} (h : Followed s) {running saved : StoredConfig}
    (phase : s.state.phase = .running running) {i : Nat} {put : Put} (flying : s.state.puts[i]? = some put)
    (own : put.generation = s.state.generation) {saves : List StoredConfig} :
    Followed ⟨{ s.state with db := s.state.db.write saved, saves,
                             puts := s.state.puts.set i { put with saved := some saved, hot := false } }, s.live⟩ := by
  have loaded : put ∈ s.state.puts := List.mem_of_getElem? flying
  let written : Put := { put with saved := some saved, hot := false }
  have there : written ∈ s.state.puts.set i written := List.mem_set (List.getElem?_eq_some_iff.mp flying).1 _
  have alone : ((s.state.puts.set i written).map Put.generation).Nodup := nodup_generation_set h.alone flying rfl
  refine ⟨by simp [phase], fun other stored same current => ?_, fun other late before same yet => ?_,
    fun other member => ?_, alone, fun other member same => ?_⟩
  · cases current
    exact .inr (.inl ⟨written, there, own, rfl, rfl⟩)
  · have only : late = written := List.inj_on_of_nodup_map alone yet.flying there (yet.own.trans own.symm)
    cases only ▸ yet.saved
    exact .inr rfl
  · rcases List.mem_or_eq_of_mem_set member with old | rfl
    · exact h.generations other old
    · exact h.generations put loaded
  · rcases List.mem_or_eq_of_mem_set member with old | rfl
    · exact h.previous other old same
    · exact h.previous put loaded own

theorem Followed.hotApplying {s : Served} (h : Followed s) {running saved : StoredConfig}
    (phase : s.state.phase = .running running) {i : Nat} {put : Put} (flying : s.state.puts[i]? = some put)
    (yet : Undecided s.state put saved) (settings : put.previous.topology = saved.config.topology) :
    Followed ⟨{ s.state with puts := s.state.puts.set i { put with hot := true } }, saved.config⟩ := by
  have alone : ((s.state.puts.set i { put with hot := true }).map Put.generation).Nodup :=
    nodup_generation_set h.alone flying rfl
  refine ⟨by simp [phase], fun other stored same current => ?_, fun other late written same later => ?_,
    fun other member => ?_, alone, fun other member same => ?_⟩
  · rcases h.undecided other put saved same yet with pending | row
    · exact .inl pending
    · cases row.symm.trans current
      exact (h.previous put yet.flying yet.own other same).imp_right fun same => .inr ⟨rfl, settings.symm.trans same⟩
  · rcases List.mem_or_eq_of_mem_set later.flying with old | rfl
    · exact h.undecided other late written same ⟨old, later.own, later.saved, later.cold⟩
    · cases later.cold
  · rcases List.mem_or_eq_of_mem_set member with old | rfl
    · exact h.generations other old
    · exact h.generations put yet.flying
  · rcases List.mem_or_eq_of_mem_set member with old | rfl
    · exact h.previous other old same
    · exact h.previous put yet.flying yet.own

theorem Followed.rollBack {s : Served} (h : Followed s) (environment : Environment) :
    Followed ⟨rollBack environment s.state,
      ((Rollback.rollBack environment s.state).phase.stored.map StoredConfig.config).getD s.live⟩ := by
  unfold Rollback.rollBack
  split
  · exact h.turn (by simp) (by simp) rfl rfl
  · split
    · exact h.turn (by simp) (by simp) rfl rfl
    · rename_i stored db done
      obtain ⟨-, -, -, rfl⟩ := saveConfig_eq_ok done
      exact h.turn (by simp) (by simp [Database.write, Phase.stored]) rfl rfl

/-- Who is about to act stays when another handler ends. -/
theorem Undecided.mem_eraseIdx {s : State} {put : Put} {saved : StoredConfig} (yet : Undecided s put saved) {i : Nat}
    {ended : Put} (flying : s.puts[i]? = some ended) (other : ended.saved = none ∨ ended.hot = true) :
    put ∈ s.puts.eraseIdx i := by
  obtain ⟨j, found⟩ := List.mem_iff_getElem?.mp yet.flying
  refine List.mem_eraseIdx_iff_getElem?.mpr ⟨j, fun same => ?_, found⟩
  subst same
  cases flying.symm.trans found
  rcases other with unsaved | hot
  · cases unsaved.symm.trans yet.saved
  · cases hot.symm.trans yet.cold

theorem Followed.step (s : Served) (event : Event) (next : Served) (h : Followed s) (attended : Attended s event)
    (taken : s.step event = some next) : Followed next := by
  obtain ⟨after, enabled, rfl⟩ := Option.map_eq_some_iff.mp taken
  -- A handler ends that was not about to act.
  have ends : ∀ {i put}, s.state.puts[i]? = some put → put.saved = none ∨ put.hot = true → ∀ {sleeping proven lastGood},
      (Reloading s.state → s.state.generation ∈ s.state.owing ∨ s.state.generation ∈ sleeping ∨ s.state.notified = true) →
      Followed ⟨{ s.state with puts := s.state.puts.eraseIdx i, sleeping, proven, lastGood }, s.live⟩ :=
    fun flying other _ _ _ reloading => h.keep rfl rfl (List.eraseIdx_sublist _ _) reloading
      (fun _ _ yet => .inr (yet.mem_eraseIdx flying other)) (.inl rfl)
  cases event with
  | applied =>
    simp only [Rollback.step] at enabled
    split at enabled
    · rename_i origin stored phase
      exact Option.some.inj enabled ▸ h.applied phase
    · cases enabled
  | fails environment | signalFails environment =>
    simp only [Rollback.step] at enabled
    split at enabled
    · exact Option.some.inj enabled ▸ h.rollBack environment
    · cases enabled
  | interrupted =>
    simp only [Rollback.step] at enabled
    split at enabled
    · exact Option.some.inj enabled ▸ h.turn (by simp) (by simp) rfl rfl
    · cases enabled
  | wake generation =>
    simp only [Rollback.step] at enabled
    split at enabled
    · obtain rfl := Option.some.inj enabled
      refine h.keep rfl rfl (List.Sublist.refl _) ?_ (fun _ _ yet => .inr yet.flying) (.inl rfl)
      rintro (owed | asleep | notified)
      · exact .inl owed
      · by_cases own : generation = s.state.generation
        · simp [Reloading, own]
        · exact .inr (.inl ((List.mem_erase_of_ne (Ne.symm own)).mpr asleep))
      · simp [Reloading, notified]
    · cases enabled
  | reload =>
    simp only [Rollback.step] at enabled
    split at enabled
    · split at enabled
      · rename_i current row
        exact Option.some.inj enabled ▸ h.turn (by simp) (by simp [prove, row, Served.liveAfter, Phase.stored]) rfl rfl
      · exact Option.some.inj enabled ▸ h.turn (by simp) (by simp) rfl rfl
    · cases enabled
  | putLoad revision config updatedBy =>
    simp only [Rollback.step] at enabled
    split at enabled
    · rename_i running current phase row
      split at enabled
      · rename_i admitted
        have free : ∀ put ∈ s.state.puts, put.generation ≠ s.state.generation := by
          simpa using List.all_eq_true.mp admitted.1
        exact Option.some.inj enabled ▸ h.putLoad phase row free rfl rfl rfl
      · cases enabled
    · cases enabled
  | putSave environment i =>
    simp only [Rollback.step] at enabled
    split at enabled
    · rename_i generation previous config updatedBy hot flying
      obtain ⟨own, running, phase⟩ := attended _ flying
      split at enabled
      · rename_i saved db done
        obtain ⟨-, -, -, rfl⟩ := saveConfig_eq_ok done
        exact Option.some.inj enabled ▸ h.putSaved phase flying own
      · exact Option.some.inj enabled ▸ ends flying (.inl rfl) id
    · cases enabled
  | putApply i =>
    simp only [Rollback.step] at enabled
    split at enabled
    · rename_i generation previous config updatedBy saved flying
      obtain ⟨own, running, phase⟩ := attended _ flying
      have yet : Undecided s.state _ saved := ⟨List.mem_of_getElem? flying, own, rfl, rfl⟩
      obtain rfl := Option.some.inj enabled
      simp only [Served.liveAfter, flying, applyRuntimeConfig]
      split
      · rename_i settings
        exact h.hotApplying phase flying yet (of_decide_eq_true settings)
      · have pending : s.state.generation ∈ generation :: s.state.sleeping := List.mem_cons.mpr (.inl own.symm)
        exact h.keep rfl rfl (List.eraseIdx_sublist _ _) (fun _ => .inr (.inl pending))
          (fun _ _ _ => .inl (.inr (.inl pending))) (.inl rfl)
    · cases enabled
  | hotApplied i =>
    simp only [Rollback.step] at enabled
    split at enabled
    · rename_i flying
      exact Option.some.inj enabled ▸ ends flying (.inr rfl) id
    · cases enabled
  | hotFails i =>
    simp only [Rollback.step] at enabled
    split at enabled
    · rename_i flying
      exact Option.some.inj enabled ▸ ends flying (.inr rfl) (Or.imp_right (Or.imp_left (List.mem_cons_of_mem _)))
    · cases enabled
  | putDropped i =>
    cases flying : s.state.puts[i]? with
    | none =>
      have same : s.state.puts.eraseIdx i = s.state.puts := List.eraseIdx_of_length_le (List.getElem?_eq_none_iff.mp flying)
      obtain rfl := Option.some.inj enabled
      rw [same]
      exact h
    | some put => exact Option.some.inj enabled ▸ ends flying (attended put flying) id
  | save environment config updatedBy =>
    simp only [Rollback.step] at enabled
    have pending : s.state.generation ∈ s.state.generation :: s.state.owing := List.mem_cons_self
    split at enabled
    · exact Option.some.inj enabled ▸ h.keep rfl rfl (List.Sublist.refl _) (fun _ => .inl pending)
        (fun _ _ yet => .inr yet.flying) (.inr ⟨.inl pending, attended⟩)
    · exact Option.some.inj enabled ▸ h
  | import_ i =>
    have pending : s.state.generation ∈ s.state.generation :: s.state.owing := List.mem_cons_self
    exact Option.some.inj enabled ▸ h.keep rfl rfl (List.Sublist.refl _) (fun _ => .inl pending)
      (fun _ _ yet => .inr yet.flying) (.inr ⟨.inl pending, attended⟩)
  | asks generation =>
    simp only [Rollback.step] at enabled
    split at enabled
    · obtain rfl := Option.some.inj enabled
      refine h.keep rfl rfl (List.Sublist.refl _) ?_ (fun _ _ yet => .inr yet.flying) (.inl rfl)
      rintro (owed | pending)
      · by_cases own : generation = s.state.generation
        · simp [Reloading, own]
        · exact .inl ((List.mem_erase_of_ne (Ne.symm own)).mpr owed)
      · exact .inr (pending.imp_left (List.mem_cons_of_mem _))
    · cases enabled
  | cancelled generation =>
    obtain rfl := Option.some.inj enabled
    rw [List.erase_of_not_mem attended]
    exact h

/-- What goes on without a new request, a failure or a signal. -/
def Underway : Event → Bool
  | .asks _ | .wake _ | .reload | .putApply _ => true
  | _ => false

/-- In at most three steps of what is under way, traffic meets the stored configuration, on the topology that is bound
or on that of the next revision. -/
def Reaches (s : Served) (running stored : StoredConfig) : Prop :=
  ∃ rest next, rest.length ≤ 3 ∧ rest.all Underway ∧ Runs.run Served.step s rest = some next ∧
    next.state.db.current = .value stored ∧ next.live = stored.config ∧
    (next.state.phase = .running running ∧ stored.config.topology = running.config.topology ∨
      next.state.phase = .applying .reloaded stored)

section Reaches

variable {s : Served} {running stored : StoredConfig} (phase : s.state.phase = .running running)
  (row : s.state.db.current = .value stored)
include phase row

theorem reaches_of_reloading (pending : Reloading s.state) : Reaches s running stored := by
  rcases pending with owed | asleep | notified
  · refine ⟨[.asks s.state.generation, .wake s.state.generation, .reload], ?_⟩
    simp [Runs.run, Served.step, Rollback.step, Underway, owed, phase, row, prove, Served.liveAfter, Phase.stored]
  · refine ⟨[.wake s.state.generation, .reload], ?_⟩
    simp [Runs.run, Served.step, Rollback.step, Underway, asleep, phase, row, prove, Served.liveAfter, Phase.stored]
  · refine ⟨[.reload], ?_⟩
    simp [Runs.run, Served.step, Rollback.step, Underway, notified, phase, row, prove, Served.liveAfter, Phase.stored]

/-- The handler goes on: with a hot apply, or with a notification that leads to a reload. -/
theorem reaches_of_undecided {put : Put} (yet : Undecided s.state put stored)
    (bound : put.previous.topology = running.config.topology) : Reaches s running stored := by
  obtain ⟨generation, previous, config, updatedBy, saved, hot⟩ := put
  obtain ⟨flying, rfl, rfl, rfl⟩ := yet
  obtain ⟨i, flying⟩ := List.mem_iff_getElem?.mp flying
  by_cases settings : listenerSettingsOnly previous stored.config = true
  · have topology : stored.config.topology = running.config.topology := (of_decide_eq_true settings).symm.trans bound
    refine ⟨[.putApply i], ?_⟩
    simp [Runs.run, Served.step, Rollback.step, Underway, flying, applyRuntimeConfig, settings, phase, row,
      Served.liveAfter, topology]
  · refine ⟨[.putApply i, .wake s.state.generation, .reload], ?_⟩
    simp [Runs.run, Served.step, Rollback.step, Underway, flying, applyRuntimeConfig, settings, phase, row, prove,
      Served.liveAfter, Phase.stored]

end Reaches

end TlsProxy.Rollback
