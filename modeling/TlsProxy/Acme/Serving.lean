import TlsProxy.Acme.Cache
import TlsProxy.Lib.Snapshots

/-! Concurrent calls of `activate_and_reload` and `reload`: the store is written,
loaded and swapped into the cache in separate steps, and a swap replaces the
whole cache by a snapshot that may be older than the one in place. -/
namespace TlsProxy.Acme

open Config Checks Certificates Programs Snapshots

/-- The generations that an action makes active, with their certificates. -/
def activated : Action → List (Text × Text)
  | .write batch => batch.filterMap fun
      | .put .activeGenerations id generationId => some (id, generationId)
      | _ => none
  | _ => []

def activations (history : History) : List (Text × Text) := history.flatMap fun entry => activated entry.label

def isLoad : Action → Bool
  | .read => true
  | _ => false

def isSwap : Action → Bool
  | .swap _ => true
  | _ => false

/-- How many activations each load of the task has seen, on top of those before the history. -/
def loadsFrom (task : Nat) : Nat → History → List Nat
  | _, [] => []
  | count, entry :: rest =>
    (if entry.task = task ∧ isLoad entry.label = true then [count] else []) ++
      loadsFrom task (count + (activated entry.label).length) rest

def loads (history : History) (task : Nat) : List Nat := loadsFrom task 0 history

theorem activations_append (history more : History) :
    activations (history ++ more) = activations history ++ activations more :=
  List.flatMap_append

theorem activations_concat (history : History) (entry : Entry Action World) :
    activations (history ++ [entry]) = activations history ++ activated entry.label := by grind [activations]

theorem loadsFrom_append (task count : Nat) (history more : History) :
    loadsFrom task count (history ++ more) =
      loadsFrom task count history ++ loadsFrom task (count + (activations history).length) more := by
  induction history generalizing count with
  | nil => rfl
  | cons entry rest ih =>
    rw [List.cons_append, loadsFrom, loadsFrom, ih, List.append_assoc, activations, activations, List.flatMap_cons,
      List.length_append, Nat.add_assoc]

theorem loads_concat (history : History) (task : Nat) (entry : Entry Action World) :
    loads (history ++ [entry]) task = loads history task ++
      if entry.task = task ∧ isLoad entry.label = true then [(activations history).length] else [] := by
  grind [loads, loadsFrom_append, loadsFrom]

theorem loads_concat_of_not {history : History} {task : Nat} {entry : Entry Action World}
    (other : ¬ (entry.task = task ∧ isLoad entry.label = true)) :
    loads (history ++ [entry]) task = loads history task := by
  rw [loads_concat, if_neg other, List.append_nil]

theorem loads_eq_nil {history : History} {task : Nat} (absent : ∀ entry ∈ history, entry.task ≠ task) :
    loads history task = [] := by
  induction history using List.reverseRecOn with
  | nil => rfl
  | append_singleton earlier entry ih => grind [loads_concat_of_not]

theorem activated_activationBatch {generation : CertificateGeneration} {renewal : RenewalState}
    {batch : List Certificates.Write} (made : activationBatch generation renewal = .ok batch) :
    activated (.write batch) = [(generation.certificateId, generation.id)] := by
  obtain ⟨-, -, made⟩ := bind_eq_ok.mp made
  obtain ⟨-, -, made⟩ := bind_eq_ok.mp made
  cases made
  rfl

inductive CacheCall
  | activateAndReload (tls : Tls) (generation : CertificateGeneration) (renewal : RenewalState)
  | reload (tls : Tls)

def CacheCall.tls : CacheCall → Tls
  | .activateAndReload tls _ _ => tls
  | .reload tls => tls

def CacheCall.task : CacheCall → Task Nat
  | .activateAndReload tls generation renewal => Acme.activateAndReload tls generation renewal
  | .reload tls => Acme.reload tls

def cacheSystem : System CacheCall Empty Action World (Except Text Nat) where
  program := fun call => call.task.run
  effect := effect
  outside := nofun

abbrev CacheState := State CacheCall Action World (Except Text Nat)

/-- No snapshot is swapped in after one that has seen more activations. -/
def SwapsInTurn (s : CacheState) : Event CacheCall Empty → Prop
  | .advance task => ∀ action ∈ s.label? task, isSwap action = true → ∀ own ∈ loads s.history task,
      ∀ entry ∈ s.history, isSwap entry.label = true → ∀ other ∈ loads s.history entry.task, other ≤ own
  | _ => True

instance (s : CacheState) : (event : Event CacheCall Empty) → Decidable (SwapsInTurn s event)
  | .advance task => inferInstanceAs (Decidable (∀ action ∈ s.label? task, isSwap action = true →
      ∀ own ∈ loads s.history task, ∀ entry ∈ s.history, isSwap entry.label = true →
        ∀ other ∈ loads s.history entry.task, other ≤ own))
  | .spawn .. | .abandon _ => .isTrue trivial

/-- The cache has the task's generation, or one of the same certificate that has been activated later. -/
def StaysServed (history : History) (cache : Cache) (name : Text) (task : Nat) (generation : CertificateGeneration) :
    Prop :=
  ∃ before entry after cached, history = before ++ entry :: after ∧ entry.task = task ∧
    activated entry.label = [(generation.certificateId, generation.id)] ∧ cache[name]? = some cached ∧
    cached.certificateId = generation.certificateId ∧
    (cached.generationId = generation.id ∨ ∃ later ∈ after, cached.identity ∈ activated later.label)

structure Progress where
  call : Option CacheCall := none
  activated : Bool := false
  /-- The store that the call has loaded. -/
  loaded : Option Certificates.Store := none
  swapped : Bool := false

def Progress.allows (t : Progress) : Action → Prop
  | .write batch => t.loaded = none ∧ ∃ tls generation renewal,
      t.call = some (.activateAndReload tls generation renewal) ∧ activationBatch generation renewal = .ok batch
  | .read => t.call ≠ none ∧ t.loaded = none
  | .swap entries => ∃ call store, t.call = some call ∧ t.loaded = some store ∧
      loadEntries call.tls store = .ok entries
  | _ => False

def Progress.observe (t : Progress) (action : Action) (w : World) : Progress :=
  match action with
  | .write _ => { t with activated := true }
  | .read => { t with loaded := some w.store }
  | .swap _ => { t with swapped := true }
  | _ => t

def serving : Monitor Action World Progress where
  allowed := Progress.allows
  assumes _ _ _ := True
  observe := Progress.observe

/-- A call that returns has swapped what it has loaded, and an activation has been written. -/
def Completed (call : CacheCall) (t : Progress) : Prop :=
  t.call = some call ∧ t.loaded ≠ none ∧ t.swapped = true ∧
    ∀ tls generation renewal, call = .activateAndReload tls generation renewal → t.activated = true

theorem reload_completes {call : CacheCall} {tls : Tls} (uses : call.tls = tls) {activated : Bool}
    (needed : ∀ tls generation renewal, call = .activateAndReload tls generation renewal → activated = true) :
    Yields serving (fun t _ => Completed call t) { call := some call, activated } (reload tls) := by
  unfold reload
  refine .bind (.ask ⟨Option.some_ne_none _, rfl⟩ ?_)
  intro w entries _ loaded
  have allowed : serving.allowed { call := some call, activated, loaded := some w.store } (.swap entries) :=
    ⟨call, w.store, rfl, rfl, uses ▸ loaded⟩
  refine .bind (.ask allowed ?_)
  intro _ _ _ _
  exact .pure ⟨rfl, Option.some_ne_none _, rfl, needed⟩

theorem activateAndReload_completes (tls : Tls) (generation : CertificateGeneration) (renewal : RenewalState) :
    Yields serving (fun t _ => Completed (.activateAndReload tls generation renewal) t)
      { call := some (.activateAndReload tls generation renewal) } (activateAndReload tls generation renewal) := by
  refine .bind (.bind (.ofExcept fun batch made => ?_))
  refine .ask ⟨rfl, tls, generation, renewal, rfl, made⟩ ?_
  intro _ _ _ _
  exact reload_completes rfl fun _ _ _ _ => rfl

theorem task_completes (call : CacheCall) :
    Yields serving (fun t _ => Completed call t) { call := some call } call.task := by
  cases call with
  | reload tls =>
    refine reload_completes rfl ?_
    intro _ _ _ same
    cases same
  | activateAndReload tls generation renewal => exact activateAndReload_completes tls generation renewal

section Invariant

variable (start : Certificates.Store) (managed : ManagedCertificate) (name : Text) (calls : Set CacheCall)

def Valid (generation : CertificateGeneration) : Prop :=
  ∀ call ∈ calls, ∃ cached, prepareEntry call.tls managed generation = .ok cached

/-- The generations that the calls activate for the certificate are valid, and they name certificates by IDs without
a separator. -/
def ValidCalls : Prop :=
  ∀ tls generation renewal, CacheCall.activateAndReload tls generation renewal ∈ calls →
    '\x00' ∉ generation.certificateId ∧ (generation.certificateId = managed.id → Valid managed calls generation)

def Active (store : Certificates.Store) (entry : Text × Text) : Prop :=
  ∃ generation, Certificates.activeGeneration store managed.id = .ok (some generation) ∧
    Valid managed calls generation ∧ entry.2 = generation.id

structure Stored (log : List (Text × Text)) (count : Nat) (store : Certificates.Store) : Prop where
  certificates : store .certificates = start .certificates
  active : Reflects log (·.1 = managed.id) (Active managed calls store) count

structure Tracked (history : History) (task : Nat) (t : Progress) : Prop where
  known : ∀ call, t.call = some call → call ∈ calls
  unloaded : t.call ≠ none → t.loaded = none → loads history task = []
  loaded : ∀ store, t.loaded = some store →
    ∃ count, loads history task = [count] ∧ Stored start managed calls (activations history) count store
  activated : t.activated = true → ∃ tls generation renewal before entry after,
    t.call = some (.activateAndReload tls generation renewal) ∧ history = before ++ entry :: after ∧
    entry.task = task ∧ activated entry.label = [(generation.certificateId, generation.id)] ∧
    ∀ count ∈ loads history task, (activations before).length < count
  swapped : t.swapped = true → ∃ entry ∈ history, entry.task = task ∧ isSwap entry.label = true

def Shown (cache : Cache) (entry : Text × Text) : Prop :=
  ∃ cached, cache[name]? = some cached ∧ cached.identity = entry

structure CacheKept (history : History) (cache : Cache) (count : Nat) : Prop where
  shown : Reflects (activations history) (·.1 = managed.id) (Shown name cache) count
  swaps : ∀ entry ∈ history, isSwap entry.label = true →
    loads history entry.task ≠ [] ∧ ∀ seen ∈ loads history entry.task, seen ≤ count

structure ServingInv (w : World) (history : History) (seen : Nat → Progress) : Prop where
  store : Stored start managed calls (activations history) (activations history).length w.store
  cache : ∃ count, CacheKept managed name history w.cache count
  tasks : ∀ task, Tracked start managed calls history task (seen task)

end Invariant

section Steps

variable {start store : Certificates.Store} {managed : ManagedCertificate} {name : Text} {calls : Set CacheCall}
  {generation : CertificateGeneration} {renewal : RenewalState} {batch : List Certificates.Write}
  {log : List (Text × Text)} {count : Nat}

theorem write_activation (store : Certificates.Store) (made : activationBatch generation renewal = .ok batch) :
    Families.write store batch .certificates = store .certificates ∧
      Families.write store batch .activeGenerations =
        (store .activeGenerations).insert generation.certificateId generation.id ∧
      Families.write store batch .generations = (store .generations).insert
        (generationKey generation.certificateId generation.id) (.ok generation) := by
  obtain ⟨-, -, made⟩ := bind_eq_ok.mp made
  obtain ⟨-, -, made⟩ := bind_eq_ok.mp made
  cases made
  exact ⟨rfl, rfl, rfl⟩

theorem activeGeneration_activated (made : activationBatch generation renewal = .ok batch) :
    Certificates.activeGeneration (Families.write store batch) generation.certificateId = .ok (some generation) := by
  obtain ⟨-, active, rows⟩ := write_activation store made
  unfold Certificates.activeGeneration
  rw [active, rows, Families.getElem?_insert, if_pos rfl]
  dsimp only
  rw [Families.getElem?_insert, if_pos rfl]
  rfl

theorem activeGeneration_of_other (made : activationBatch generation renewal = .ok batch) {id : Text}
    (plain : '\x00' ∉ id) (separated : '\x00' ∉ generation.certificateId) (other : generation.certificateId ≠ id) :
    Certificates.activeGeneration (Families.write store batch) id = Certificates.activeGeneration store id := by
  obtain ⟨-, active, rows⟩ := write_activation store made
  unfold Certificates.activeGeneration
  rw [active, rows, Families.getElem?_insert, if_neg other]
  split
  · rfl
  · rename_i generationId _
    rw [Families.getElem?_insert, if_neg]
    grind [eq_of_prefix_generationKey, prefix_generationKey]

theorem Stored.append (stored : Stored start managed calls log count store) (more : List (Text × Text)) :
    Stored start managed calls (log ++ more) count store :=
  ⟨stored.certificates, stored.active.append more⟩

theorem Stored.activate (stored : Stored start managed calls log log.length store)
    (made : activationBatch generation renewal = .ok batch) (plain : '\x00' ∉ managed.id)
    (separated : '\x00' ∉ generation.certificateId)
    (valid : generation.certificateId = managed.id → Valid managed calls generation) :
    Stored start managed calls (log ++ [(generation.certificateId, generation.id)]) (log.length + 1)
      (Families.write store batch) := by
  refine ⟨(write_activation store made).1.trans stored.certificates, ?_⟩
  by_cases own : generation.certificateId = managed.id
  · refine reflects_push own ⟨generation, ?_, valid own, rfl⟩
    rw [← own]
    exact activeGeneration_activated made
  · refine (stored.active.mono ?_).skip own
    rintro entry - ⟨current, active, usable, same⟩
    refine ⟨current, ?_, usable, same⟩
    rwa [activeGeneration_of_other made plain separated own]

theorem Stored.shown (stored : Stored start managed calls log count store) (serves : Serves start managed name)
    {call : CacheCall} (known : call ∈ calls) {entries : Cache} (loaded : loadEntries call.tls store = .ok entries) :
    Reflects log (·.1 = managed.id) (Shown name entries) count := by
  have same : Serves store managed name := by
    obtain ⟨listed, enabled, covers, alone⟩ := serves
    rw [← stored.certificates] at listed alone
    exact ⟨listed, enabled, covers, alone⟩
  refine stored.active.mono ?_
  rintro ⟨id, generationId⟩ rfl ⟨generation, active, usable, rfl⟩
  obtain ⟨cached, prepared⟩ := usable call known
  exact ⟨cached, getElem?_loadEntries loaded same active prepared, identity_prepareEntry prepared⟩

variable {history : History} {task : Nat} {t : Progress} {entry : Entry Action World} {w : World}

theorem tracked_of_fresh {call : Option CacheCall} (known : ∀ started, call = some started → started ∈ calls)
    (absent : call ≠ none → loads history task = []) : Tracked start managed calls history task { call } where
  known := known
  unloaded := fun called _ => absent called
  loaded := fun _ loaded => absurd loaded.symm (Option.some_ne_none _)
  activated := fun done => absurd done Bool.false_ne_true
  swapped := fun done => absurd done Bool.false_ne_true

theorem tracked_idle : Tracked start managed calls history task {} :=
  tracked_of_fresh (fun _ called => absurd called.symm (Option.some_ne_none _)) fun called => absurd rfl called

theorem Tracked.concat (tracked : Tracked start managed calls history task t) (entry : Entry Action World)
    (other : ¬ (entry.task = task ∧ isLoad entry.label = true)) :
    Tracked start managed calls (history ++ [entry]) task t := by
  have same : loads (history ++ [entry]) task = loads history task := loads_concat_of_not other
  constructor
  · exact tracked.known
  · grind [Tracked.unloaded]
  · grind [Tracked.loaded, activations_concat, Stored.append]
  · intro done
    grind [Tracked.activated]
  · grind [Tracked.swapped]

theorem Tracked.write (tracked : Tracked start managed calls history task t) (allowed : t.allows (.write batch)) :
    Tracked start managed calls (history ++ [⟨task, .write batch, w⟩]) task { t with activated := true } := by
  have unread : ¬ (task = task ∧ isLoad (.write batch) = true) := by simp [isLoad]
  obtain ⟨fresh, tls, generation, renewal, called, made⟩ := allowed
  obtain ⟨known, unloaded, loaded, -, swapped⟩ := tracked.concat ⟨task, .write batch, w⟩ unread
  refine ⟨known, unloaded, loaded, fun _ => ?_, swapped⟩
  grind [activated_activationBatch]

theorem Tracked.read (tracked : Tracked start managed calls history task t) (allowed : t.allows .read)
    (current : Stored start managed calls (activations history) (activations history).length w.store) :
    Tracked start managed calls (history ++ [⟨task, .read, w⟩]) task { t with loaded := some w.store } := by
  have one : loads (history ++ [⟨task, .read, w⟩]) task = [(activations history).length] := by
    rw [loads_concat, tracked.unloaded allowed.1 allowed.2, if_pos ⟨rfl, rfl⟩, List.nil_append]
  have same : activations (history ++ [⟨task, .read, w⟩]) = activations history := by
    rw [activations_concat]
    exact List.append_nil _
  refine ⟨tracked.known, fun _ => nofun, ?_, ?_, ?_⟩
  · grind
  · intro done
    obtain ⟨tls, generation, renewal, before, own, after, called, rfl, mine, activates, -⟩ := tracked.activated done
    refine ⟨tls, generation, renewal, before, own, after ++ [⟨task, .read, w⟩], called, by simp, mine, activates, ?_⟩
    grind [activations]
  · grind [Tracked.swapped]

theorem Tracked.swap (tracked : Tracked start managed calls history task t) (entries : Cache) :
    Tracked start managed calls (history ++ [⟨task, .swap entries, w⟩]) task { t with swapped := true } := by
  have unread : ¬ (task = task ∧ isLoad (.swap entries) = true) := by simp [isLoad]
  obtain ⟨known, unloaded, loaded, activates, -⟩ := tracked.concat ⟨task, .swap entries, w⟩ unread
  exact ⟨known, unloaded, loaded, activates, fun _ => ⟨_, List.mem_append_right _ (List.mem_singleton_self _), rfl, rfl⟩⟩

theorem CacheKept.concat {cache : Cache} (kept : CacheKept managed name history cache count)
    (unswapped : isSwap entry.label = false) (unloaded : isLoad entry.label = true → loads history entry.task = []) :
    CacheKept managed name (history ++ [entry]) cache count := by
  constructor
  · rw [activations_concat]
    exact kept.shown.append _
  · intro other member swaps
    rcases List.mem_append.mp member with earlier | last
    · obtain ⟨loaded, bounded⟩ := kept.swaps other earlier swaps
      have same : loads (history ++ [entry]) other.task = loads history other.task := by grind [loads_concat_of_not]
      rw [same]
      exact ⟨loaded, bounded⟩
    · grind

theorem CacheKept.swap {cache entries : Cache} {seen : Nat} (kept : CacheKept managed name history cache count)
    (one : loads history task = [seen])
    (shown : Reflects (activations history) (·.1 = managed.id) (Shown name entries) seen)
    (later : ∀ entry ∈ history, isSwap entry.label = true → ∀ other ∈ loads history entry.task, other ≤ seen) :
    CacheKept managed name (history ++ [⟨task, .swap entries, w⟩]) entries seen := by
  have same : ∀ other, loads (history ++ [⟨task, .swap entries, w⟩]) other = loads history other := by
    intro other
    apply loads_concat_of_not
    simp [isLoad]
  constructor
  · rw [activations_concat]
    exact shown.append _
  · intro entry member swaps
    rw [same]
    grind [CacheKept.swaps]

end Steps

section Interleavings

variable {start : Certificates.Store} {managed : ManagedCertificate} {name : Text} {calls : Set CacheCall}

def Starts (calls : Set CacheCall) : Event CacheCall Empty → Prop
  | .spawn _ call => call ∈ calls
  | _ => True

theorem ServingInv.advance {w changed : World} {history : History} {seen : Nat → Progress} {task : Nat}
    {action : Action} (inv : ServingInv start managed name calls w history seen) (serves : Serves start managed name)
    (plain : '\x00' ∉ managed.id) (valid : ValidCalls managed calls) (allowed : (seen task).allows action)
    (taken : effect action w = some changed)
    (turn : isSwap action = true → ∀ own ∈ loads history task, ∀ entry ∈ history, isSwap entry.label = true →
      ∀ other ∈ loads history entry.task, other ≤ own) :
    ServingInv start managed name calls changed (history ++ [⟨task, action, w⟩])
      (Function.update seen task ((seen task).observe action w)) := by
  obtain ⟨stored, ⟨count, kept⟩, tasks⟩ := inv
  have own := tasks task
  have tracked : Tracked start managed calls (history ++ [⟨task, action, w⟩]) task ((seen task).observe action w) →
      ∀ other, Tracked start managed calls (history ++ [⟨task, action, w⟩]) other
        (Function.update seen task ((seen task).observe action w) other) := by
    intro moved
    refine (Function.forall_update_iff seen _).mpr ⟨moved, fun other different => ?_⟩
    grind [Tracked.concat]
  cases action with
  | read =>
    cases taken
    refine ⟨?_, ⟨count, kept.concat rfl fun _ => own.unloaded allowed.1 allowed.2⟩, tracked (own.read allowed stored)⟩
    rw [activations_concat]
    simpa [activated] using stored
  | write batch =>
    cases taken
    obtain ⟨-, tls, generation, renewal, called, made⟩ := id allowed
    obtain ⟨separated, usable⟩ := valid tls generation renewal (own.known _ called)
    refine ⟨?_, ⟨count, kept.concat rfl nofun⟩, tracked (own.write allowed)⟩
    rw [activations_concat, activated_activationBatch made, List.length_append]
    exact stored.activate made plain separated usable
  | swap entries =>
    cases taken
    -- The only step that replaces the cache, by what the call has loaded at some earlier time.
    obtain ⟨call, store, called, loaded, read⟩ := allowed
    obtain ⟨seen, one, snapshot⟩ := own.loaded store loaded
    have shown := snapshot.shown serves (own.known call called) read
    refine ⟨?_, ⟨seen, kept.swap one shown (turn rfl seen (by simp [one]))⟩, tracked (own.swap entries)⟩
    rw [activations_concat]
    simpa [activated] using stored
  | lock | unlock | load | recallRejection | putRejection | script | verified => cases allowed

theorem ServingInv.restart {w : World} {history : History} {seen : Nat → Progress} {task : Nat} {t : Progress}
    (inv : ServingInv start managed name calls w history seen)
    (tracked : Tracked start managed calls history task t) :
    ServingInv start managed name calls w history (Function.update seen task t) where
  store := inv.store
  cache := inv.cache
  tasks := (Function.forall_update_iff seen _).mpr ⟨tracked, fun other _ => inv.tasks other⟩

theorem keeps_serving (serves : Serves start managed name) (plain : '\x00' ∉ managed.id)
    (valid : ValidCalls managed calls) :
    Keeps cacheSystem serving (fun call => { call := some call }) {}
      (fun call => Outcome (fun t _ => Completed call t) fun _ _ => True)
      (fun s event => SwapsInTurn s event ∧ Starts calls event) (ServingInv start managed name calls) where
  programs := task_completes
  assumes := fun _ _ _ _ _ _ _ _ => trivial
  advance := by
    intro s seen task action changed watched meets labelled allowed taken
    exact watched.holds.advance serves plain valid allowed taken fun swaps => meets.1 action labelled swaps
  spawn := by
    intro s seen task call watched meets free
    apply watched.holds.restart
    apply tracked_of_fresh
    · intro started same
      cases same
      exact meets.2
    · grind [loads_eq_nil, Watched.spawned]
  abandon := by
    intro s seen task watched
    exact watched.holds.restart tracked_idle
  outside := fun _ _ change => change.elim

/-- Once an activation has returned, the cache has its generation or one that has been activated later, as long as
snapshots are swapped in turn. -/
theorem activation_stays_served {w : World} {events : List (Event CacheCall Empty)} {last : CacheState}
    (serves : Serves w.store managed name) (plain : '\x00' ∉ managed.id) (valid : ValidCalls managed calls)
    (started : ∀ event ∈ events, Starts calls event)
    (meets : Runs.Meets (step cacheSystem) SwapsInTurn { shared := w } events)
    (whole : Runs.run (step cacheSystem) { shared := w } events = some last)
    {task : Nat} {tls : Tls} {generation : CertificateGeneration} {renewal : RenewalState} {domains : Nat}
    (own : generation.certificateId = managed.id)
    (returned : last.returned? task = some (.activateAndReload tls generation renewal, .ok domains)) :
    StaysServed last.history last.shared.cache name task generation := by
  have first : ServingInv w.store managed name calls w [] fun _ => {} := by
    refine ⟨⟨rfl, reflects_zero⟩, ⟨0, reflects_zero, fun _ none => (List.not_mem_nil none).elim⟩, fun _ => ?_⟩
    exact tracked_idle
  obtain ⟨seen, watched⟩ := (keeps_serving serves plain valid).run (watched_initial first)
    (meets.and_forall _ started) whole
  obtain ⟨called, loaded, swapped, written⟩ := watched.returned returned
  have tracked := watched.holds.tasks task
  obtain ⟨count, kept⟩ := watched.holds.cache
  obtain ⟨store, loaded⟩ := Option.ne_none_iff_exists'.mp loaded
  obtain ⟨seen, one, -⟩ := tracked.loaded store loaded
  obtain ⟨entry, member, rfl, swaps⟩ := tracked.swapped swapped
  have bounded := (kept.swaps entry member swaps).2 seen (by simp [one])
  obtain ⟨_, _, _, before, mine, after, same, split, belongs, activates, earlier⟩ :=
    tracked.activated (written _ _ _ rfl)
  cases called.symm.trans same
  -- Its activation comes before its load, and the cache has seen at least what the call has loaded.
  have early := earlier seen (by simp [one])
  have shown := kept.shown
  rw [split, activations_append, activations, activations, List.flatMap_cons, activates, List.singleton_append] at shown
  obtain ⟨current, about, ⟨cached, found, rfl⟩, either⟩ :=
    shown.shows_or_later (Nat.lt_of_lt_of_le early bounded) own
  refine ⟨before, mine, after, cached, split, belongs, activates, found, about.trans own.symm, ?_⟩
  rcases either with same | later
  · exact .inl (congrArg Prod.snd same)
  · grind

end Interleavings

section Example

def kiosk : ManagedCertificate where
  id := "kiosk.example".toList
  domains := ["kiosk.example".toList]

def kioskWorld : World where
  store := Families.write Certificates.Store.empty [.put .certificates kiosk.id (.ok kiosk)]

def kioskTls : Tls where
  parse := fun _ => .ok { key := [], notAfter := 1, subjectAltName := some [kiosk.id] }
  now := 0

def kioskGeneration : CertificateGeneration where
  id := "first".toList
  certificateId := kiosk.id

def kioskActivation : CacheCall := .activateAndReload kioskTls kioskGeneration { certificateId := kiosk.id }

def kioskCalls : Set CacheCall := {.reload kioskTls, kioskActivation}

theorem kiosk_serves : Serves kioskWorld.store kiosk kiosk.id where
  listed := by decide +kernel
  enabled := rfl
  covers := ⟨kiosk.id, List.mem_singleton_self _, by decide⟩
  alone := by
    intro id other found _ _
    rcases Families.mem_or_of_getElem?_write found with put | ⟨absent, -⟩
    · cases List.mem_singleton.mp put
      rfl
    · cases absent

theorem kioskCalls_valid : ValidCalls kiosk kioskCalls := by
  intro tls generation renewal member
  rcases member with same | same
  · cases same
  · cases same
    refine ⟨by decide, fun _ call member => ⟨⟨kiosk.id, kioskGeneration.id, []⟩, ?_⟩⟩
    rcases member with rfl | rfl <;> decide

/-- A reload takes its snapshot before the activation and swaps it in afterwards. -/
def lateSwap : List (Event CacheCall Empty) :=
  [.spawn 0 (.reload kioskTls), .spawn 1 kioskActivation, .advance 0, .advance 1, .advance 1, .advance 1, .advance 0]

def timelySwap : List (Event CacheCall Empty) :=
  [.spawn 0 (.reload kioskTls), .spawn 1 kioskActivation, .advance 1, .advance 0, .advance 1, .advance 1, .advance 0]

def CacheCall.generation? : CacheCall → Option CertificateGeneration
  | .activateAndReload _ generation _ => some generation
  | .reload _ => none

def outcome (last : CacheState) : Option (Option CertificateGeneration × Option Nat) × Option (Text × Text) :=
  ((last.returned? 1).map fun returned => (returned.1.generation?, returned.2.toOption),
    (last.shared.cache[kiosk.id]?).map CachedCertificate.identity)

theorem returned_of_outcome {last : CacheState} {generation : CertificateGeneration} {domains : Nat}
    (same : (outcome last).1 = some (some generation, some domains)) :
    ∃ tls renewal, last.returned? 1 = some (.activateAndReload tls generation renewal, .ok domains) := by
  obtain ⟨⟨call, result⟩, returned, same⟩ := Option.map_eq_some_iff.mp same
  cases call with
  | reload tls => cases same
  | activateAndReload tls other renewal =>
    cases result with
    | error cause => cases same
    | ok count =>
      cases same
      exact ⟨tls, renewal, returned⟩

/-- The activation has returned, and nothing is served. -/
theorem late_swap_undoes_activation :
    Serves kioskWorld.store kiosk kiosk.id ∧ ValidCalls kiosk kioskCalls ∧
    (∀ event ∈ lateSwap, Starts kioskCalls event) ∧
    ∃ last tls renewal, Runs.run (step cacheSystem) { shared := kioskWorld } lateSwap = some last ∧
      last.returned? 1 = some (.activateAndReload tls kioskGeneration renewal, .ok 1) ∧
      ¬ StaysServed last.history last.shared.cache kiosk.id 1 kioskGeneration := by
  have summary : (Runs.run (step cacheSystem) { shared := kioskWorld } lateSwap).map outcome =
      some (some (some kioskGeneration, some 1), none) := by
    decide +kernel
  obtain ⟨last, whole, same⟩ := Option.map_eq_some_iff.mp summary
  obtain ⟨tls, renewal, returned⟩ := returned_of_outcome (congrArg Prod.fst same)
  refine ⟨kiosk_serves, kioskCalls_valid, ?_, last, tls, renewal, whole, returned, ?_⟩
  · simp [lateSwap, Starts, kioskCalls]
  · rintro ⟨-, -, -, cached, -, -, -, found, -⟩
    grind [outcome]

/-- The reload swaps in a snapshot that has seen the activation. -/
theorem activation_stays_served_timely :
    ∃ last tls renewal, Runs.run (step cacheSystem) { shared := kioskWorld } timelySwap = some last ∧
      last.returned? 1 = some (.activateAndReload tls kioskGeneration renewal, .ok 1) ∧
      StaysServed last.history last.shared.cache kiosk.id 1 kioskGeneration := by
  have meets : Runs.Meets (step cacheSystem) SwapsInTurn { shared := kioskWorld } timelySwap := by decide +kernel
  have summary : (Runs.run (step cacheSystem) { shared := kioskWorld } timelySwap).map outcome =
      some (some (some kioskGeneration, some 1), some (kiosk.id, kioskGeneration.id)) := by
    decide +kernel
  obtain ⟨last, whole, same⟩ := Option.map_eq_some_iff.mp summary
  obtain ⟨tls, renewal, returned⟩ := returned_of_outcome (congrArg Prod.fst same)
  have started : ∀ event ∈ timelySwap, Starts kioskCalls event := by simp [timelySwap, Starts, kioskCalls]
  exact ⟨last, tls, renewal, whole, returned, activation_stays_served kiosk_serves (by decide) kioskCalls_valid started
    meets whole rfl returned⟩

end Example

end TlsProxy.Acme
