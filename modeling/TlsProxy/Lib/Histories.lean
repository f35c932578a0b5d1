import TlsProxy.Lib.Programs

/-! What a task may do next is said of its trace, the actions it has done and the
states that they have found. Histories are read backwards here, the latest
action first. -/
namespace Programs

variable {ο κ ℓ σ ρ α β : Type}

/-- The program where its labels and its state are parts of larger ones. -/
def Program.embed (label : ℓ → κ) (view : ρ → σ) : Program ℓ σ α → Program κ ρ α
  | .done result => .done result
  | .action own next => .action (label own) fun s => (next (view s)).embed label view

theorem Program.embed_bind (label : ℓ → κ) (view : ρ → σ) (program : Program ℓ σ α) (rest : α → Program ℓ σ β) :
    (program >>= rest).embed label view = program.embed label view >>= fun a => (rest a).embed label view := by
  induction program with
  | done result => rfl
  | action own next ih => exact congrArg (Program.action (label own)) (funext fun s => ih (view s))

/-- A monitor of the larger system, as the program sees it. -/
def Monitor.comap {τ : Type} (monitor : Monitor κ σ τ) (label : ℓ → κ) : Monitor ℓ σ τ where
  allowed t own := monitor.allowed t (label own)
  assumes t own := monitor.assumes t (label own)
  observe t own := monitor.observe t (label own)

theorem Obeys.embed {τ : Type} {monitor : Monitor κ σ τ} {post : τ → α → Prop} {label : ℓ → κ} {t : τ}
    {program : Program ℓ σ α} (obeys : Obeys (monitor.comap label) post t program) :
    Obeys monitor post t (program.embed label id) := by
  induction program generalizing t with
  | done result => exact obeys
  | action own next ih => exact ⟨obeys.1, fun s known => ih s (obeys.2 s known)⟩

/-- Every action finds what the one before has left. -/
def Leads (effect : ℓ → σ → Option σ) (first : σ) : List (Entry ℓ σ) → σ → Prop
  | [], last => first = last
  | entry :: earlier, last => Leads effect first earlier entry.found ∧ effect entry.label entry.found = some last

def trace (task : Nat) (past : List (Entry ℓ σ)) : List (ℓ × σ) :=
  (past.filter fun entry => entry.task == task).map fun entry => (entry.label, entry.found)

theorem trace_cons_self (task : Nat) (label : ℓ) (found : σ) (past : List (Entry ℓ σ)) :
    trace task (⟨task, label, found⟩ :: past) = (label, found) :: trace task past := by
  simp [trace]

theorem trace_cons_of_ne {task : Nat} {entry : Entry ℓ σ} (other : entry.task ≠ task) (past : List (Entry ℓ σ)) :
    trace task (entry :: past) = trace task past := by
  simp [trace, other]

theorem trace_eq_nil {task : Nat} {past : List (Entry ℓ σ)} (absent : ∀ entry ∈ past, entry.task ≠ task) :
    trace task past = [] := by
  rw [trace, List.filter_eq_nil_iff.mpr fun entry member => by simpa using absent entry member]
  rfl

theorem mem_trace {entry : Entry ℓ σ} {past : List (Entry ℓ σ)} (member : entry ∈ past) :
    (entry.label, entry.found) ∈ trace entry.task past :=
  List.mem_map.mpr ⟨entry, List.mem_filter.mpr ⟨member, beq_self_eq_true _⟩, rfl⟩

theorem exists_of_mem_trace {task : Nat} {past : List (Entry ℓ σ)} {label : ℓ} {found : σ}
    (member : (label, found) ∈ trace task past) : ∃ entry ∈ past, entry.label = label ∧ entry.found = found := by
  obtain ⟨entry, inside, same⟩ := List.mem_map.mp member
  obtain ⟨rfl, rfl⟩ := Prod.mk.inj same
  exact ⟨entry, List.mem_of_mem_filter inside, rfl, rfl⟩

/-- The actions from the task's last but `k` one on. -/
def since (task : Nat) : Nat → List (Entry ℓ σ) → List (Entry ℓ σ)
  | _, [] => []
  | k, entry :: earlier =>
    if entry.task ≠ task then entry :: since task k earlier
    else if k = 0 then [entry]
    else entry :: since task (k - 1) earlier

theorem since_cons_of_ne {task : Nat} {entry : Entry ℓ σ} (other : entry.task ≠ task) (k : Nat)
    (past : List (Entry ℓ σ)) : since task k (entry :: past) = entry :: since task k past := by
  rw [since, if_pos other]

theorem since_succ (entry : Entry ℓ σ) (k : Nat) (past : List (Entry ℓ σ)) :
    since entry.task (k + 1) (entry :: past) = entry :: since entry.task k past := by simp [since]

/-- What no action since then has changed is as the task has found it. -/
theorem Leads.kept {γ : Type} {effect : ℓ → σ → Option σ} {first last : σ} {past : List (Entry ℓ σ)}
    (leads : Leads effect first past last) {task k : Nat} {label : ℓ} {found : σ}
    (done : (trace task past)[k]? = some (label, found)) {f : σ → γ}
    (kept : ∀ entry ∈ since task k past, ∀ next, effect entry.label entry.found = some next →
      f next = f entry.found) : f last = f found := by
  induction past generalizing k last with
  | nil => cases done
  | cons entry earlier ih =>
    obtain ⟨leads, possible⟩ := leads
    by_cases own : entry.task = task
    · subst own
      rw [trace_cons_self entry.task entry.label entry.found] at done
      cases k with
      | zero => grind [since]
      | succ k => grind [since_succ]
    · grind [trace_cons_of_ne, since_cons_of_ne]

theorem mem_since_of_le {task k m : Nat} (le : k ≤ m) {past : List (Entry ℓ σ)} {entry : Entry ℓ σ}
    (member : entry ∈ since task k past) : entry ∈ since task m past := by
  induction past generalizing k m with
  | nil => exact member
  | cons first earlier ih =>
    rw [since] at member ⊢
    split at member
    · grind
    · rw [if_neg ‹_›]
      split at member
      · grind
      · grind

/-- The invariant holds in every state of the history. -/
def Always (inv : σ → List (Entry ℓ σ) → Prop) : σ → List (Entry ℓ σ) → Prop
  | s, [] => inv s []
  | s, entry :: earlier => inv s (entry :: earlier) ∧ Always inv entry.found earlier

theorem Always.now {inv : σ → List (Entry ℓ σ) → Prop} {s : σ} {past : List (Entry ℓ σ)}
    (always : Always inv s past) : inv s past := by
  cases past with
  | nil => exact always
  | cons entry earlier => exact always.1

theorem Always.earlier {inv : σ → List (Entry ℓ σ) → Prop} {s : σ} {later past : List (Entry ℓ σ)}
    (always : Always inv s (later ++ past)) : ∃ found, inv found past := by
  induction later generalizing s with
  | nil => exact ⟨s, always.now⟩
  | cons entry between ih => exact ih always.2

/-- Each action finds the value that the task's own actions have left. -/
def Solo {γ : Type} (effect : ℓ → σ → Option σ) (f : σ → γ) : List (ℓ × σ) → γ → Prop
  | [], _ => True
  | (label, found) :: earlier, value =>
    (∃ next, effect label found = some next ∧ f next = value) ∧ Solo effect f earlier (f found)

def sinceStart (task : Nat) (past : List (Entry ℓ σ)) : List (Entry ℓ σ) :=
  if trace task past = [] then [] else since task ((trace task past).length - 1) past

theorem sinceStart_cons_of_ne {task : Nat} {entry : Entry ℓ σ} (other : entry.task ≠ task) {past : List (Entry ℓ σ)}
    (started : trace task past ≠ []) : sinceStart task (entry :: past) = entry :: sinceStart task past := by
  grind [sinceStart, trace_cons_of_ne, since_cons_of_ne]

theorem mem_sinceStart_cons {entry later : Entry ℓ σ} {past : List (Entry ℓ σ)}
    (member : later ∈ sinceStart entry.task past) : later ∈ sinceStart entry.task (entry :: past) := by
  rw [sinceStart] at member ⊢
  split at member
  · exact absurd member List.not_mem_nil
  · rename_i started
    rw [trace_cons_self entry.task entry.label entry.found, if_neg (List.cons_ne_nil _ _), List.length_cons,
      Nat.add_sub_cancel]
    obtain ⟨k, count⟩ : ∃ k, (trace entry.task past).length = k + 1 :=
      ⟨_, (Nat.succ_pred_eq_of_pos (List.length_pos_iff.mpr started)).symm⟩
    grind [since_succ]

/-- What no other task has changed since its first action, a task finds as its own actions have left it. -/
theorem Leads.solo {γ : Type} {effect : ℓ → σ → Option σ} {first last : σ} {past : List (Entry ℓ σ)}
    (leads : Leads effect first past last) {task : Nat} {f : σ → γ}
    (kept : ∀ entry ∈ sinceStart task past, entry.task ≠ task → ∀ next, effect entry.label entry.found = some next →
      f next = f entry.found) : Solo effect f (trace task past) (f last) := by
  induction past generalizing last with
  | nil => trivial
  | cons entry earlier ih =>
    obtain ⟨leads, possible⟩ := leads
    by_cases own : entry.task = task
    · subst own
      rw [trace_cons_self entry.task entry.label entry.found]
      exact ⟨⟨last, possible, rfl⟩, ih leads fun later member => kept later (mem_sinceStart_cons member)⟩
    · rw [trace_cons_of_ne own]
      by_cases started : trace task earlier = []
      · rw [started]
        trivial
      · grind [sinceStart_cons_of_ne]

def State.past (s : State ο ℓ σ α) : List (Entry ℓ σ) := s.history.reverse

/-- What a program may do after its trace; the states that it finds are sound. -/
def tracking (may : List (ℓ × σ) → ℓ → Prop) (sound : List (ℓ × σ) → σ → Prop) : Monitor ℓ σ (List (ℓ × σ)) where
  allowed := may
  assumes steps _ s := sound steps s
  observe steps label s := (label, s) :: steps

theorem Obeys.tagged {may : List (ℓ × σ) → ℓ → Prop} {sound : List (ℓ × σ) → σ → Prop}
    {post : List (ℓ × σ) → α → Prop} {label : κ → ℓ} {steps : List (ℓ × σ)} {program : Program κ σ α}
    (own : ℓ → Prop) (tags : ∀ inner, own (label inner)) (owned : ∀ entry ∈ steps, own entry.1)
    (obeys : Obeys ((tracking may sound).comap label) post steps program) :
    Obeys (tracking may sound) (fun steps result => post steps result ∧ ∀ entry ∈ steps, own entry.1) steps
      (program.embed label id) := by
  induction program generalizing steps with
  | done result => exact ⟨obeys, owned⟩
  | action inner next ih =>
    refine ⟨obeys.1, fun s known => ih s ?_ (obeys.2 s known)⟩
    intro entry member
    rcases List.mem_cons.mp member with rfl | old
    · exact tags inner
    · exact owned entry old

def Observes (condition : σ → List (Entry ℓ σ) → Nat → ℓ → Prop) (s : State ο ℓ σ α) : Event ο Empty → Prop
  | .advance task => ∀ label ∈ s.label? task, condition s.shared s.past task label
  | _ => True

instance {condition : σ → List (Entry ℓ σ) → Nat → ℓ → Prop}
    [∀ shared past task label, Decidable (condition shared past task label)] (s : State ο ℓ σ α) :
    (event : Event ο Empty) → Decidable (Observes condition s event)
  | .advance task => inferInstanceAs (Decidable (∀ label ∈ s.label? task, condition s.shared s.past task label))
  | .spawn .. | .abandon _ | .outside _ => .isTrue trivial

/-- The history leads to the present state, every task goes on as its trace lets it, and the invariant holds. -/
structure Tracked (effect : ℓ → σ → Option σ) (first : σ) (may : List (ℓ × σ) → ℓ → Prop)
    (sound : List (ℓ × σ) → σ → Prop) (post : ο → List (ℓ × σ) → α → Prop)
    (inv : σ → List (Entry ℓ σ) → Prop) (s : State ο ℓ σ α) : Prop where
  leads : Leads effect first s.past s.shared
  spawned : ∀ entry ∈ s.past, s.tasks entry.task ≠ none
  follows : ∀ task operation program, s.tasks task = some (operation, some program) →
    Obeys (tracking may sound) (post operation) (trace task s.past) program
  holds : inv s.shared s.past

/-- What has to be shown: the programs do only what they may, and such an action keeps the invariant where it meets
the condition. -/
structure Tracks (system : System ο Empty ℓ σ α) (first : σ) (may : List (ℓ × σ) → ℓ → Prop)
    (sound : List (ℓ × σ) → σ → Prop) (post : ο → List (ℓ × σ) → α → Prop)
    (condition : σ → List (Entry ℓ σ) → Nat → ℓ → Prop) (inv : σ → List (Entry ℓ σ) → Prop) : Prop where
  programs : ∀ operation, Obeys (tracking may sound) (post operation) [] (system.program operation)
  start : inv first []
  sound : ∀ shared past task, inv shared past → sound (trace task past) shared
  advance : ∀ shared past task label next, Leads system.effect first past shared → inv shared past →
    may (trace task past) label → condition shared past task label → system.effect label shared = some next →
    inv next (⟨task, label, shared⟩ :: past)

section Runs

variable {system : System ο Empty ℓ σ α} {first : σ} {may : List (ℓ × σ) → ℓ → Prop}
  {sound : List (ℓ × σ) → σ → Prop} {post : ο → List (ℓ × σ) → α → Prop}
  {condition : σ → List (Entry ℓ σ) → Nat → ℓ → Prop} {inv : σ → List (Entry ℓ σ) → Prop}

theorem Tracks.initial (tracks : Tracks system first may sound post condition inv) :
    Tracked system.effect first may sound post inv ({ shared := first } : State ο ℓ σ α) := by
  refine ⟨rfl, fun _ none => (List.not_mem_nil none).elim, ?_, tracks.start⟩
  simp

theorem Tracks.step (tracks : Tracks system first may sound post condition inv) {s next : State ο ℓ σ α}
    {event : Event ο Empty} (tracked : Tracked system.effect first may sound post inv s)
    (meets : Observes condition s event) (taken : Programs.step system s event = some next) :
    Tracked system.effect first may sound post inv next := by
  obtain ⟨leads, spawned, follows, holds⟩ := tracked
  cases event with
  | spawn task operation =>
    simp only [Programs.step] at taken
    split at taken
    · rename_i free
      cases taken
      refine ⟨leads, fun entry member => update_ne_none (spawned entry member), ?_, holds⟩
      intro other call program running
      by_cases same : other = task
      · subst same
        simp only [Function.update_self] at running
        cases running
        have absent : ∀ entry ∈ s.past, entry.task ≠ other := by grind
        change Obeys _ _ (trace other s.past) _
        rw [trace_eq_nil absent]
        exact tracks.programs _
      · simp only [Function.update_of_ne same] at running
        exact follows other call program running
    · cases taken
  | advance task =>
    simp only [Programs.step] at taken
    split at taken
    · rename_i operation label rest running
      obtain ⟨changed, possible, rfl⟩ := Option.map_eq_some_iff.mp taken
      have obeys := follows task operation _ running
      have condition := meets label (label?_of_task running)
      have past : ∀ (tasks : Nat → Option (ο × Option (Program ℓ σ α))), State.past
          { shared := changed, tasks, history := s.history ++ [⟨task, label, s.shared⟩] } =
            ⟨task, label, s.shared⟩ :: s.past := by
        intro tasks
        simp [State.past]
      refine ⟨?_, ?_, ?_, ?_⟩
      · rw [past]
        exact ⟨leads, possible⟩
      · grind
      · rw [past]
        intro other call program later
        by_cases same : other = task
        · subst same
          simp only [Function.update_self] at later
          cases later
          rw [trace_cons_self]
          exact obeys.2 s.shared (tracks.sound s.shared s.past other holds)
        · grind [trace_cons_of_ne]
      · rw [past]
        exact tracks.advance s.shared s.past task label changed leads holds obeys.1 condition possible
    · cases taken
  | abandon task =>
    obtain ⟨entry, -, rfl⟩ := Option.map_eq_some_iff.mp taken
    refine ⟨leads, fun entry member => update_ne_none (spawned entry member), ?_, holds⟩
    intro other call program running
    by_cases same : other = task
    · grind
    · simp only [Function.update_of_ne same] at running
      exact follows other call program running
  | outside change => exact change.elim

theorem Tracks.run (tracks : Tracks system first may sound post condition inv) {last : State ο ℓ σ α}
    {events : List (Event ο Empty)}
    (meets : Runs.Meets (Programs.step system) (Observes condition) { shared := first } events)
    (whole : Runs.run (Programs.step system) { shared := first } events = some last) :
    Tracked system.effect first may sound post inv last :=
  Runs.run_invariant (Programs.step system) (fun _ _ _ tracked meets taken => tracks.step tracked meets taken)
    tracks.initial meets whole

theorem Tracks.always (tracks : Tracks system first may sound post condition inv) :
    Tracks system first may sound post condition (Always inv) where
  programs := tracks.programs
  start := tracks.start
  sound := fun shared past task always => tracks.sound shared past task always.now
  advance := fun shared past task label next leads always may condition taken =>
    ⟨tracks.advance shared past task label next leads always.now may condition taken, always⟩

theorem Tracked.returned {effect : ℓ → σ → Option σ} {s : State ο ℓ σ α}
    (tracked : Tracked effect first may sound post inv s) {task : Nat} {operation : ο} {result : α}
    (returned : s.returned? task = some (operation, result)) : post operation (trace task s.past) result := by
  unfold State.returned? at returned
  split at returned
  · rename_i finished
    cases returned
    exact tracked.follows task operation _ finished
  · cases returned

end Runs

end Programs
