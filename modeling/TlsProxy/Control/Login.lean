import Mathlib.Data.Finset.Card
import TlsProxy.Acme.Renewal
import TlsProxy.Control.Publication
import TlsProxy.Lib.Histories
import TlsProxy.Store.Database

/-! `login`: the throttle is looked at before the user is looked up and the password
verified, and a failure is counted afterwards, in a critical section of its own. -/
namespace TlsProxy.Control

open Config Certificates Store Acme Programs

structure LoginForm where
  username : Text
  password : Text
  remember : Option Text := none

structure SessionRecord where
  tokenHash : Text := []
  username : Text := []
  csrfToken : Text := []
  createdAt : Option OffsetDateTime := none
  expiresAt : Option OffsetDateTime := none
deriving DecidableEq

structure LoginService where
  verifyPassword : Text → Text → Bool
  token : Text
  csrfToken : Text
  tokenHash : Text → Text
  now : OffsetDateTime

structure LoginState where
  users : Std.ExtTreeMap Text (Json UserRecord)
  sessions : Std.ExtTreeMap Text SessionRecord := ∅
  attempts : Attempts := ∅
  clock : Nat := 0

inductive LoginAction
  /-- The throttle is looked at, and forgets attempts of more than five minutes ago. -/
  | check (key : Text)
  | lookUp
  | verify (key : Text) (passed : Bool)
  | recordFailure (key : Text)
  | forget (key : Text)
  | saveSession (session : SessionRecord)
  | tick (span : Nat)
deriving DecidableEq

def loginEffect (action : LoginAction) (s : LoginState) : Option LoginState :=
  match action with
  | .check _ => some { s with attempts := s.attempts.retain (seconds 300) s.clock }
  | .lookUp | .verify .. => some s
  | .recordFailure key => some { s with attempts := s.attempts.bump key s.clock }
  | .forget key => some { s with attempts := s.attempts.erase key }
  | .saveSession session => some { s with sessions := s.sessions.insert session.tokenHash session }
  | .tick span => some { s with clock := s.clock + span }

def throttleKey (username : Text) : Text := Text.toAsciiLowercase (Text.trim username)

def LoginState.blocked (s : LoginState) (key : Text) : Bool :=
  (s.attempts.retain (seconds 300) s.clock)[key]?.any fun entry => 5 ≤ entry.1

def act {α : Type} (action : LoginAction) (answer : LoginState → α) : Program LoginAction LoginState α :=
  .action action fun s => .done (answer s)

def rejectLogin (key : Text) : Program LoginAction LoginState Response := do
  act (.recordFailure key) fun _ => ()
  return unauthorized "Invalid username or password".toList

def sessionHours (form : LoginForm) : Nat := if form.remember.isSome then 30 * 24 else 12

def sessionCookie (service : LoginService) (form : LoginForm) : Text :=
  "tlsproxy_session=".toList ++ service.token ++ "; Path=/; Max-Age=".toList ++
    (toString (sessionHours form * 3600)).toList ++ "; HttpOnly; Secure; SameSite=Strict".toList

def saveSession (session : SessionRecord) : Program LoginAction LoginState (Except Text Unit) :=
  if session.tokenHash = [] ∨ session.username = [] then
    return .error "session token hash and username are required".toList
  else act (.saveSession session) fun _ => .ok ()

def newSession (service : LoginService) (form : LoginForm) (user : UserRecord) : SessionRecord where
  tokenHash := service.tokenHash service.token
  username := user.username
  csrfToken := service.csrfToken
  createdAt := some service.now
  expiresAt := some (service.now + hours (sessionHours form))

def acceptLogin (service : LoginService) (form : LoginForm) (key : Text) (user : UserRecord) :
    Program LoginAction LoginState Response := do
  act (.forget key) fun _ => ()
  match ← saveSession (newSession service form user) with
  | .error cause => return internal cause
  | .ok () =>
    return {
      status := 303
      headers := [("location".toList, "/".toList), ("set-cookie".toList, sessionCookie service form)] }

def login (service : LoginService) (form : LoginForm) : Program LoginAction LoginState Response := do
  let key := throttleKey form.username
  if ← act (.check key) fun s => s.blocked key then
    return { status := 429, body := .text "Too many login attempts".toList }
  match ← act .lookUp fun s => decoded s.users[form.username]? with
  | .ok (some user) =>
    if user.disabled then rejectLogin key
    else
      let passed := service.verifyPassword user.passwordHash form.password
      act (.verify key passed) fun _ => ()
      if passed then acceptLogin service form key user else rejectLogin key
  | _ => rejectLogin key

inductive LoginCall
  | login (service : LoginService) (form : LoginForm)
  /-- Time passes. -/
  | wait (span : Nat)

def LoginCall.program : LoginCall → Program LoginAction LoginState (Option Response)
  | .login service form => some <$> Control.login service form
  | .wait span => act (.tick span) fun _ => none

def loginSystem : System LoginCall Empty LoginAction LoginState (Option Response) where
  program := LoginCall.program
  effect := loginEffect
  outside := nofun

abbrev LoginEntry := Entry LoginAction LoginState

def failsVerification (key : Text) (entry : LoginEntry) : Bool := entry.label = .verify key false

def recordsFailure (key : Text) (entry : LoginEntry) : Bool := entry.label = .recordFailure key

structure Opens (key : Text) (opening : LoginEntry) : Prop where
  records : opening.label = .recordFailure key
  fresh : opening.found.attempts[key]? = none

def inWindow (opening : LoginEntry) (after : List LoginEntry) : List LoginEntry :=
  after.takeWhile fun entry => entry.found.clock < opening.found.clock + seconds 300

/-- The request of the trace has been admitted under the key and has not recorded its outcome. -/
def pending (key : Text) : List (LoginAction × LoginState) → Bool
  | (.check other, found) :: _ => other == key && !found.blocked other
  | (.lookUp, _) :: earlier | (.verify .., _) :: earlier => pending key earlier
  | _ => false

def pendingTasks (key : Text) (past : List LoginEntry) : Finset Nat :=
  (past.map Entry.task).toFinset.filter fun task => pending key (trace task past) = true

/-- The failing verifications of a window, with those that wait to be recorded as it opens. -/
def failuresIn (key : Text) (before : List LoginEntry) (opening : LoginEntry) (after : List LoginEntry) : Nat :=
  (before.countP fun entry => failsVerification key entry && pending key (trace entry.task before.reverse)) +
    (inWindow opening after).countP (failsVerification key)

def recorded (attempts : Attempts) (key : Text) : Nat := (attempts[key]?.map fun entry => entry.1.toNat).getD 0

/-- A request is admitted only if the throttle would admit it with every request under way failing. -/
def Foreseeing (s : LoginState) (past : List LoginEntry) (_ : Nat) (label : LoginAction) : Prop :=
  match label with
  | .check key => s.blocked key = false →
      recorded (s.attempts.retain (seconds 300) s.clock) key + (pendingTasks key past).card < 5
  | _ => True

instance (s : LoginState) (past : List LoginEntry) (task : Nat) :
    (label : LoginAction) → Decidable (Foreseeing s past task label)
  | .check key => inferInstanceAs (Decidable (s.blocked key = false →
      recorded (s.attempts.retain (seconds 300) s.clock) key + (pendingTasks key past).card < 5))
  | .lookUp | .verify .. | .recordFailure _ | .forget _ | .saveSession _ | .tick _ => .isTrue trivial

/-- What may follow a trace: one look at the throttle, one verification, one outcome. -/
def Next (steps : List (LoginAction × LoginState)) : LoginAction → Prop
  | .check _ | .tick _ => steps = []
  | .lookUp => True
  | .verify key _ => pending key steps = true ∧ ∀ step ∈ steps, ∀ other passed, step.1 ≠ .verify other passed
  | .recordFailure key | .forget key => pending key steps = true
  | .saveSession _ => ∀ key, pending key steps = false

section Programs

variable {steps : List (LoginAction × LoginState)} {key : Text}

theorem rejectLogin_obeys (waiting : pending key steps = true) :
    Obeys (tracking Next fun _ _ => True) (fun _ _ => True) steps (rejectLogin key) :=
  ⟨waiting, fun _ _ => trivial⟩

theorem acceptLogin_obeys (service : LoginService) (form : LoginForm) (user : UserRecord)
    (waiting : pending key steps = true) :
    Obeys (tracking Next fun _ _ => True) (fun _ _ => True) steps (acceptLogin service form key user) := by
  refine ⟨waiting, fun found _ => Obeys.bind ?_⟩
  unfold saveSession
  split
  · trivial
  · exact ⟨fun _ => rfl, fun _ _ => trivial⟩

theorem login_obeys (service : LoginService) (form : LoginForm) :
    Obeys (tracking Next fun _ _ => True) (fun _ _ => True) [] (login service form) := by
  refine ⟨rfl, fun checked _ => ?_⟩
  change Obeys _ _ _ (if checked.blocked (throttleKey form.username) = true then _ else _)
  split
  · trivial
  · rename_i admitted
    have waiting : pending (throttleKey form.username) [(.check (throttleKey form.username), checked)] = true := by
      simpa [pending] using admitted
    refine ⟨trivial, fun found _ => ?_⟩
    change Obeys _ _ _ (match decoded found.users[form.username]? with
      | .ok (some user) => _
      | _ => _)
    split
    · split
      · exact rejectLogin_obeys waiting
      · refine ⟨⟨waiting, by simp [tracking]⟩, fun verified _ => ?_⟩
        split
        · exact acceptLogin_obeys service form _ waiting
        · exact rejectLogin_obeys waiting
    · exact rejectLogin_obeys waiting

theorem loginCall_obeys (call : LoginCall) :
    Obeys (tracking Next fun _ _ => True) (fun _ _ => True) [] (loginSystem.program call) := by
  cases call with
  | login service form => exact Obeys.bind ((login_obeys service form).mono fun _ _ _ => trivial)
  | wait span => exact ⟨rfl, fun _ _ => trivial⟩

end Programs

theorem pending_unique {key other : Text} {steps : List (LoginAction × LoginState)}
    (first : pending key steps = true) (second : pending other steps = true) : key = other := by
  induction steps with
  | nil => cases first
  | cons step earlier ih =>
    obtain ⟨action, found⟩ := step
    cases action with
    | check checked =>
      simp only [pending, Bool.and_eq_true, beq_iff_eq] at first second
      exact first.1.symm.trans second.1
    | lookUp | verify => exact ih first second
    | _ => cases first

section Steps

variable {key : Text} {steps : List (LoginAction × LoginState)} {label : LoginAction} {found : LoginState}

theorem pending_of_cons (next : Next steps label) (later : pending key ((label, found) :: steps) = true) :
    pending key steps = true ∨ label = .check key ∧ found.blocked key = false := by
  cases label with
  | check checked =>
    simp only [pending, Bool.and_eq_true, beq_iff_eq, Bool.not_eq_true'] at later
    grind
  | lookUp | verify => exact .inl later
  | _ => cases later

theorem pending_cons (next : Next steps label) (earlier : pending key steps = true) :
    pending key ((label, found) :: steps) = true ∨ label = .recordFailure key ∨ label = .forget key := by
  cases label with
  | check _ | tick _ =>
    rw [next] at earlier
    cases earlier
  | lookUp | verify => exact .inl earlier
  | recordFailure other =>
    rw [pending_unique earlier next]
    exact .inr (.inl rfl)
  | forget other =>
    rw [pending_unique earlier next]
    exact .inr (.inr rfl)
  | saveSession => rw [next key] at earlier; cases earlier

end Steps

theorem mem_pendingTasks {key : Text} {past : List LoginEntry} {task : Nat} :
    task ∈ pendingTasks key past ↔ pending key (trace task past) = true := by
  rw [pendingTasks, Finset.mem_filter, and_iff_right_iff_imp, List.mem_toFinset]
  intro waiting
  by_contra absent
  rw [trace_eq_nil fun entry member same => absent (List.mem_map.mpr ⟨entry, member, same⟩)] at waiting
  cases waiting

section Tables

variable {attempts : Attempts} {key other : Text} {now : Nat}

theorem recorded_retain_le : recorded (attempts.retain (seconds 300) now) key ≤ recorded attempts key := by
  simp only [recorded, Attempts.getElem?_retain]
  cases attempts[key]? with
  | none => exact Nat.le_refl _
  | some entry => grind

theorem recorded_erase_le : recorded (attempts.erase other) key ≤ recorded attempts key := by
  rw [recorded, Families.getElem?_erase]
  split
  · exact Nat.zero_le _
  · exact Nat.le_refl _

theorem bumped_toNat (few : recorded attempts key ≤ 5) :
    (attempts.bumped key now).1.toNat = recorded attempts key + 1 := by
  have step (count : UInt32) (small : count.toNat ≤ 5) : (count + 1).toNat = count.toNat + 1 := by
    grind [UInt32.toNat_add]
  unfold recorded at few ⊢
  unfold Attempts.bumped
  cases found : attempts[key]? with
  | none => rfl
  | some entry => grind

theorem recorded_bump_self (few : recorded attempts key ≤ 5) :
    recorded (attempts.bump key now) key = recorded attempts key + 1 := by
  grind [bumped_toNat, Attempts.bump, recorded]

theorem recorded_bump_of_ne (different : other ≠ key) :
    recorded (attempts.bump other now) key = recorded attempts key := by grind [Attempts.bump, recorded]

end Tables

/-- Were every request under way to fail, no more than five failures would be recorded. -/
def Budget (s : LoginState) (past : List LoginEntry) : Prop :=
  ∀ key, recorded s.attempts key + (pendingTasks key past).card ≤ 5

section Pending

variable {key : Text} {past : List LoginEntry} {task other : Nat} {label : LoginAction} {found : LoginState}

theorem mem_pendingTasks_of_ne (different : other ≠ task) :
    other ∈ pendingTasks key (⟨task, label, found⟩ :: past) ↔ other ∈ pendingTasks key past := by
  grind [mem_pendingTasks, trace_cons_of_ne]

theorem mem_pendingTasks_self : task ∈ pendingTasks key (⟨task, label, found⟩ :: past) ↔
    pending key ((label, found) :: trace task past) = true := by
  rw [mem_pendingTasks, trace_cons_self]

theorem pendingTasks_cons_subset (next : Next (trace task past) label)
    (unadmitted : label ≠ .check key ∨ found.blocked key = true) :
    pendingTasks key (⟨task, label, found⟩ :: past) ⊆ pendingTasks key past := by
  intro other member
  by_cases same : other = task
  · subst same
    rcases pending_of_cons next (mem_pendingTasks_self.mp member) with waiting | ⟨rfl, admitted⟩
    · exact mem_pendingTasks.mpr waiting
    · grind
  · exact (mem_pendingTasks_of_ne same).mp member

theorem pendingTasks_check_subset :
    pendingTasks key (⟨task, .check key, found⟩ :: past) ⊆ insert task (pendingTasks key past) := by
  intro other member
  by_cases same : other = task
  · exact Finset.mem_insert.mpr (.inl same)
  · grind [mem_pendingTasks_of_ne]

theorem pendingTasks_record_card (waiting : pending key (trace task past) = true) :
    (pendingTasks key (⟨task, .recordFailure key, found⟩ :: past)).card + 1 ≤ (pendingTasks key past).card := by
  have left : pendingTasks key (⟨task, .recordFailure key, found⟩ :: past) ⊆ (pendingTasks key past).erase task := by
    intro other member
    have different : other ≠ task := by
      rintro rfl
      cases mem_pendingTasks_self.mp member
    exact Finset.mem_erase.mpr ⟨different, (mem_pendingTasks_of_ne different).mp member⟩
  have fewer := Finset.card_le_card left
  have present := Finset.card_erase_add_one (mem_pendingTasks.mpr waiting)
  omega

end Pending

theorem Budget.step {s next : LoginState} {past : List LoginEntry} {task : Nat} {label : LoginAction}
    (budget : Budget s past) (follows : Next (trace task past) label) (foreseen : Foreseeing s past task label)
    (taken : loginEffect label s = some next) : Budget next (⟨task, label, s⟩ :: past) := by
  intro key
  have before := budget key
  have kept (unadmitted : label ≠ .check key ∨ s.blocked key = true) :=
    Finset.card_le_card (pendingTasks_cons_subset follows unadmitted)
  cases label with
  | check checked =>
    cases taken
    have fewer : recorded (s.attempts.retain (seconds 300) s.clock) key ≤ _ := recorded_retain_le
    by_cases unadmitted : LoginAction.check checked ≠ .check key ∨ s.blocked key = true
    · grind
    · simp only [ne_eq, LoginAction.check.injEq, not_or, not_not, Bool.not_eq_true] at unadmitted
      obtain ⟨rfl, admitted⟩ := unadmitted
      have more : (pendingTasks checked (⟨task, .check checked, s⟩ :: past)).card ≤
          (pendingTasks checked past).card + 1 :=
        (Finset.card_le_card pendingTasks_check_subset).trans (Finset.card_insert_le task _)
      exact (Nat.add_le_add_left more _).trans (foreseen admitted)
  | recordFailure failed =>
    cases taken
    by_cases own : failed = key
    · subst own
      calc
        recorded (s.attempts.bump failed s.clock) failed + _
            = recorded s.attempts failed + (_ + 1) := by
              rw [recorded_bump_self (Nat.le_of_add_right_le before), Nat.add_assoc, Nat.add_comm 1]
        _ ≤ recorded s.attempts failed + (pendingTasks failed past).card :=
              Nat.add_le_add_left (pendingTasks_record_card follows) _
        _ ≤ 5 := before
    · grind [recorded_bump_of_ne]
  | forget forgotten =>
    cases taken
    grind [recorded_erase_le]
  | lookUp | verify | saveSession | tick =>
    cases taken
    grind

def Once (past : List LoginEntry) : Prop :=
  ∀ key, ((past.filter (failsVerification key)).map Entry.task).Nodup

theorem Once.step {past : List LoginEntry} (once : Once past) {task : Nat} {label : LoginAction}
    (follows : Next (trace task past) label) (found : LoginState) : Once (⟨task, label, found⟩ :: past) := by
  intro key
  rw [List.filter_cons]
  split
  · rename_i fails
    obtain rfl : label = .verify key false := by simpa [failsVerification] using fails
    refine List.nodup_cons.mpr ⟨fun again => ?_, once key⟩
    obtain ⟨entry, member, rfl⟩ := List.mem_map.mp again
    obtain ⟨old, failed⟩ := List.mem_filter.mp member
    exact follows.2 _ (mem_trace old) key false (by simpa [failsVerification] using failed)
  · exact once key

/-- The action neither ends the window nor comes after it. -/
structure Continues (key : Text) (opening entry : LoginEntry) : Prop where
  inTime : entry.found.clock < opening.found.clock + seconds 300
  unsuccessful : entry.label ≠ .forget key

def counted (key : Text) (before window : List LoginEntry) : List LoginEntry :=
  (window ++ before.filter fun entry => pending key (trace entry.task before)).filter (failsVerification key)

/-- The table holds the failures recorded since the opening; every other failure belongs to a request under way. -/
structure Window (key : Text) (opening : LoginEntry) (before window : List LoginEntry) (s : LoginState) : Prop where
  entry : ∃ count : UInt32, s.attempts[key]? = some (count, opening.found.clock) ∧
    count.toNat = (window ++ [opening]).countP (recordsFailure key)
  accounted : ∀ failed ∈ counted key before window, failed.task ∈ pendingTasks key (window ++ opening :: before) ∨
    ∃ record ∈ window ++ [opening], recordsFailure key record = true ∧ record.task = failed.task

section Windows

variable {key : Text} {s next : LoginState} {past : List LoginEntry} {task : Nat}

theorem Window.opened (fresh : s.attempts[key]? = none)
    (taken : loginEffect (.recordFailure key) s = some next) :
    Window key ⟨task, .recordFailure key, s⟩ past [] next := by
  cases taken
  refine ⟨⟨1, ?_, ?_⟩, ?_⟩
  · change (s.attempts.insert key (s.attempts.bumped key s.clock))[key]? = _
    grind [Attempts.bumped]
  · simp [recordsFailure]
  · intro failed member
    obtain ⟨member, -⟩ := List.mem_filter.mp member
    obtain ⟨old, waiting⟩ := List.mem_filter.mp member
    by_cases same : failed.task = task
    · grind [List.mem_singleton_self, recordsFailure]
    · exact .inl ((mem_pendingTasks_of_ne same).mpr (mem_pendingTasks.mpr waiting))

variable {opening : LoginEntry} {before window : List LoginEntry} {label : LoginAction}

theorem Window.entry_step (standing : Window key opening before window s) (few : recorded s.attempts key ≤ 5)
    (continues : Continues key opening ⟨task, label, s⟩) (taken : loginEffect label s = some next) :
    ∃ count : UInt32, next.attempts[key]? = some (count, opening.found.clock) ∧
      count.toNat = ((⟨task, label, s⟩ :: window) ++ [opening]).countP (recordsFailure key) := by
  obtain ⟨count, held, counts⟩ := standing.entry
  rw [List.cons_append, List.countP_cons, ← counts]
  cases label with
  | check checked =>
    cases taken
    refine ⟨count, ?_, by simp [recordsFailure]⟩
    have young : s.clock - opening.found.clock < seconds 300 := by
      have inTime : s.clock < opening.found.clock + seconds 300 := continues.inTime
      grind [seconds]
    grind [Attempts.getElem?_retain]
  | recordFailure failed =>
    cases taken
    change ∃ count, (s.attempts.insert failed (s.attempts.bumped failed s.clock))[key]? = _ ∧ _
    by_cases own : failed = key
    · subst own
      refine ⟨count + 1, ?_, ?_⟩
      · grind [Attempts.bumped]
      · have bumped : (s.attempts.bumped failed s.clock).1.toNat = _ := bumped_toNat few
        grind [Attempts.bumped, recorded, recordsFailure]
    · grind [recordsFailure]
  | forget forgotten =>
    cases taken
    have other : forgotten ≠ key := by
      rintro rfl
      exact continues.unsuccessful rfl
    grind [recordsFailure]
  | lookUp | verify | saveSession | tick =>
    cases taken
    exact ⟨count, held, by simp [recordsFailure]⟩

theorem Window.accounted_step (standing : Window key opening before window s)
    (follows : Next (trace task (window ++ opening :: before)) label)
    (continues : Continues key opening ⟨task, label, s⟩) :
    ∀ failed ∈ counted key before (⟨task, label, s⟩ :: window),
      failed.task ∈ pendingTasks key ((⟨task, label, s⟩ :: window) ++ opening :: before) ∨
        ∃ record ∈ (⟨task, label, s⟩ :: window) ++ [opening], recordsFailure key record = true ∧
          record.task = failed.task := by
  intro failed member
  have known : failed.task ∈ pendingTasks key (window ++ opening :: before) ∨
      ∃ record ∈ window ++ [opening], recordsFailure key record = true ∧ record.task = failed.task := by
    obtain ⟨member, fails⟩ := List.mem_filter.mp member
    rcases List.mem_cons.mp member with rfl | old
    · obtain rfl : label = .verify key false := by simpa [failsVerification] using fails
      exact .inl (mem_pendingTasks.mpr follows.1)
    · exact standing.accounted failed (List.mem_filter.mpr ⟨old, fails⟩)
  rcases known with waiting | ⟨record, recorded, records⟩
  · by_cases same : failed.task = task
    · rw [mem_pendingTasks, same] at waiting
      rcases pending_cons follows waiting with waiting | rfl | rfl
      · rw [same]
        exact .inl (mem_pendingTasks_self.mpr waiting)
      · grind [List.mem_cons_self, recordsFailure]
      · exact absurd rfl continues.unsuccessful
    · exact .inl ((mem_pendingTasks_of_ne same).mpr waiting)
  · grind

theorem Window.counted_le (standing : Window key opening before window s)
    (budget : Budget s (window ++ opening :: before)) (once : Once (window ++ opening :: before)) :
    (counted key before window).length ≤ 5 := by
  obtain ⟨count, held, counts⟩ := standing.entry
  have distinct : ((counted key before window).map Entry.task).Nodup := by
    refine (once key).sublist (List.Sublist.map _ (List.Sublist.filter _ ?_))
    simp
  have covered : ((counted key before window).map Entry.task).toFinset ⊆
      pendingTasks key (window ++ opening :: before) ∪
        (((window ++ [opening]).filter (recordsFailure key)).map Entry.task).toFinset := by
    intro task member
    obtain ⟨failed, fails, rfl⟩ := List.mem_map.mp (List.mem_toFinset.mp member)
    rcases standing.accounted failed fails with waiting | ⟨record, old, records, same⟩
    · exact Finset.mem_union_left _ waiting
    · refine Finset.mem_union_right _ (List.mem_toFinset.mpr (List.mem_map.mpr ⟨record, ?_, same⟩))
      exact List.mem_filter.mpr ⟨old, records⟩
  have total : recorded s.attempts key = (window ++ [opening]).countP (recordsFailure key) := by
    rw [recorded, held, ← counts]
    rfl
  have records := List.toFinset_card_le (((window ++ [opening]).filter (recordsFailure key)).map Entry.task)
  rw [List.length_map, ← List.countP_eq_length_filter, ← total] at records
  calc
    (counted key before window).length
        = ((counted key before window).map Entry.task).toFinset.card := by
          rw [List.toFinset_card_of_nodup distinct, List.length_map]
    _ ≤ _ := (Finset.card_le_card covered).trans (Finset.card_union_le _ _)
    _ ≤ (pendingTasks key (window ++ opening :: before)).card + recorded s.attempts key :=
          Nat.add_le_add_left records _
    _ ≤ 5 := Nat.add_comm _ _ ▸ budget key

end Windows

structure Throttled (s : LoginState) (past : List LoginEntry) : Prop where
  budget : Budget s past
  once : Once past
  windows : ∀ key opening before window, past = window ++ opening :: before → Opens key opening →
    (∀ entry ∈ window, Continues key opening entry) → Window key opening before window s

theorem Throttled.step {s next : LoginState} {past : List LoginEntry} {task : Nat} {label : LoginAction}
    (throttled : Throttled s past) (follows : Next (trace task past) label)
    (foreseen : Foreseeing s past task label) (taken : loginEffect label s = some next) :
    Throttled next (⟨task, label, s⟩ :: past) := by
  refine ⟨throttled.budget.step follows foreseen taken, throttled.once.step follows s, ?_⟩
  intro key opening before window split opens continues
  cases window with
  | nil =>
    obtain ⟨rfl, rfl⟩ := List.cons.inj split
    obtain ⟨rfl, fresh⟩ := opens
    exact Window.opened fresh taken
  | cons entry window =>
    obtain ⟨rfl, rfl⟩ := List.cons.inj split
    have standing := throttled.windows key opening before window rfl opens fun entry member =>
      continues entry (List.mem_cons_of_mem _ member)
    have goesOn := continues _ List.mem_cons_self
    have few := Nat.le_of_add_right_le (throttled.budget key)
    exact ⟨standing.entry_step few goesOn taken, standing.accounted_step follows goesOn⟩

theorem logins_track {first : LoginState} (few : ∀ key, recorded first.attempts key ≤ 5) :
    Tracks loginSystem first Next (fun _ _ => True) (fun _ _ _ => True) Foreseeing Throttled where
  programs := loginCall_obeys
  start := ⟨few, fun _ => List.nodup_nil, fun _ _ _ window split => by simp at split⟩
  sound := fun _ _ _ _ => trivial
  advance := fun _ _ _ _ _ _ throttled follows foreseen taken => throttled.step follows foreseen taken

theorem failuresIn_eq (key : Text) (before : List LoginEntry) (opening : LoginEntry) (after : List LoginEntry) :
    failuresIn key before opening after = (counted key before.reverse (inWindow opening after).reverse).length := by
  rw [counted, List.filter_append, List.length_append, List.filter_filter, ← List.countP_eq_length_filter,
    ← List.countP_eq_length_filter, List.countP_reverse, List.countP_reverse, failuresIn, Nat.add_comm]

theorem failuresIn_le {s : LoginState} {before after : List LoginEntry} {opening : LoginEntry}
    (always : Always Throttled s (before ++ opening :: after).reverse) {key : Text} (opens : Opens key opening)
    (unsuccessful : ∀ entry ∈ inWindow opening after, entry.label ≠ .forget key) :
    failuresIn key before opening after ≤ 5 := by
  -- The state that the first action after the window finds.
  obtain ⟨found, throttled⟩ : ∃ found,
      Throttled found ((inWindow opening after).reverse ++ opening :: before.reverse) := by
    rw [← List.takeWhile_append_dropWhile (l := after), List.reverse_append, List.reverse_cons, List.reverse_append,
      List.append_assoc, List.append_assoc] at always
    exact always.earlier
  rw [failuresIn_eq]
  have standing : Window key opening before.reverse (inWindow opening after).reverse found := by
    refine throttled.windows key opening _ _ rfl opens fun entry member => ?_
    have inside := List.mem_reverse.mp member
    have inTime := List.mem_takeWhile_imp inside
    exact ⟨of_decide_eq_true inTime, unsuccessful entry inside⟩
  exact standing.counted_le throttled.budget throttled.once

/-- In every run in which a request is admitted only if five failures leave room for all that are under way, a window
of the throttle without a successful login has at most five failing verifications. -/
theorem login_failures_bounded {first : LoginState} (few : ∀ key, recorded first.attempts key ≤ 5)
    {events : List (Event LoginCall Empty)} {last : State LoginCall LoginAction LoginState (Option Response)}
    (meets : Runs.Meets (step loginSystem) (Observes Foreseeing) { shared := first } events)
    (whole : Runs.run (step loginSystem) { shared := first } events = some last)
    {before after : List LoginEntry} {opening : LoginEntry} (split : last.history = before ++ opening :: after)
    {key : Text} (opens : Opens key opening)
    (unsuccessful : ∀ entry ∈ inWindow opening after, entry.label ≠ .forget key) :
    failuresIn key before opening after ≤ 5 := by
  have always := ((logins_track few).always.run meets whole).holds
  grind [State.past, failuresIn_le]

section Example

def guessed : LoginForm := { username := "operator".toList, password := "guess".toList }

def guessedKey : Text := throttleKey guessed.username

def panel : LoginState where
  users := (∅ : Std.ExtTreeMap Text (Json UserRecord)).insert guessed.username
    (.ok { username := guessed.username, passwordHash := "secret".toList })

def panelService : LoginService where
  verifyPassword := fun hash password => hash == password
  token := "token".toList
  csrfToken := "csrf".toList
  tokenHash := fun token => token
  now := 0

theorem panel_few (key : Text) : recorded panel.attempts key ≤ 5 := by
  have none : panel.attempts[key]? = none := Std.ExtTreeMap.getElem?_empty
  rw [recorded, none]
  exact Nat.zero_le 5

/-- The failing verifications after the action that opens a window, unless a login succeeds in it. -/
def failuresFrom (key : Text) (history : List LoginEntry) (n : Nat) : Option Nat :=
  history[n]?.bind fun opening =>
    if opening.label = .recordFailure key ∧ opening.found.attempts[key]? = none ∧
      (inWindow opening (history.drop (n + 1))).all (fun entry => entry.label ≠ .forget key) = true
    then some ((inWindow opening (history.drop (n + 1))).countP (failsVerification key)) else none

theorem exists_of_failuresFrom {key : Text} {history : List LoginEntry} {n failures : Nat}
    (found : failuresFrom key history n = some failures) :
    ∃ before opening after, history = before ++ opening :: after ∧ Opens key opening ∧
      (∀ entry ∈ inWindow opening after, entry.label ≠ .forget key) ∧
      (inWindow opening after).countP (failsVerification key) = failures := by
  obtain ⟨opening, opened, found⟩ := Option.bind_eq_some_iff.mp found
  split at found
  · rename_i window
    obtain ⟨records, fresh, unsuccessful⟩ := window
    obtain ⟨bound, rfl⟩ := List.getElem?_eq_some_iff.mp opened
    refine ⟨history.take n, _, _, ?_, ⟨records, fresh⟩, ?_, Option.some.inj found⟩
    · simp
    · grind
  · cases found

def guess (task : Nat) : List (Event LoginCall Empty) :=
  [.spawn task (.login panelService guessed), .advance task, .advance task, .advance task, .advance task]

/-- Two guesses at the same time, three more in the next minutes, and one that is turned away. -/
def patientGuesses : List (Event LoginCall Empty) :=
  [.spawn 0 (.login panelService guessed), .spawn 1 (.login panelService guessed), .advance 0, .advance 1, .advance 0,
    .advance 1, .advance 0, .advance 0, .advance 1, .advance 1] ++
  guess 2 ++ [.spawn 3 (.wait (seconds 120)), .advance 3] ++ guess 4 ++ guess 5 ++
  [.spawn 6 (.login panelService guessed), .advance 6]

theorem login_failures_bounded_patientGuesses :
    ∃ last, Runs.run (step loginSystem) { shared := panel } patientGuesses = some last ∧
      ((last.returned? 6).bind Prod.snd).map Response.status = some 429 ∧
      ∃ before opening after, last.history = before ++ opening :: after ∧ Opens guessedKey opening ∧
        (inWindow opening after).countP (failsVerification guessedKey) = 4 ∧
        failuresIn guessedKey before opening after ≤ 5 := by
  have meets : Runs.Meets (step loginSystem) (Observes Foreseeing) { shared := panel } patientGuesses := by
    decide +kernel
  have summary : (Runs.run (step loginSystem) { shared := panel } patientGuesses).map (fun last =>
      (((last.returned? 6).bind Prod.snd).map Response.status, failuresFrom guessedKey last.history 5)) =
        some (some 429, some 4) := by
    decide +kernel
  obtain ⟨last, whole, seen⟩ := Option.map_eq_some_iff.mp summary
  obtain ⟨refused, window⟩ := Prod.mk.inj seen
  obtain ⟨before, opening, after, split, opens, unsuccessful, failures⟩ := exists_of_failuresFrom window
  exact ⟨last, whole, refused, before, opening, after, split, opens, failures,
    login_failures_bounded panel_few meets whole split opens unsuccessful⟩

/-- Seven guesses of which each is admitted before any has failed. -/
def hastyGuesses : List (Event LoginCall Empty) :=
  (List.range 7).map (.spawn · (.login panelService guessed)) ++ (List.range 7).map .advance ++
    (List.range 7).map .advance ++ [.advance 0, .advance 0] ++ (List.range' 1 6).map .advance ++
    (List.range' 1 6).map .advance

theorem hasty_guesses_exceed :
    ∃ last, Runs.run (step loginSystem) { shared := panel } hastyGuesses = some last ∧
      last.shared.attempts[guessedKey]? = some (7, 0) ∧
      ∃ before opening after, last.history = before ++ opening :: after ∧ Opens guessedKey opening ∧
        (∀ entry ∈ inWindow opening after, entry.label ≠ .forget guessedKey) ∧
        (inWindow opening after).countP (failsVerification guessedKey) = 6 ∧
        ¬ failuresIn guessedKey before opening after ≤ 5 := by
  have summary : (Runs.run (step loginSystem) { shared := panel } hastyGuesses).map (fun last =>
      (last.shared.attempts[guessedKey]?, failuresFrom guessedKey last.history 15)) = some (some (7, 0), some 6) := by
    decide +kernel
  obtain ⟨last, whole, seen⟩ := Option.map_eq_some_iff.mp summary
  grind [exists_of_failuresFrom, failuresIn]

end Example

end TlsProxy.Control
