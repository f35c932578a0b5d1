import TlsProxy.Control.Login

/-! Logins next to what stores users and deletes sessions, and `require_session`,
the guard of the protected routes. Sessions are listed and deleted in separate
steps, between which others may be saved. -/
namespace TlsProxy.Control

open Config Certificates Store Acme Programs

inductive AccessAction
  /-- An action of a login, and which login it is. -/
  | login (call : LoginCall) (action : LoginAction)
  | saveUser (user : UserRecord)
  | scan
  | delete (hashes : List Text)

def accessEffect (action : AccessAction) (s : LoginState) : Option LoginState :=
  match action with
  | .login _ action => loginEffect action s
  | .saveUser user => some { s with users := s.users.insert user.username (.ok user) }
  | .scan => some s
  | .delete hashes => some { s with sessions := s.sessions.filter fun hash _ => !hashes.contains hash }

def access {α : Type} (action : AccessAction) (answer : LoginState → α) : Program AccessAction LoginState α :=
  .action action fun s => .done (answer s)

def LoginState.hashes (s : LoginState) (ends : SessionRecord → Bool) : List Text :=
  (s.sessions.toList.filter fun row => ends row.2).map Prod.fst

def deleteSessions (ends : SessionRecord → Bool) : Program AccessAction LoginState Nat := do
  let hashes ← access .scan fun s => s.hashes ends
  access (.delete hashes) fun _ => hashes.length

def saveUser (user : UserRecord) : Program AccessAction LoginState (Except Text Unit) :=
  if Text.trim user.username = [] ∨ user.passwordHash = [] then
    return .error "username and password hash are required".toList
  else access (.saveUser user) fun _ => .ok ()

/-- A password change saves its user and, if it is asked to, deletes the user's sessions. -/
inductive AccessCall
  | login (call : LoginCall)
  | saveUser (user : UserRecord)
  | logout (hash : Text)
  | deleteUserSessions (username : Text)
  /-- `cleanup_retention`, as far as it is about sessions. -/
  | cleanUp (now : OffsetDateTime)

def AccessCall.program : AccessCall → Program AccessAction LoginState Unit
  | .login call => (fun _ => ()) <$> call.program.embed (.login call) id
  | .saveUser user => (fun _ => ()) <$> Control.saveUser user
  | .logout hash => access (.delete [hash]) fun _ => ()
  | .deleteUserSessions username => (fun _ => ()) <$> deleteSessions (·.username = username)
  | .cleanUp now => (fun _ => ()) <$> deleteSessions fun session => !session.expiresAt.any (now < ·)

def accessSystem : System AccessCall Empty AccessAction LoginState Unit where
  program := AccessCall.program
  effect := accessEffect
  outside := nofun

def cookieValue (header name : Text) : Option Text :=
  (header.splitOn ';').findSome? fun part => do
    let (key, value) ← Text.splitOnce '=' (Text.trim part)
    if key = name then some value else none

structure GuardedRequest where
  cookie : Option Text := none
  /-- POST, PUT, PATCH or DELETE. -/
  mutates : Bool := false
  csrfToken : Option Text := none

def toLogin : Response := { status := 303, headers := [("location".toList, "/login".toList)] }

def denied (message : Text) : Response := { status := 403, body := .text message }

/-- The session is read before the user; the two states may differ. -/
def requireSession (service : LoginService) (request : GuardedRequest) (found later : LoginState) :
    Except Response SessionRecord :=
  match (request.cookie.bind (cookieValue · "tlsproxy_session".toList)).bind fun token =>
      found.sessions[service.tokenHash token]? with
  | none => .error toLogin
  | some session =>
    if session.expiresAt.any (service.now < ·) = false then .error toLogin
    else
      match decoded later.users[session.username]? with
      | .ok (some user) =>
        if user.administrator = false ∨ user.disabled = true then
          .error (denied "Administrator access required".toList)
        else if request.mutates = true ∧ request.csrfToken ≠ some session.csrfToken then
          .error (denied "Missing or invalid CSRF token".toList)
        else .ok session
      | _ => .error (denied "Administrator access required".toList)

abbrev AccessSteps := List (AccessAction × LoginState)

/-- The login was admitted by the throttle, found the user of the session enabled and verified the password of the form
against the user's hash. -/
def Verified (service : LoginService) (form : LoginForm) (steps : AccessSteps) (session : SessionRecord) : Prop :=
  ∃ user checked found verified,
    (.login (.login service form) (.check (throttleKey form.username)), checked) ∈ steps ∧
    checked.blocked (throttleKey form.username) = false ∧ (.login (.login service form) .lookUp, found) ∈ steps ∧
    decoded found.users[form.username]? = .ok (some user) ∧ user.disabled = false ∧ user.username = session.username ∧
    service.verifyPassword user.passwordHash form.password = true ∧
    (.login (.login service form) (.verify (throttleKey form.username) true), verified) ∈ steps

def Issues (steps : AccessSteps) : AccessAction → Prop
  | .login call (.saveSession session) => ∃ service form, call = .login service form ∧ Verified service form steps session
  | _ => True

def Revokes : AccessCall → AccessSteps → Unit → Prop
  | .deleteUserSessions username, steps, _ => ∃ deleted listed,
    steps = [(.delete (listed.hashes (·.username = username)), deleted), (.scan, listed)]
  | _, _, _ => True

abbrev accessMonitor : Monitor AccessAction LoginState AccessSteps := tracking Issues fun _ _ => True

theorem login_issues (service : LoginService) (form : LoginForm) :
    Obeys (accessMonitor.comap (.login (.login service form))) (fun _ _ => True) [] (login service form) := by
  have rejected (steps : AccessSteps) : Obeys (accessMonitor.comap (.login (.login service form))) (fun _ _ => True) steps
      (rejectLogin (throttleKey form.username)) := ⟨trivial, fun _ _ => trivial⟩
  refine ⟨trivial, fun checked _ => ?_⟩
  change Obeys _ _ _ (if checked.blocked (throttleKey form.username) = true then _ else _)
  split
  · trivial
  · rename_i admitted
    refine ⟨trivial, fun found _ => ?_⟩
    change Obeys _ _ _ (match decoded found.users[form.username]? with
      | .ok (some user) => _
      | _ => _)
    split
    · rename_i user row
      split
      · exact rejected _
      · rename_i enabled
        refine ⟨trivial, fun verified _ => ?_⟩
        split
        · rename_i passed
          refine ⟨trivial, fun forgotten _ => Obeys.bind ?_⟩
          unfold saveSession
          split
          · trivial
          · refine ⟨⟨service, form, rfl, user, checked, found, verified, ?_⟩, fun _ _ => trivial⟩
            simp [tracking, Monitor.comap, newSession, row, passed, admitted, enabled]
        · exact rejected _
    · exact rejected _

/-- The session was saved by a login that had verified a password, and the actions since then have found it and have
not deleted it. -/
def Kept (past : List (Entry AccessAction LoginState)) (session : SessionRecord) : Prop :=
  ∃ after entry before service form, past = after ++ entry :: before ∧
    entry.label = .login (.login service form) (.saveSession session) ∧
    Verified service form (trace entry.task before) session ∧ ∀ since ∈ after,
      since.found.sessions[session.tokenHash]? = some session ∧
        ∀ hashes, since.label = .delete hashes → session.tokenHash ∉ hashes

def Traceable (s : LoginState) (past : List (Entry AccessAction LoginState)) : Prop :=
  ∀ (hash : Text) session, s.sessions[hash]? = some session → hash = session.tokenHash ∧ Kept past session

theorem Kept.cons {past : List (Entry AccessAction LoginState)} {session : SessionRecord} (kept : Kept past session)
    {entry : Entry AccessAction LoginState} (known : entry.found.sessions[session.tokenHash]? = some session)
    (spared : ∀ hashes, entry.label = .delete hashes → session.tokenHash ∉ hashes) : Kept (entry :: past) session := by
  obtain ⟨after, saving, before, service, form, rfl, saved, verified, since⟩ := kept
  exact ⟨entry :: after, saving, before, service, form, rfl, saved, verified,
    List.forall_mem_cons.mpr ⟨⟨known, spared⟩, since⟩⟩

theorem Traceable.step {s next : LoginState} {past : List (Entry AccessAction LoginState)} {task : Nat}
    {label : AccessAction} (traceable : Traceable s past) (issues : Issues (trace task past) label)
    (taken : accessEffect label s = some next) : Traceable next (⟨task, label, s⟩ :: past) := by
  intro hash session stored
  have old (known : s.sessions[hash]? = some session) (spared : ∀ hashes, label = .delete hashes → hash ∉ hashes) :
      hash = session.tokenHash ∧ Kept (⟨task, label, s⟩ :: past) session := by
    obtain ⟨rfl, kept⟩ := traceable hash session known
    exact ⟨rfl, kept.cons known spared⟩
  cases label with
  | login call action =>
    cases action with
    | saveSession added =>
      cases taken
      obtain ⟨service, form, rfl, verified⟩ := issues
      rw [Families.getElem?_insert] at stored
      split at stored
      · cases stored
        exact ⟨Eq.symm ‹_›, [], _, past, service, form, rfl, rfl, verified, by simp⟩
      · exact old stored nofun
    | _ => cases taken; exact old stored nofun
  | saveUser user => cases taken; exact old stored nofun
  | scan => cases taken; exact old stored nofun
  | delete hashes =>
    cases taken
    rw [Std.ExtTreeMap.getElem?_filter', Option.filter_eq_some_iff] at stored
    exact old stored.1 fun _ same => by cases same; simpa using stored.2

theorem sessions_track {first : LoginState} (empty : first.sessions = ∅) :
    Tracks accessSystem first Issues (fun _ _ => True) Revokes (fun _ _ _ _ => True) Traceable where
  programs call := by
    cases call with
    | login call =>
      refine Obeys.bind (Obeys.embed ?_)
      cases call with
      | login service form => exact Obeys.bind ((login_issues service form).mono fun _ _ _ => trivial)
      | wait span => exact ⟨trivial, fun _ _ => trivial⟩
    | saveUser user =>
      refine Obeys.bind ?_
      unfold saveUser
      split
      · trivial
      · exact ⟨trivial, fun _ _ => trivial⟩
    | logout hash => exact ⟨trivial, fun _ _ => trivial⟩
    | deleteUserSessions username => exact ⟨trivial, fun listed _ => ⟨trivial, fun deleted _ => ⟨deleted, listed, rfl⟩⟩⟩
    | cleanUp now => exact ⟨trivial, fun _ _ => ⟨trivial, fun _ _ => trivial⟩⟩
  start := by simp [Traceable, empty]
  sound := fun _ _ _ _ => trivial
  advance := fun _ _ _ _ _ _ traceable issues _ taken => traceable.step issues taken

theorem stored_of_requireSession {service : LoginService} {request : GuardedRequest} {found later : LoginState}
    {session : SessionRecord} (passes : requireSession service request found later = .ok session) :
    ∃ hash : Text, found.sessions[hash]? = some session := by
  unfold requireSession at passes
  split at passes
  · cases passes
  · rename_i other read
    obtain ⟨token, -, stored⟩ := Option.bind_eq_some_iff.mp read
    split at passes
    · cases passes
    · split at passes
      · split at passes
        · cases passes
        · split at passes
          · cases passes
          · cases passes
            exact ⟨_, stored⟩
      · cases passes

theorem mem_hashes {s : LoginState} {ends : SessionRecord → Bool} {hash : Text} {session : SessionRecord}
    (stored : s.sessions[hash]? = some session) (ended : ends session = true) : hash ∈ s.hashes ends :=
  List.mem_map.mpr ⟨(hash, session), List.mem_filter.mpr
    ⟨Std.ExtTreeMap.mem_toList_iff_getElem?_eq_some.mpr stored, ended⟩, rfl⟩

section Runs

variable {first : LoginState} {events : List (Event AccessCall Empty)}
  {last : State AccessCall AccessAction LoginState Unit} {service : LoginService} {request : GuardedRequest}
  {later : LoginState} {session : SessionRecord}

theorem tracked_of_run (empty : first.sessions = ∅)
    (whole : Runs.run (step accessSystem) { shared := first } events = some last) :
    Tracked accessEffect first Issues (fun _ _ => True) Revokes Traceable last := by
  have meets : Runs.Meets (step accessSystem) (Observes fun _ _ _ _ => True) { shared := first } events :=
    Runs.meets_of_forall _ (fun _ event => by cases event <;> simp [Observes]) _ _
  exact (sessions_track empty).run meets whole

/-- A session that lets a request pass was saved by a login that the throttle had admitted, and that had found its
user enabled and verified a password; no action since then has deleted it. -/
theorem session_of_login (empty : first.sessions = ∅)
    (whole : Runs.run (step accessSystem) { shared := first } events = some last)
    (passes : requireSession service request last.shared later = .ok session) : Kept last.past session := by
  obtain ⟨hash, stored⟩ := stored_of_requireSession passes
  exact ((tracked_of_run empty whole).holds hash session stored).2

/-- Once the sessions of a user have been deleted, only those of that user let a request pass that were saved after
the deletion had listed them. -/
theorem saved_after_revocation (empty : first.sessions = ∅)
    (whole : Runs.run (step accessSystem) { shared := first } events = some last) {task : Nat}
    (returned : last.returned? task = some (.deleteUserSessions session.username, ()))
    (passes : requireSession service request last.shared later = .ok session) :
    ∃ after entry before call, last.past = after ++ entry :: before ∧ entry.label = .login call (.saveSession session) ∧
      ∃ listed, (.scan, listed) ∈ trace task before := by
  have tracked := tracked_of_run empty whole
  obtain ⟨hash, stored⟩ := stored_of_requireSession passes
  obtain ⟨-, after, entry, before, _, _, split, saved, -, since⟩ := tracked.holds hash session stored
  obtain ⟨deleted, listed, steps⟩ := tracked.returned returned
  refine ⟨after, entry, before, _, split, saved, listed, ?_⟩
  have apart : trace task last.past = trace task after ++ trace task (entry :: before) := by
    simp [split, trace]
  rw [steps] at apart
  have scanned : (AccessAction.scan, listed) ∈ trace task after ++ trace task (entry :: before) := by
    simp [← apart]
  rcases List.mem_append.mp scanned with late | early
  · -- The session would have been listed, and the deletion comes later still.
    cases own : trace task after with
    | nil => simp [own] at late
    | cons latest rest =>
      obtain ⟨listing, inside, -, rfl⟩ := exists_of_mem_trace late
      rw [own] at apart
      obtain ⟨rfl, -⟩ := List.cons.inj apart
      obtain ⟨deletion, member, named, -⟩ := exists_of_mem_trace (own ▸ List.mem_cons_self)
      exact absurd (mem_hashes (since listing inside).1 (decide_eq_true rfl)) ((since deletion member).2 _ named)
  · by_cases own : entry.task = task
    · simpa [trace, own, saved] using early
    · rwa [trace_cons_of_ne own] at early

end Runs

section Example

def office : LoginState where
  users := (∅ : Std.ExtTreeMap Text (Json UserRecord)).insert guessed.username
    (.ok { username := guessed.username, passwordHash := guessed.password, administrator := true })

def visit (task : Nat) : List (Event AccessCall Empty) :=
  .spawn task (.login (.login panelService guessed)) :: List.replicate 5 (.advance task)

/-- The sessions of the user are deleted between two logins. -/
def officeDay : List (Event AccessCall Empty) :=
  visit 0 ++ [.spawn 1 (.deleteUserSessions guessed.username), .advance 1, .advance 1] ++ visit 2

def inquiry : GuardedRequest where
  cookie := some "theme=dark; tlsproxy_session=token".toList
  mutates := true
  csrfToken := some panelService.csrfToken

def AccessCall.revoked : AccessCall → Option Text
  | .deleteUserSessions username => some username
  | _ => none

theorem officeDay_passes : ∃ last session,
    Runs.run (step accessSystem) { shared := office } officeDay = some last ∧
      requireSession panelService inquiry last.shared last.shared = .ok session ∧
      last.returned? 1 = some (.deleteUserSessions session.username, ()) := by
  have summary : ((Runs.run (step accessSystem) { shared := office } officeDay).bind fun last =>
      (requireSession panelService inquiry last.shared last.shared).toOption.bind fun session =>
        (last.returned? 1).map fun returned => decide (returned.1.revoked = some session.username)) = some true := by
    decide +kernel
  obtain ⟨last, whole, summary⟩ := Option.bind_eq_some_iff.mp summary
  obtain ⟨session, accepted, summary⟩ := Option.bind_eq_some_iff.mp summary
  obtain ⟨⟨call, _⟩, returned, same⟩ := Option.map_eq_some_iff.mp summary
  refine ⟨last, session, whole, Checks.toOption_eq_some.mp accepted, ?_⟩
  cases call with
  | deleteUserSessions username =>
    cases of_decide_eq_true same
    exact returned
  | _ => cases of_decide_eq_true same

theorem session_of_login_officeDay : ∃ last session,
    Runs.run (step accessSystem) { shared := office } officeDay = some last ∧
      requireSession panelService inquiry last.shared last.shared = .ok session ∧ Kept last.past session := by
  obtain ⟨last, session, whole, passes, -⟩ := officeDay_passes
  exact ⟨last, session, whole, passes, session_of_login rfl whole passes⟩

theorem saved_after_revocation_officeDay : ∃ last session,
    Runs.run (step accessSystem) { shared := office } officeDay = some last ∧
      requireSession panelService inquiry last.shared last.shared = .ok session ∧
      ∃ after entry before call, last.past = after ++ entry :: before ∧ entry.label = .login call (.saveSession session) ∧
        ∃ listed, (.scan, listed) ∈ trace 1 before := by
  obtain ⟨last, session, whole, passes, returned⟩ := officeDay_passes
  exact ⟨last, session, whole, passes, saved_after_revocation rfl whole returned passes⟩

end Example

end TlsProxy.Control
