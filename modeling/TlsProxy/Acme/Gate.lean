import TlsProxy.Acme.Registration

/-! A record for a client-chosen name needs a reason: the name is listed exactly,
the script has accepted it, or public DNS points here. -/
namespace TlsProxy.Acme

open Config Checks Certificates Programs

def Configured (history : History) (task : Nat) (script : Text) : Prop :=
  ∃ entry ∈ history, entry.task = task ∧ entry.label = .load .permitsNewIssuance ∧
    dnsCheckScript entry.found.live = script

/-- A reason to create a record for the domain, found by the task. -/
inductive Vouched (history : History) (task : Nat) (domain : Text) : Prop
  | listed (entry : Entry Action World) (earlier : entry ∈ history) (own : entry.task = task)
      (read : entry.label = .load .permitsNewIssuance)
      (listed : entry.found.live.tlsRoutesListHostExactly domain = true)
  | accepted (entry : Entry Action World) (script : Text) (earlier : entry ∈ history) (own : entry.task = task)
      (ran : entry.label = .script script domain true) (configured : Configured history task script)
  | verified (entry : Entry Action World) (earlier : entry ∈ history) (own : entry.task = task)
      (passed : entry.label = .verified domain [domain])

/-- Every record that has been created was vouched for in the same task before. -/
def Justified (history : History) : Prop :=
  ∀ before entry after, history = before ++ entry :: after → ∀ batch name row, entry.label = .write batch →
    .put .certificates name row ∈ batch →
    ∃ domain, normalizeDomain domain = .ok name ∧ Vouched before entry.task domain

theorem Configured.mono {history more : History} {task : Nat} {script : Text}
    (configured : Configured history task script) : Configured (history ++ more) task script := by
  obtain ⟨entry, earlier, rest⟩ := configured
  exact ⟨entry, List.mem_append_left _ earlier, rest⟩

theorem Vouched.mono {history more : History} {task : Nat} {domain : Text} (vouched : Vouched history task domain) :
    Vouched (history ++ more) task domain := by
  cases vouched with
  | listed entry earlier own read listed => exact .listed entry (List.mem_append_left _ earlier) own read listed
  | accepted entry script earlier own ran configured =>
    exact .accepted entry script (List.mem_append_left _ earlier) own ran configured.mono
  | verified entry earlier own passed => exact .verified entry (List.mem_append_left _ earlier) own passed

inductive Phase
  | fresh
  /-- No script was configured when the task looked first. -/
  | unscripted
  | scripted (script : Text)
  /-- No script was configured when the task looked again. -/
  | checking
  | vouched
deriving DecidableEq

structure Stage where
  domain : Text := []
  phase : Phase := .fresh
deriving DecidableEq

def Stage.observe (t : Stage) (action : Action) (w : World) : Stage :=
  match action with
  | .load .permitsNewIssuance =>
    if (dnsCheckScript w.live).isEmpty then { t with phase := .unscripted }
    else if w.live.tlsRoutesListHostExactly t.domain then { t with phase := .vouched }
    else { t with phase := .scripted (dnsCheckScript w.live) }
  | .load .gatesRegistration => if t.phase = .unscripted then { t with phase := .checking } else t
  | .script _ _ true => { t with phase := .vouched }
  | .verified _ _ => { t with phase := .vouched }
  | _ => t

/-- Records are created only with a reason, and reasons are about the task's domain. -/
structure Gated (t : Stage) (action : Action) : Prop where
  creates : ∀ batch name row, action = .write batch → .put .certificates name row ∈ batch →
    t.phase = .vouched ∧ normalizeDomain t.domain = .ok name
  accepts : ∀ script domain, action = .script script domain true → t.phase = .scripted script ∧ domain = t.domain
  verifies : ∀ id domains, action = .verified id domains → id = t.domain ∧ domains = [t.domain]

def gating : Monitor Action World Stage where
  allowed := Gated
  assumes t action w := t.phase = .unscripted → action = .load .gatesRegistration →
    (dnsCheckScript w.live).isEmpty = true
  observe := Stage.observe

section Tasks

variable {α : Type} {t : Stage}

def Plain : Action → Prop
  | .write batch => ∀ name row, .put .certificates name row ∉ batch
  | .script _ _ accepted => accepted = false
  | .verified .. => False
  | _ => True

theorem Plain.gated {action : Action} (plain : Plain action) : Gated t action where
  creates := by
    rintro batch name row rfl put
    exact absurd put (plain name row)
  accepts := by
    rintro script domain rfl
    cases plain
  verifies := by
    rintro id domains rfl
    cases plain

def Neutral (task : Task α) : Prop := ∀ t, Yields gating (fun next _ => next = t) t task

theorem neutral_query {answer : Certificates.Store → Except Text α} : Neutral (query answer) :=
  fun _ => .ask (Plain.gated trivial) fun _ _ _ _ => rfl

theorem Neutral.bind {β : Type} {task : Task α} {rest : α → Task β} (first : Neutral task)
    (next : ∀ a, Neutral (rest a)) : Neutral (task >>= rest) := by
  intro t
  refine .bind ((first t).mono ?_)
  rintro _ a rfl
  exact next a _

theorem neutral_pure (a : α) : Neutral (pure a : Task α) := fun _ => rfl

theorem neutral_ofExcept (value : Except Text α) : Neutral (ofExcept value) := fun _ => .ofExcept fun _ _ => rfl

theorem neutral_forM {xs : List α} {body : α → Task PUnit} (each : ∀ x, Neutral (body x)) : Neutral (xs.forM body) := by
  intro t
  refine Yields.forM ?_ rfl
  rintro x _ _ rfl
  exact each x _

theorem certificateForDomain_neutral (domain : Text) : Neutral (certificateForDomain domain) := by
  refine (neutral_ofExcept _).bind fun name => neutral_query.bind fun found => ?_
  grind [neutral_pure, neutral_query]

theorem saveDnsDiagnostics_neutral (id : Text) (values : List DnsDiagnostic) :
    Neutral (saveDnsDiagnostics id values) := by
  refine neutral_query.bind fun keys t => .ask (Plain.gated ?_) fun _ _ _ _ => rfl
  intro name row
  simp [diagnosticsBatch]

variable {domain : Text} {registrar : Registrar}

theorem verify_vouches (resolving : Resolving) (control : ControlPlaneConfig) (phase : Phase) :
    Yields gating (fun t _ => t = ⟨domain, .vouched⟩) ⟨domain, phase⟩ (verify resolving domain [domain] control) := by
  refine .bind ((neutral_ofExcept _ _).mono ?_)
  rintro _ selfIps rfl
  refine .bind ((verifyDomains_yields resolving (saveDnsDiagnostics_neutral domain · _) control selfIps _ _).mono ?_)
  rintro _ _ rfl
  refine .ask ⟨nofun, nofun, ?_⟩ fun _ _ _ _ => rfl
  rintro _ _ ⟨⟩
  exact ⟨rfl, rfl⟩

theorem dnsCheckAllows_vouches (script : Text) (failureTtl : Nat) :
    Yields gating (fun t allowed => allowed = true → t = ⟨domain, .vouched⟩) ⟨domain, .scripted script⟩
      (dnsCheckAllows registrar script domain failureTtl) := by
  refine .bind (.ask (Plain.gated trivial) ?_)
  intro w rejected _ _
  cases rejected with
  | true => exact .pure (by nofun)
  | false =>
    change Yields gating _ ⟨domain, .scripted script⟩ _
    cases allowed : registrar.runDnsCheckScript script domain with
    | true =>
      refine .bind (.ask ⟨nofun, ?_, nofun⟩ ?_)
      · simp
      · intro _ _ _ _
        exact .pure fun _ => rfl
    | false =>
      refine .bind (.ask (Plain.gated rfl) fun _ _ _ _ => ?_)
      exact .bind (.ask (Plain.gated trivial) fun _ _ _ _ => .pure (by nofun))

theorem dnsCheckPermitsNewIssuance_vouches :
    Yields gating (fun t _ => t = ⟨domain, .unscripted⟩ ∨ t = ⟨domain, .vouched⟩) ⟨domain, .fresh⟩
      (dnsCheckPermitsNewIssuance registrar domain) := by
  refine .bind (.ask (Plain.gated trivial) ?_)
  rintro w config - ⟨⟩
  dsimp only [gating, Stage.observe]
  split
  · exact .pure (.inl rfl)
  · split
    · exact .pure (.inr rfl)
    · refine .bind ((dnsCheckAllows_vouches _ _).mono ?_)
      intro t allowed vouches
      exact .ofExcept fun _ passed => .inr (vouches (require_eq_ok.mp passed))

theorem dnsPrerequisitePermits_vouches {t : Stage} (reached : t = ⟨domain, .unscripted⟩ ∨ t = ⟨domain, .vouched⟩) :
    Yields gating (fun t _ => t = ⟨domain, .vouched⟩) t (dnsPrerequisitePermits registrar domain) := by
  refine .bind (.ask (Plain.gated trivial) ?_)
  rintro w gates known ⟨⟩
  have verifies : ∀ phase, Yields gating (fun t _ => t = ⟨domain, .vouched⟩) ⟨domain, phase⟩ (do
      let control ← ask (.load .controlPlane) fun w => .ok w.live.controlPlane
      verify registrar.resolving domain [domain] control) := by
    intro phase
    exact .bind (.ask (Plain.gated trivial) fun _ _ _ _ => verify_vouches _ _ phase)
  rcases reached with rfl | rfl
  · have blank := known rfl rfl
    simp only [blank, Bool.not_true, Bool.false_eq_true, if_false]
    exact verifies .checking
  · split
    · exact .pure rfl
    · exact verifies .vouched

theorem saveBatch_gated {name providerId : Text} (normal : normalizeDomain domain = .ok name)
    {existing : Option ManagedCertificate} {old normalized : List Text} {now : OffsetDateTime} :
    Gated ⟨domain, .vouched⟩ (.write (saveBatch (automaticCertificate name providerId) existing old normalized now)) where
  creates := by
    rintro _ other row ⟨⟩ put
    simp only [saveBatch, List.mem_append, List.mem_map, List.mem_singleton, reduceCtorEq, and_false, exists_false,
      Families.Write.put.injEq, false_and, or_self, false_or, true_and] at put
    rw [put.1]
    exact ⟨rfl, normal⟩
  accepts := nofun
  verifies := nofun

theorem saveManagedCertificateLocked_gated {name providerId : Text} (normal : normalizeDomain domain = .ok name)
    (now : OffsetDateTime) :
    Yields gating (fun _ _ => True) ⟨domain, .vouched⟩
      (saveManagedCertificateLocked (automaticCertificate name providerId) now) := by
  refine .bind ((neutral_ofExcept _ _).mono ?_)
  rintro _ _ rfl
  refine .bind ((neutral_query _).mono ?_)
  rintro _ existing rfl
  refine .bind ((neutral_ofExcept _ _).mono ?_)
  rintro _ normalized rfl
  refine .bind ((neutral_ofExcept _ _).mono ?_)
  rintro _ _ rfl
  refine .bind ((neutral_forM (fun _ => neutral_query) _).mono ?_)
  rintro _ _ rfl
  refine .bind ((neutral_ofExcept _ _).mono ?_)
  rintro _ old rfl
  exact .ask (saveBatch_gated normal) fun _ _ _ _ => trivial

theorem createAutomaticCertificateIfAbsent_gated (now : OffsetDateTime) :
    Yields gating (fun _ _ => True) ⟨domain, .vouched⟩ (createAutomaticCertificateIfAbsent domain now) := by
  refine .bind (.ofExcept fun name normal => .underGate (Plain.gated trivial) (fun _ => Plain.gated trivial) ?_)
  intro _ _
  refine .bind ((certificateForDomain_neutral name _).mono ?_)
  rintro _ found rfl
  cases found with
  | some certificate => exact .pure fun _ => trivial
  | none =>
    refine .bind ((neutral_query _).mono ?_)
    rintro _ providerId rfl
    exact .bind ((saveManagedCertificateLocked_gated normal now).mono fun _ _ _ => .pure fun _ => trivial)

theorem registerAutomatic_gated :
    Yields gating (fun _ _ => True) ⟨domain, .fresh⟩ (registerAutomatic registrar domain) := by
  refine .bind ((certificateForDomain_neutral domain _).mono ?_)
  rintro _ found rfl
  cases found with
  | some certificate => exact .pure trivial
  | none =>
    refine .bind (dnsCheckPermitsNewIssuance_vouches.mono fun _ _ reached => ?_)
    refine .bind ((dnsPrerequisitePermits_vouches reached).mono ?_)
    rintro _ _ rfl
    exact createAutomaticCertificateIfAbsent_gated _

end Tasks

structure RegistrationCall where
  registrar : Registrar
  domain : Text

def registrationSystem : System RegistrationCall RuntimeConfig Action World (Except Text Bool) where
  program := fun call => (registerAutomatic call.registrar call.domain).run
  effect := effect
  outside := fun config w => some { w with live := config }

abbrev RegistrationState := State RegistrationCall Action World (Except Text Bool)

def asksAgain : Action → Bool
  | .load .gatesRegistration => true
  | _ => false

def foundNoScript (entry : Entry Action World) : Bool :=
  match entry.label with
  | .load .permitsNewIssuance => (dnsCheckScript entry.found.live).isEmpty
  | _ => false

/-- A task that has found no script finds none when it asks again. -/
def ScriptStaysOff (s : RegistrationState) : Event RegistrationCall RuntimeConfig → Prop
  | .advance task => ∀ action ∈ s.label? task, asksAgain action = true →
      ∀ entry ∈ s.history, entry.task = task → foundNoScript entry = true →
        (dnsCheckScript s.shared.live).isEmpty = true
  | _ => True

instance (s : RegistrationState) : (event : Event RegistrationCall RuntimeConfig) → Decidable (ScriptStaysOff s event)
  | .advance task => inferInstanceAs (Decidable (∀ action ∈ s.label? task, asksAgain action = true →
      ∀ entry ∈ s.history, entry.task = task → foundNoScript entry = true →
        (dnsCheckScript s.shared.live).isEmpty = true))
  | .spawn .. | .abandon _ | .outside _ => .isTrue trivial

def Known (history : History) (task : Nat) (t : Stage) : Prop :=
  match t.phase with
  | .unscripted => ∃ entry ∈ history, entry.task = task ∧ foundNoScript entry = true
  | .scripted script => Configured history task script
  | .vouched => Vouched history task t.domain
  | .fresh | .checking => True

theorem Known.mono {history more : History} {task : Nat} {t : Stage} (known : Known history task t) :
    Known (history ++ more) task t := by
  obtain ⟨domain, phase⟩ := t
  cases phase with
  | unscripted =>
    obtain ⟨entry, earlier, rest⟩ := known
    exact ⟨entry, List.mem_append_left _ earlier, rest⟩
  | scripted script => exact Configured.mono known
  | vouched => exact Vouched.mono known
  | fresh => trivial
  | checking => trivial

theorem Known.observe {history : History} {task : Nat} {t : Stage} (known : Known history task t) {action : Action}
    (gated : Gated t action) (w : World) :
    Known (history ++ [⟨task, action, w⟩]) task (t.observe action w) := by
  have last : (⟨task, action, w⟩ : Entry Action World) ∈ history ++ [⟨task, action, w⟩] :=
    List.mem_append_right _ (List.mem_singleton_self _)
  cases action with
  | load reader =>
    cases reader with
    | permitsNewIssuance =>
      dsimp only [Stage.observe]
      split
      · rename_i blank
        exact ⟨_, last, rfl, blank⟩
      · split
        · rename_i listed
          exact Vouched.listed _ last rfl rfl listed
        · exact ⟨_, last, rfl, rfl, rfl⟩
    | gatesRegistration =>
      dsimp only [Stage.observe]
      split
      · trivial
      · exact known.mono
    | controlPlane => exact known.mono
  | script script domain accepted =>
    cases accepted with
    | false => exact known.mono
    | true =>
      obtain ⟨phase, rfl⟩ := gated.accepts script domain rfl
      rw [Known, phase] at known
      exact Vouched.accepted _ script last rfl rfl (Configured.mono known)
  | verified id domains =>
    obtain ⟨rfl, rfl⟩ := gated.verifies id domains rfl
    exact Vouched.verified _ last rfl rfl
  | _ => exact known.mono

theorem Justified.append {history : History} (justified : Justified history) {entry : Entry Action World}
    (own : ∀ batch name row, entry.label = .write batch → .put .certificates name row ∈ batch →
      ∃ domain, normalizeDomain domain = .ok name ∧ Vouched history entry.task domain) :
    Justified (history ++ [entry]) := by
  intro before other after split
  rcases List.eq_nil_or_concat after with rfl | ⟨rest, last, rfl⟩
  · grind [List.append_inj']
  · rw [List.concat_eq_append, ← List.cons_append, ← List.append_assoc] at split
    obtain ⟨rfl, -⟩ := List.append_inj' split rfl
    exact justified before other rest rfl

structure GateInv (w : World) (history : History) (seen : Nat → Stage) : Prop where
  justified : Justified history
  known : ∀ task, Known history task (seen task)

theorem GateInv.restart {w : World} {history : History} {seen : Nat → Stage} (inv : GateInv w history seen) {task : Nat}
    {t : Stage} (known : Known history task t) : GateInv w history (Function.update seen task t) where
  justified := inv.justified
  known := (Function.forall_update_iff seen _).mpr ⟨known, fun other _ => inv.known other⟩

theorem keeps_gate :
    Keeps registrationSystem gating (fun call => ⟨call.domain, .fresh⟩) ({} : Stage) (fun _ _ _ => True)
      ScriptStaysOff GateInv where
  programs := fun call => Obeys.mono (fun _ _ _ => trivial) registerAutomatic_gated
  assumes := by
    rintro s seen task _ watched ordered running - phase rfl
    have known := watched.holds.known task
    rw [Known, phase] at known
    obtain ⟨entry, earlier, own, blank⟩ := known
    exact ordered _ running rfl entry earlier own blank
  advance := by
    intro s seen task action changed watched ordered running gated taken
    obtain ⟨justified, known⟩ := watched.holds
    refine ⟨justified.append ?_, ?_⟩
    · rintro batch name row rfl put
      obtain ⟨phase, normal⟩ := gated.creates batch name row rfl put
      grind [Known]
    · refine (Function.forall_update_iff seen _).mpr ⟨?_, fun other _ => (known other).mono⟩
      exact (known task).observe gated s.shared
  spawn := by
    intro s seen task call watched _ _
    exact watched.holds.restart trivial
  abandon := by
    intro s seen task watched
    exact watched.holds.restart trivial
  outside := by
    intro s seen config changed watched _ taken
    exact ⟨watched.holds.justified, watched.holds.known⟩

section Example

def advanceAll (times : Nat) : List (Event RegistrationCall RuntimeConfig) := List.replicate times (.advance 0)

def creates (entry : Entry Action World) : Bool :=
  match entry.label with
  | .write batch => batch.any fun
      | .put .certificates _ _ => true
      | _ => false
  | _ => false

/-- The entry may be a reason: exact names are configured, the script accepts, or the DNS check passes. -/
def mayVouch (entry : Entry Action World) : Bool :=
  match entry.label with
  | .load .permitsNewIssuance => !(entry.found.live.defaultListener.ordinaryTraffic.routes.flatMap
      (fun route => route.matcher.exact)).isEmpty || !entry.found.live.additionalListeners.entries.isEmpty
  | .script _ _ accepted => accepted
  | .verified .. => true
  | _ => false

theorem not_vouched {history : History} (none : ∀ entry ∈ history, mayVouch entry = false) {task : Nat}
    {domain : Text} : ¬ Vouched history task domain := by
  intro vouched
  cases vouched with
  | listed entry earlier own read listed =>
    have unlisted := none entry earlier
    simp only [mayVouch, read, Bool.or_eq_false_iff, Bool.not_eq_false', List.isEmpty_iff] at unlisted
    simp only [RuntimeConfig.tlsRoutesListHostExactly, unlisted, List.filterMap_nil, List.flatMap_cons,
      List.flatMap_nil, List.append_nil, List.any_nil, Bool.false_eq_true] at listed
  | accepted entry script earlier own ran configured => grind [mayVouch]
  | verified entry earlier own passed => grind [mayVouch]

theorem not_justified {history : History} (created : history.any creates = true)
    (none : history.any mayVouch = false) : ¬ Justified history := by
  intro justified
  obtain ⟨entry, member, creating⟩ := List.any_eq_true.mp created
  obtain ⟨before, after, rfl⟩ := List.append_of_mem member
  unfold creates at creating
  split at creating
  · rename_i batch label
    obtain ⟨item, inside, puts⟩ := List.any_eq_true.mp creating
    split at puts
    · obtain ⟨domain, -, vouched⟩ := justified before entry after rfl batch _ _ label inside
      refine not_vouched (fun other earlier => ?_) vouched
      grind
    · cases puts
  · cases creating

end Example

end TlsProxy.Acme
