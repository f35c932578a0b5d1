import TlsProxy.Lib.Runs
import TlsProxy.Lib.Text
import TlsProxy.Lib.Checks
import TlsProxy.Lib.Families

/-! `acme_challenge.rs`: certificates for TLS-ALPN challenges under their domains,
with an expiry and a nonce. Every call takes the registry's lock once; in
between, any call and any time may pass. -/
namespace TlsProxy.Challenge

variable {κ : Type}

structure Entry (κ : Type) where
  certificate : κ
  expiresAt : Nat
  nonce : UInt64
  /-- Not in the source: the number of the `register` call that made the entry. -/
  call : Nat
deriving DecidableEq

abbrev Entries (κ : Type) := Std.ExtTreeMap Text (Entry κ)

structure ChallengeGuard where
  domain : Text
  nonce : UInt64
deriving DecidableEq

def normalizeDomain (domain : Text) : Except Text Text :=
  let domain := Text.toAsciiLowercase (Text.trimEndMatches (· == '.') (Text.trim domain))
  if domain.isEmpty || domain.contains '/' || domain.contains '\x00' then
    .error "invalid ACME challenge domain".toList
  else .ok domain

def nextNonce (entries : Entries κ) (domain : Text) : UInt64 :=
  (entries[domain]?.map fun entry => entry.nonce + 1).getD 1

def register (entries : Entries κ) (call : Nat) (domain : Text) (made : Except Text κ) (ttl now : Nat) :
    Except Text (Entries κ × ChallengeGuard) := do
  let domain ← normalizeDomain domain
  let certificate ← made
  let nonce := nextNonce entries domain
  return (entries.insert domain { certificate, expiresAt := now + ttl, nonce, call }, { domain, nonce })

def resolve (entries : Entries κ) (domain : Text) (now : Nat) : Option κ × Entries κ :=
  match normalizeDomain domain with
  | .error _ => (none, entries)
  | .ok domain =>
    match entries[domain]? with
    | none => (none, entries)
    | some entry =>
      if entry.expiresAt ≤ now then (none, entries.erase domain) else (some entry.certificate, entries)

def purgeExpired (entries : Entries κ) (now : Nat) : Entries κ :=
  entries.filter fun _ entry => decide (now < entry.expiresAt)

def ChallengeGuard.drop (guard : ChallengeGuard) (entries : Entries κ) : Entries κ :=
  if entries[guard.domain]?.any fun entry => entry.nonce == guard.nonce then entries.erase guard.domain else entries

structure Registration (κ : Type) where
  domain : Text
  certificate : κ
  expiresAt : Nat
deriving DecidableEq

structure State (κ : Type) where
  entries : Entries κ := ∅
  now : Nat := 0
  /-- The guards that have not been dropped, under the numbers of their `register` calls. -/
  guards : Nat → Option ChallengeGuard := fun _ => none
  /-- Not in the source: what the successful `register` calls registered. -/
  log : List (Registration κ) := []

inductive Event (κ : Type)
  | tick (elapsed : Nat)
  | register (domain : Text) (made : Except Text κ) (ttl : Nat)
  | resolve (domain : Text)
  /-- The clock is read before the lock is taken. -/
  | purgeExpired (now : Nat)
  | drop (call : Nat)

def step (s : State κ) : Event κ → Option (State κ)
  | .tick elapsed => some { s with now := s.now + elapsed }
  | .register domain made ttl =>
    match made, register s.entries s.log.length domain made ttl s.now with
    | .ok certificate, .ok (entries, guard) =>
      some
        { s with
          entries
          guards := Function.update s.guards s.log.length (some guard)
          log := s.log ++ [{ domain := guard.domain, certificate, expiresAt := s.now + ttl }] }
    | _, _ => some s
  | .resolve domain => some { s with entries := (resolve s.entries domain s.now).2 }
  | .purgeExpired now => if now ≤ s.now then some { s with entries := purgeExpired s.entries now } else none
  | .drop call =>
    (s.guards call).map fun guard =>
      { s with entries := guard.drop s.entries, guards := Function.update s.guards call none }

def Latest (log : List (Registration κ)) (call : Nat) (registration : Registration κ) : Prop :=
  log[call]? = some registration ∧
    ∀ later other, call < later → log[later]? = some other → other.domain ≠ registration.domain

/-- The registration has not expired and its guard has not been dropped. -/
structure Live (s : State κ) (call : Nat) (registration : Registration κ) : Prop where
  logged : s.log[call]? = some registration
  held : s.guards call ≠ none
  fresh : s.now < registration.expiresAt

/-- The latest registration of its domain that is live. -/
structure LatestLive (s : State κ) (call : Nat) (registration : Registration κ) : Prop
    extends Live s call registration where
  latest : ∀ later other, call < later → Live s later other → other.domain ≠ registration.domain

def EachLive (s : State κ) (domain : Text) (calls : Nat) (P : Registration κ → Prop) : Prop :=
  ∀ call < calls, ∀ registration ∈ s.log[call]?, registration.domain = domain → (s.guards call).isSome →
    s.now < registration.expiresAt → P registration

/-- A domain is registered again only while its entry is stored, with a nonce that can be counted on, or after all
its guards have been dropped, and for no shorter time than registrations that are live. A guard is dropped only after
those of the older registrations of the domain that have not expired. -/
def Orderly (s : State κ) : Event κ → Prop
  | .register domain _ ttl => ∀ name ∈ (normalizeDomain domain).toOption,
      ((∃ entry ∈ s.entries[name]?, entry.nonce.toNat + 1 < UInt64.size) ∨
        s.entries[name]? = none ∧ ∀ call < s.log.length, ∀ guard ∈ s.guards call, guard.domain ≠ name) ∧
      EachLive s name s.log.length fun older => older.expiresAt ≤ s.now + ttl
  | .drop call => ∀ own ∈ s.log[call]?, EachLive s own.domain call fun _ => False
  | _ => True

instance decidableEachLive (s : State κ) (domain : Text) (calls : Nat) (P : Registration κ → Prop) [DecidablePred P] :
    Decidable (EachLive s domain calls P) :=
  inferInstanceAs (Decidable (∀ call < calls, ∀ registration ∈ s.log[call]?, registration.domain = domain →
    (s.guards call).isSome → s.now < registration.expiresAt → P registration))

instance decidableOrderly (s : State κ) : (event : Event κ) → Decidable (Orderly s event)
  | .register domain _ ttl => inferInstanceAs (Decidable (∀ name ∈ (normalizeDomain domain).toOption,
      ((∃ entry ∈ s.entries[name]?, entry.nonce.toNat + 1 < UInt64.size) ∨
        s.entries[name]? = none ∧ ∀ call < s.log.length, ∀ guard ∈ s.guards call, guard.domain ≠ name) ∧
      EachLive s name s.log.length fun older => older.expiresAt ≤ s.now + ttl))
  | .drop call => inferInstanceAs (Decidable (∀ own ∈ s.log[call]?, EachLive s own.domain call fun _ => False))
  | .tick _ | .resolve _ | .purgeExpired _ => .isTrue trivial

structure Inv (s : State κ) : Prop where
  guards : ∀ call guard, s.guards call = some guard → call < s.log.length
  /-- Of the guards of a stored domain, only the entry's own has its nonce. -/
  nonces : ∀ (domain : Text) (entry : Entry κ) call guard, s.entries[domain]? = some entry → s.guards call = some guard →
    guard.domain = domain → guard.nonce.toNat ≤ entry.nonce.toNat ∧ (guard.nonce = entry.nonce → call = entry.call)
  latest : ∀ call registration, Latest s.log call registration → s.guards call ≠ none →
    s.now < registration.expiresAt →
    ∃ nonce, s.entries[registration.domain]? = some ⟨registration.certificate, registration.expiresAt, nonce, call⟩
  /-- A registration that is live has been replaced by live ones only. -/
  ordered : ∀ call registration, Live s call registration → ∀ later other, call < later → s.log[later]? = some other →
    other.domain = registration.domain → s.guards later ≠ none ∧ registration.expiresAt ≤ other.expiresAt

theorem inv_initial : Inv ({} : State κ) where
  guards := by
    intro call guard none
    cases none
  nonces := by simp
  latest := by simp
  ordered := by simp

/-- Steps that only take entries and guards away keep the invariant, unless they take the entry of a registration
that still counts. -/
theorem Inv.shrink {s next : State κ} (inv : Inv s) (log : next.log = s.log) (now : s.now ≤ next.now)
    (entries : ∀ (domain : Text) (entry : Entry κ),
      next.entries[domain]? = some entry → s.entries[domain]? = some entry)
    (guards : ∀ call guard, next.guards call = some guard → s.guards call = some guard)
    (kept : ∀ (domain : Text) (entry : Entry κ), s.entries[domain]? = some entry → next.guards entry.call ≠ none →
      next.now < entry.expiresAt → next.entries[domain]? = some entry)
    (held : ∀ call registration, Live next call registration → ∀ later other, call < later → s.log[later]? = some other →
      other.domain = registration.domain → s.guards later ≠ none → next.guards later ≠ none) : Inv next where
  guards := by
    intro call guard held
    rw [log]
    exact inv.guards call guard (guards call guard held)
  nonces := by
    intro domain entry call guard listed held
    exact inv.nonces domain entry call guard (entries domain entry listed) (guards call guard held)
  latest := by
    intro call registration latest held fresh
    rw [log] at latest
    have before : s.guards call ≠ none := by
      obtain ⟨guard, here⟩ := Option.ne_none_iff_exists'.mp held
      grind
    grind [Inv.latest]
  ordered := by
    intro call registration live later other after logged same
    have before : Live s call registration := by
      obtain ⟨guard, here⟩ := Option.ne_none_iff_exists'.mp live.held
      refine ⟨log ▸ live.logged, ?_, Nat.lt_of_le_of_lt now live.fresh⟩
      rw [guards call guard here]
      exact Option.some_ne_none _
    rw [log] at logged
    obtain ⟨heldBefore, expires⟩ := inv.ordered call registration before later other after logged same
    exact ⟨held call registration live later other after logged same heldBefore, expires⟩

theorem Inv.tick {s : State κ} (inv : Inv s) (elapsed : Nat) : Inv { s with now := s.now + elapsed } :=
  inv.shrink rfl (Nat.le_add_right _ _) (fun _ _ listed => listed) (fun _ _ held => held) (fun _ _ listed _ _ => listed)
    fun _ _ _ _ _ _ _ _ held => held

theorem resolve_entries (entries : Entries κ) (domain : Text) (now : Nat) :
    (resolve entries domain now).2 = entries ∨ ∃ name entry, entries[name]? = some entry ∧ entry.expiresAt ≤ now ∧
      (resolve entries domain now).2 = entries.erase name := by
  unfold resolve
  split
  · exact .inl rfl
  · rename_i name normal
    split
    · exact .inl rfl
    · grind

theorem Inv.resolve {s : State κ} (inv : Inv s) (domain : Text) :
    Inv { s with entries := (resolve s.entries domain s.now).2 } := by
  rcases resolve_entries s.entries domain s.now with same | ⟨name, old, stored, expired, same⟩
  · rw [same]
    exact inv
  · rw [same]
    refine inv.shrink rfl (Nat.le_refl _) ?_ (fun _ _ held => held) ?_ fun _ _ _ _ _ _ _ _ held => held
    · grind
    · intro domain entry listed held fresh
      grind

theorem getElem?_purgeExpired (entries : Entries κ) (now : Nat) (domain : Text) :
    (purgeExpired entries now)[domain]? = entries[domain]?.filter fun entry => decide (now < entry.expiresAt) :=
  Std.ExtTreeMap.getElem?_filter'

theorem Inv.purgeExpired {s : State κ} (inv : Inv s) {now : Nat} (past : now ≤ s.now) :
    Inv { s with entries := purgeExpired s.entries now } := by
  refine inv.shrink rfl (Nat.le_refl _) ?_ (fun _ _ held => held) ?_ fun _ _ _ _ _ _ _ _ held => held
  · grind [getElem?_purgeExpired]
  · grind [getElem?_purgeExpired]

theorem Inv.drop_removes {s : State κ} (inv : Inv s) {call : Nat} {guard : ChallengeGuard}
    (held : s.guards call = some guard) {domain : Text} {entry : Entry κ} (listed : s.entries[domain]? = some entry)
    (other : entry.call ≠ call) : (guard.drop s.entries)[domain]? = some entry := by
  unfold ChallengeGuard.drop
  split
  · rename_i found
    rw [Families.getElem?_erase, if_neg]
    · exact listed
    · rintro rfl
      rw [listed, Option.any_some, beq_iff_eq] at found
      exact other ((inv.nonces guard.domain entry call guard listed held rfl).2 found.symm).symm
  · exact listed

theorem drop_entries {guard : ChallengeGuard} {entries : Entries κ} {domain : Text} {entry : Entry κ}
    (listed : (guard.drop entries)[domain]? = some entry) : entries[domain]? = some entry := by
  unfold ChallengeGuard.drop at listed
  split at listed
  · grind
  · exact listed

theorem Inv.drop {s : State κ} (inv : Inv s) {call : Nat} (orderly : Orderly s (.drop call)) {guard : ChallengeGuard}
    (held : s.guards call = some guard) :
    Inv { s with entries := guard.drop s.entries, guards := Function.update s.guards call none } := by
  refine inv.shrink rfl (Nat.le_refl _) (fun _ _ => drop_entries) ?_ ?_ ?_
  · intro other later kept
    grind
  · grind [Inv.drop_removes]
  · intro older registration live later other after logged same heldBefore
    have stillHeld : s.guards older ≠ none := by
      have kept := live.held
      grind
    have different : later ≠ call := by
      rintro rfl
      exact orderly other logged older after registration live.logged same.symm (Option.isSome_iff_ne_none.mpr stillHeld)
        live.fresh
    dsimp only
    rwa [Function.update_of_ne different]

theorem register_ok {entries next : Entries κ} {call : Nat} {domain : Text} {certificate : κ} {ttl now : Nat}
    {guard : ChallengeGuard} (registered : register entries call domain (.ok certificate) ttl now = .ok (next, guard)) :
    normalizeDomain domain = .ok guard.domain ∧ guard.nonce = nextNonce entries guard.domain ∧
      next = entries.insert guard.domain ⟨certificate, now + ttl, guard.nonce, call⟩ := by
  obtain ⟨name, normal, rest⟩ := Checks.bind_eq_ok.mp registered
  cases rest
  exact ⟨normal, rfl, rfl⟩

theorem Latest.of_concat {log : List (Registration κ)} {call : Nat} {registration new : Registration κ}
    (latest : Latest (log ++ [new]) call registration) :
    call = log.length ∧ registration = new ∨ Latest log call registration ∧ new.domain ≠ registration.domain := by
  obtain ⟨here, later⟩ := latest
  by_cases old : call < log.length
  · refine .inr ⟨⟨?_, ?_⟩, later log.length new old List.getElem?_concat_length⟩
    · rwa [List.getElem?_append_left old] at here
    · grind
  · grind

theorem Inv.register {s : State κ} (inv : Inv s) {domain : Text} {made : Except Text κ} {certificate : κ} {ttl : Nat}
    (orderly : Orderly s (.register domain made ttl)) {guard : ChallengeGuard}
    (normal : normalizeDomain domain = .ok guard.domain) (nonce : guard.nonce = nextNonce s.entries guard.domain) :
    Inv
      { s with
        entries := s.entries.insert guard.domain ⟨certificate, s.now + ttl, guard.nonce, s.log.length⟩
        guards := Function.update s.guards s.log.length (some guard)
        log := s.log ++ [⟨guard.domain, certificate, s.now + ttl⟩] } := by
  have older : ∀ call other, s.guards call = some other → other.domain = guard.domain →
      other.nonce.toNat < guard.nonce.toNat := by
    intro call other held same
    rcases (orderly guard.domain (by rw [normal]; rfl)).1 with ⟨entry, listed, small⟩ | ⟨-, free⟩
    · have below := (inv.nonces guard.domain entry call other listed held same).1
      have next : guard.nonce = entry.nonce + 1 := by grind [nextNonce]
      grind [UInt64.toNat_add]
    · grind [Inv.guards]
  constructor
  · intro call other held
    rw [List.length_append, List.length_singleton]
    by_cases same : call = s.log.length
    · omega
    · dsimp only at held
      rw [Function.update_of_ne same] at held
      exact Nat.lt_succ_of_lt (inv.guards call other held)
  · intro name entry call other listed held same
    dsimp only at listed held
    rw [Families.getElem?_insert] at listed
    by_cases new : call = s.log.length
    · grind
    · rw [Function.update_of_ne new] at held
      split at listed
      · grind
      · exact inv.nonces name entry call other listed held same
  · intro call registration latest held fresh
    dsimp only at latest held fresh ⊢
    rw [Families.getElem?_insert]
    rcases latest.of_concat with ⟨rfl, rfl⟩ | ⟨before, elsewhere⟩
    · exact ⟨guard.nonce, if_pos rfl⟩
    · have old : call ≠ s.log.length := Nat.ne_of_lt (List.getElem?_eq_some_iff.mp before.1).1
      grind [Inv.latest]
  · rintro call registration ⟨logged, held, fresh⟩ later other after loggedLater same
    dsimp only at logged held fresh loggedLater ⊢
    have inLog := (List.getElem?_eq_some_iff.mp loggedLater).1
    rw [List.length_append, List.length_singleton] at inLog
    have old : call < s.log.length := by omega
    rw [List.getElem?_append_left old] at logged
    rw [Function.update_of_ne (Nat.ne_of_lt old)] at held
    by_cases new : later = s.log.length
    · subst new
      rw [List.getElem?_concat_length] at loggedLater
      cases loggedLater
      rw [Function.update_self]
      refine ⟨Option.some_ne_none _, ?_⟩
      exact (orderly guard.domain (by rw [normal]; rfl)).2 call old registration logged same.symm
        (Option.isSome_iff_ne_none.mpr held) fresh
    · rw [Function.update_of_ne new]
      rw [List.getElem?_append_left (by omega)] at loggedLater
      exact inv.ordered call registration ⟨logged, held, fresh⟩ later other after loggedLater same

theorem step_preserves_inv (s : State κ) (event : Event κ) (next : State κ) (inv : Inv s) (orderly : Orderly s event)
    (taken : step s event = some next) : Inv next := by
  cases event with
  | tick elapsed => cases taken; exact inv.tick elapsed
  | resolve domain => cases taken; exact inv.resolve domain
  | purgeExpired now =>
    simp only [step, Option.ite_none_right_eq_some, Option.some.injEq] at taken
    grind [Inv.purgeExpired]
  | drop call =>
    obtain ⟨guard, held, rfl⟩ := Option.map_eq_some_iff.mp taken
    exact inv.drop orderly held
  | register domain made ttl =>
    simp only [step] at taken
    split at taken
    · rename_i certificate entries guard registered
      cases taken
      obtain ⟨normal, nonce, rfl⟩ := register_ok registered
      exact inv.register orderly normal nonce
    · cases taken
      exact inv

theorem LatestLive.latest_log {s : State κ} (inv : Inv s) {call : Nat} {registration : Registration κ}
    (live : LatestLive s call registration) : Latest s.log call registration := by
  refine ⟨live.logged, fun later other after logged same => ?_⟩
  obtain ⟨held, expires⟩ := inv.ordered call registration live.toLive later other after logged same
  exact live.latest later other after ⟨logged, held, Nat.lt_of_lt_of_le live.fresh expires⟩ same

/-- Dropping a guard takes no entry of another call away, and the latest registration of a domain that has neither
expired nor been dropped resolves to its own certificate. -/
theorem guard_owns_registration {events : List (Event κ)} {s : State κ} (orderly : Runs.Meets step Orderly {} events)
    (reached : Runs.run step {} events = some s) :
    (∀ call next, step s (.drop call) = some next → ∀ (domain : Text) (entry : Entry κ),
      s.entries[domain]? = some entry → entry.call ≠ call → next.entries[domain]? = some entry) ∧
    ∀ call registration, LatestLive s call registration → ∀ name, normalizeDomain name = .ok registration.domain →
      (resolve s.entries name s.now).1 = some registration.certificate := by
  have inv : Inv s := Runs.run_invariant step step_preserves_inv inv_initial orderly reached
  constructor
  · intro call next dropped domain entry listed other
    obtain ⟨guard, held, rfl⟩ := Option.map_eq_some_iff.mp dropped
    exact inv.drop_removes held listed other
  · intro call registration live name normal
    obtain ⟨nonce, listed⟩ := inv.latest call registration (live.latest_log inv) live.held live.fresh
    simp only [resolve, normal, listed, if_neg (Nat.not_le.mpr live.fresh)]

section Example

def overlapping : List (Event Nat) :=
  [.register "Example.COM.".toList (.ok 1) 600, .register "example.com".toList (.ok 2) 600, .tick 5, .drop 0]

theorem guard_owns_registration_overlapping :
    ∃ s, Runs.run step {} overlapping = some s ∧ (resolve s.entries "EXAMPLE.COM".toList s.now).1 = some 2 := by
  have computed : (Runs.run step {} overlapping).map (fun s => (s.log, s.now, s.guards 1)) =
      some ([⟨"example.com".toList, 1, 600⟩, ⟨"example.com".toList, 2, 600⟩], 5, some ⟨"example.com".toList, 2⟩) := by
    decide +kernel
  obtain ⟨s, reached, seen⟩ := Option.map_eq_some_iff.mp computed
  simp only [Prod.mk.injEq] at seen
  obtain ⟨log, now, held⟩ := seen
  refine ⟨s, reached, (guard_owns_registration (by decide +kernel) reached).2 1 ⟨"example.com".toList, 2, 600⟩ ?_ _ ?_⟩
  · refine ⟨⟨by rw [log]; rfl, by rw [held]; exact Option.some_ne_none _, by rw [now]; decide⟩, ?_⟩
    intro later other after live
    have logged := live.logged
    rw [log] at logged
    grind
  · decide +kernel

/-- The first challenge expires and is purged before the second begins; then its guard is dropped. -/
def expired : List (Event Nat) :=
  [.register "example.com".toList (.ok 1) 600, .tick 600, .purgeExpired 600,
    .register "example.com".toList (.ok 2) 600, .drop 0]

/-- The guard of the first call removes the entry of the second. -/
theorem reused_nonce_removes_later_entry :
    ((Runs.run step {} (expired.take 4)).map fun s => (s.entries["example.com".toList]?, s.guards 0, s.guards 1)) =
      some (some ⟨2, 1200, 1, 1⟩, some ⟨"example.com".toList, 1⟩, some ⟨"example.com".toList, 1⟩) ∧
    ((Runs.run step {} expired).map fun s =>
      (s.entries["example.com".toList]?, s.guards 1, (resolve s.entries "example.com".toList s.now).1)) =
      some (none, some ⟨"example.com".toList, 1⟩, none) := by
  constructor
  · decide +kernel
  · decide +kernel

end Example

end TlsProxy.Challenge
