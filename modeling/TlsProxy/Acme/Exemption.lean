import TlsProxy.Acme.Registration

/-! The DNS check script is not asked about names that the operator has written into
the exact list of a TLS route. -/
namespace TlsProxy.Acme

open Config Checks Programs

/-- The routing of the default listener, or of a TLS listener that is not disabled. -/
inductive ActiveRouting (config : RuntimeConfig) : OrdinaryTlsConfig → Prop
  | default : ActiveRouting config config.defaultListener.ordinaryTraffic
  | additional {name : Text} {listener : HostRoutedTlsListenerConfig}
      (member : (name, .tls listener) ∈ config.additionalListeners.entries)
      (enabled : config.disabledListeners.contains name = false) : ActiveRouting config listener.routing

theorem tlsRoutesListHostExactly_iff {config : RuntimeConfig} {host : Text} :
    config.tlsRoutesListHostExactly host = true ↔ ∃ routing, ActiveRouting config routing ∧ ∃ route ∈ routing.routes,
      ∃ entry ∈ route.matcher.exact, Text.eqIgnoreAsciiCase (trimDots host) (trimDots (Text.trim entry)) = true := by
  simp only [RuntimeConfig.tlsRoutesListHostExactly, List.any_eq_true, List.mem_flatMap]
  constructor
  · rintro ⟨entry, ⟨routing, listed, route, inRoutes, inExact⟩, same⟩
    refine ⟨routing, ?_, route, inRoutes, entry, inExact, same⟩
    rw [List.mem_cons, List.mem_filterMap] at listed
    rcases listed with rfl | ⟨⟨name, listener⟩, member, found⟩
    · exact .default
    · split at found
      · rename_i tls kind
        dsimp only at kind
        subst kind
        rw [Option.ite_none_left_eq_some] at found
        obtain ⟨enabled, kept⟩ := found
        cases kept
        exact .additional member (Bool.eq_false_of_not_eq_true enabled)
      · cases found
  · rintro ⟨routing, active, route, inRoutes, entry, inExact, same⟩
    refine ⟨entry, ⟨routing, ?_, route, inRoutes, inExact⟩, same⟩
    rw [List.mem_cons, List.mem_filterMap]
    cases active with
    | default => exact .inl rfl
    | additional member enabled => grind

section Scores

variable (isMatch : Regex → Text → Bool)

def MatchesExactly (matcher : HostMatcher) (host : Text) : Prop :=
  ∃ length, matchScore isMatch matcher host = some (toLex (3, length))

variable {isMatch}

theorem matchesExactly_iff {matcher : HostMatcher} {host : Text} :
    MatchesExactly isMatch matcher host ↔
      ∃ entry ∈ matcher.exact, Text.eqIgnoreAsciiCase (trimDots host) (trimDots entry) = true := by
  rw [← List.any_eq_true]
  unfold MatchesExactly matchScore
  dsimp only
  split
  · grind
  · rename_i unlisted
    refine iff_of_false ?_ unlisted
    rintro ⟨length, scored⟩
    split at scored
    · cases scored
    · split at scored <;> cases scored

theorem score_lt_of_not_matchesExactly {matcher : HostMatcher} {host : Text} {score : ℕ ×ₗ ℕ}
    (unlisted : ¬ MatchesExactly isMatch matcher host) (scored : matchScore isMatch matcher host = some score) :
    score < toLex (3, 0) := by
  rw [matchesExactly_iff, ← List.any_eq_true] at unlisted
  unfold matchScore at scored
  dsimp only at scored
  rw [if_neg unlisted] at scored
  split at scored
  · cases scored
    exact Prod.Lex.toLex_lt_toLex.mpr (.inl (Nat.lt_succ_self 2))
  · split at scored
    · cases scored
      exact Prod.Lex.toLex_lt_toLex.mpr (.inl (by decide))
    · cases scored

theorem bestHostRoute_of_matchesExactly {ρ : Type} {matcher : ρ → HostMatcher} {routes : List ρ} {host : Text} {route : ρ}
    (member : route ∈ routes) (listed : MatchesExactly isMatch (matcher route) host) :
    ∃ best, bestHostRoute isMatch matcher routes host = some best ∧ MatchesExactly isMatch (matcher best) host := by
  obtain ⟨length, scored⟩ := listed
  cases selected : bestHostRoute isMatch matcher routes host with
  | none => grind [bestHostRoute_eq_none_iff]
  | some best =>
    obtain ⟨score, chosen⟩ := (bestHostRoute_eq_some_iff isMatch matcher).mp selected
    have above : toLex (3, length) ≤ score := chosen.most id le_of_lt route member _ scored
    refine ⟨best, rfl, not_not.mp fun unlisted => ?_⟩
    have below := score_lt_of_not_matchesExactly unlisted chosen.mem.2
    have least : (toLex (3, 0) : ℕ ×ₗ ℕ) ≤ toLex (3, length) := Prod.Lex.toLex_le_toLex.mpr (.inr ⟨rfl, Nat.zero_le _⟩)
    grind

end Scores

/-- The actions of a program that finds the given states, and its result if it comes to an end. -/
def trail {α : Type} : Program Action World α → List World → List Action × Option α
  | .done result, _ => ([], some result)
  | .action _ _, [] => ([], none)
  | .action label next, w :: later => (label :: (trail (next w) later).1, (trail (next w) later).2)

theorem trail_ask {α β : Type} (action : Action) (value : World → α) (rest : α → Task β) (w : World)
    (later : List World) :
    trail (ask action (fun w => .ok (value w)) >>= rest : Task β) (w :: later) =
      (action :: (trail (rest (value w)) later).1, (trail (rest (value w)) later).2) := rfl

section Check

variable {registrar : Registrar} {script domain : Text}

theorem accepted_of_allows {secs : Nat} {cause : Text} {later : List World}
    (permits : (trail (dnsCheckAllows registrar script domain secs >>= fun allowed =>
      ofExcept (require (allowed = true) cause) : Task Unit) later).2 = some (.ok ())) :
    .script script domain true ∈ (trail (dnsCheckAllows registrar script domain secs >>= fun allowed =>
      ofExcept (require (allowed = true) cause) : Task Unit) later).1 := by
  cases later with
  | nil => cases permits
  | cons found later =>
    simp only [dnsCheckAllows, bind_assoc] at permits ⊢
    rw [trail_ask] at permits ⊢
    refine List.mem_cons_of_mem _ ?_
    dsimp only at permits ⊢
    split at permits
    · cases permits
    · rename_i fresh
      rw [if_neg fresh]
      cases later with
      | nil => cases permits
      | cons found later =>
        simp only [bind_assoc] at permits ⊢
        rw [trail_ask] at permits ⊢
        cases accepted : registrar.runDnsCheckScript script domain with
        | true => exact List.mem_cons_self
        | false =>
          rw [accepted] at permits
          cases later <;> cases permits

/-- The check passes for three reasons: there is no script, the name is listed, or the script has accepted it. -/
theorem reason_of_permits {w : World} {later : List World}
    (permits : (trail (dnsCheckPermitsNewIssuance registrar domain) (w :: later)).2 = some (.ok ())) :
    (dnsCheckScript w.live).isEmpty = true ∨ w.live.tlsRoutesListHostExactly domain = true ∨
      .script (dnsCheckScript w.live) domain true ∈
        (trail (dnsCheckPermitsNewIssuance registrar domain) (w :: later)).1 := by
  rw [dnsCheckPermitsNewIssuance, trail_ask] at permits ⊢
  dsimp only at permits ⊢
  cases unscripted : (dnsCheckScript w.live).isEmpty with
  | true => exact .inl rfl
  | false =>
    cases listed : w.live.tlsRoutesListHostExactly domain with
    | true => exact .inr (.inl rfl)
    | false =>
      rw [unscripted, if_neg Bool.false_ne_true, listed, if_neg Bool.false_ne_true] at permits
      rw [if_neg Bool.false_ne_true, if_neg Bool.false_ne_true]
      exact .inr (.inr (List.mem_cons_of_mem _ (accepted_of_allows permits)))

end Check

def ExactEntry (config : RuntimeConfig) (entry : Text) : Prop :=
  ∃ routing, ActiveRouting config routing ∧ ∃ route ∈ routing.routes, entry ∈ route.matcher.exact

/-- An exact entry with white space around it that is the host once it is trimmed has beside it one that is the host as
it is written, and one that is the host as written has beside it one that is so once it is trimmed. -/
def Accompanied (config : RuntimeConfig) (host : Text) : Prop :=
  ∀ entry, ExactEntry config entry → Text.trim entry ≠ entry →
    (Text.eqIgnoreAsciiCase (trimDots host) (trimDots (Text.trim entry)) = true →
      ∃ other, ExactEntry config other ∧ Text.eqIgnoreAsciiCase (trimDots host) (trimDots other) = true) ∧
    (Text.eqIgnoreAsciiCase (trimDots host) (trimDots entry) = true →
      ∃ other, ExactEntry config other ∧ Text.eqIgnoreAsciiCase (trimDots host) (trimDots (Text.trim other)) = true)

/-- The host is listed exactly if a route of an active listener matches it through its exact list, and the DNS check,
when a script is configured, passes without the script's consent only if such a route serves the host. -/
structure Exemption (isMatch : Regex → Text → Bool) (config : RuntimeConfig) (host : Text) : Prop where
  listed : config.tlsRoutesListHostExactly host = true ↔ ∃ routing, ActiveRouting config routing ∧
    ∃ route ∈ routing.routes, MatchesExactly isMatch route.matcher host
  skipped : ∀ registrar w later, w.live = config → (dnsCheckScript config).isEmpty = false →
    (trail (dnsCheckPermitsNewIssuance registrar host) (w :: later)).2 = some (.ok ()) →
    .script (dnsCheckScript config) host true ∉ (trail (dnsCheckPermitsNewIssuance registrar host) (w :: later)).1 →
    ∃ routing, ActiveRouting config routing ∧ ∃ route,
      bestHostRoute isMatch TlsHostRoute.matcher routing.routes host = some route ∧
        MatchesExactly isMatch route.matcher host

theorem listed_iff_entry {config : RuntimeConfig} {host : Text} : config.tlsRoutesListHostExactly host = true ↔
    ∃ entry, ExactEntry config entry ∧ Text.eqIgnoreAsciiCase (trimDots host) (trimDots (Text.trim entry)) = true := by
  rw [tlsRoutesListHostExactly_iff]
  constructor
  · rintro ⟨routing, active, route, member, entry, listed, same⟩
    exact ⟨entry, ⟨routing, active, route, member, listed⟩, same⟩
  · rintro ⟨entry, ⟨routing, active, route, member, listed⟩, same⟩
    exact ⟨routing, active, route, member, entry, listed, same⟩

theorem matched_iff_entry {isMatch : Regex → Text → Bool} {config : RuntimeConfig} {host : Text} :
    (∃ routing, ActiveRouting config routing ∧ ∃ route ∈ routing.routes, MatchesExactly isMatch route.matcher host) ↔
      ∃ entry, ExactEntry config entry ∧ Text.eqIgnoreAsciiCase (trimDots host) (trimDots entry) = true := by
  simp only [matchesExactly_iff]
  constructor
  · rintro ⟨routing, active, route, member, entry, listed, same⟩
    exact ⟨entry, ⟨routing, active, route, member, listed⟩, same⟩
  · rintro ⟨entry, ⟨routing, active, route, member, listed⟩, same⟩
    exact ⟨routing, active, route, member, entry, listed, same⟩

/-- The exemption of a host is exact if and only if its entries with white space are accompanied. -/
theorem issuance_exemption_exact (isMatch : Regex → Text → Bool) (config : RuntimeConfig) (host : Text) :
    Exemption isMatch config host ↔ Accompanied config host := by
  constructor
  · rintro ⟨listed, -⟩ entry isEntry -
    rw [listed_iff_entry, matched_iff_entry] at listed
    exact ⟨fun trimmed => listed.mp ⟨entry, isEntry, trimmed⟩, fun written => listed.mpr ⟨entry, isEntry, written⟩⟩
  · intro accompanied
    have listed : config.tlsRoutesListHostExactly host = true ↔ ∃ routing, ActiveRouting config routing ∧
        ∃ route ∈ routing.routes, MatchesExactly isMatch route.matcher host := by
      rw [listed_iff_entry, matched_iff_entry]
      constructor
      · rintro ⟨entry, isEntry, same⟩
        by_cases spaced : Text.trim entry = entry
        · exact ⟨entry, isEntry, spaced ▸ same⟩
        · exact (accompanied entry isEntry spaced).1 same
      · rintro ⟨entry, isEntry, same⟩
        by_cases spaced : Text.trim entry = entry
        · exact ⟨entry, isEntry, spaced.symm ▸ same⟩
        · exact (accompanied entry isEntry spaced).2 same
    refine ⟨listed, ?_⟩
    rintro registrar w later rfl scripted permits unasked
    rcases reason_of_permits permits with unscripted | exempt | accepted
    · exact absurd (unscripted.symm.trans scripted) nofun
    · obtain ⟨routing, active, route, member, matched⟩ := listed.mp exempt
      exact ⟨routing, active, bestHostRoute_of_matchesExactly member matched⟩
    · exact absurd accepted unasked

section Example

def exactSite (entries : List Text) : RuntimeConfig where
  defaultListener :=
    { ordinaryTraffic :=
        { routes := [{ matcher := { exact := entries }
                       action := .terminate 8080 none .plaintext .roundRobin .none }] } }
  acme := { dnsCheckScript := "/etc/check".toList }

theorem exactSite_active {entries : List Text} {routing : OrdinaryTlsConfig}
    (active : ActiveRouting (exactSite entries) routing) :
    routing = (exactSite entries).defaultListener.ordinaryTraffic := by
  cases active with
  | default => rfl
  | additional member enabled => cases member

/-- An entry with white space that names another host does no harm. -/
theorem issuance_exemption_exact_listed :
    (exactSite ["a.example.".toList, " b.example".toList]).tlsRoutesListHostExactly "A.example".toList = true ∧
      Exemption (fun _ _ => false) (exactSite ["a.example.".toList, " b.example".toList]) "A.example".toList := by
  refine ⟨by decide +kernel, (issuance_exemption_exact _ _ _).mpr ?_⟩
  rintro entry ⟨routing, active, route, member, listed⟩ spaced
  obtain rfl := exactSite_active active
  obtain rfl := List.mem_singleton.mp member
  rcases List.mem_cons.mp listed with rfl | second
  · exact absurd (by decide) spaced
  · obtain rfl := List.mem_singleton.mp second
    exact ⟨fun same => absurd same (by decide), fun same => absurd same (by decide)⟩

/-- White space around an entry is dropped for the exemption but not for routing: no route matches the host, and the
script is not asked. -/
theorem untrimmed_entry_exempts :
    (exactSite [" a.example".toList]).tlsRoutesListHostExactly "a.example".toList = true ∧
      (∀ isMatch routing, ActiveRouting (exactSite [" a.example".toList]) routing → ∀ route ∈ routing.routes,
        matchScore isMatch route.matcher "a.example".toList = none) ∧
      trail (dnsCheckPermitsNewIssuance (strictRegistrar elsewhere) "a.example".toList)
        [{ live := exactSite [" a.example".toList] }] = ([.load .permitsNewIssuance], some (.ok ())) := by
  have listed : (exactSite [" a.example".toList]).tlsRoutesListHostExactly "a.example".toList = true := by decide +kernel
  refine ⟨listed, ?_, ?_⟩
  · intro isMatch routing active route member
    obtain rfl := exactSite_active active
    obtain rfl := List.mem_singleton.mp member
    rfl
  · have scripted : (dnsCheckScript (exactSite [" a.example".toList])).isEmpty = false := by decide +kernel
    rw [dnsCheckPermitsNewIssuance, trail_ask]
    simp only [scripted, listed, Bool.false_eq_true, if_false, if_true]
    rfl

end Example

end TlsProxy.Acme
