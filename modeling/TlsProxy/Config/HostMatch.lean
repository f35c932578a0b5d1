import TlsProxy.Config.Names
import TlsProxy.Lib.Select
import Mathlib.Data.Prod.Lex

/-! `HostMatcher::match_score`, `best_host_route` and the two `select_route`
functions. The regular-expression engine is a parameter. -/
namespace TlsProxy.Config

variable (isMatch : Regex → Text → Bool)

def trimDots (host : Text) : Text := Text.trimEndMatches (· == '.') host

/-- The host is the suffix with one more label in front. The source counts in bytes; since the slices
start after a dot and the tails agree up to ASCII case, counting characters gives the same answer. -/
def oneLabelDeeper (host suffix : Text) : Bool :=
  let start := host.length - suffix.length
  host.length > suffix.length && host[start - 1]? == some '.' &&
    Text.eqIgnoreAsciiCase (host.drop start) suffix && !(host.take (start - 1)).contains '.'

def suffixScore (host entry : Text) : Option Nat :=
  let suffix := trimDots (Text.trimStartMatches (· == '.') (Text.trim entry))
  if Text.eqIgnoreAsciiCase host suffix || oneLabelDeeper host suffix then some (byteLen suffix) else none

/-- Exact entries beat suffixes, longer suffixes beat shorter ones, patterns come last. -/
def matchScore (matcher : HostMatcher) (host : Text) : Option (ℕ ×ₗ ℕ) :=
  let host := trimDots host
  if matcher.exact.any fun entry => Text.eqIgnoreAsciiCase host (trimDots entry) then
    some (toLex (3, byteLen host))
  else
    match (matcher.suffix.filterMap (suffixScore host)).max? with
    | some length => some (toLex (2, length))
    | none => if matcher.patterns.any (isMatch · host) then some (toLex (1, 0)) else none

def bestHostRoute {ρ : Type} (matcher : ρ → HostMatcher) (routes : List ρ) (host : Text) : Option ρ :=
  (Select.select (fun score current => current < score) (fun route => matchScore isMatch (matcher route) host)
    routes).map Prod.fst

def admitted (policy : Policy) (rules : Rules) (host : Text) : Bool :=
  let matched := rules.staticHosts.any (Text.eqIgnoreAsciiCase host) || rules.patterns.any (isMatch · host)
  match policy with
  | .allow => matched
  | .deny => !matched

def selectAction {ρ α : Type} (matcher : ρ → HostMatcher) (action : ρ → α) (routes : List ρ) (policy : Policy)
    (rules : Rules) (defaultRoute : α) (host : Text) : Option α :=
  match bestHostRoute isMatch matcher routes host with
  | some route => some (action route)
  | none => if admitted isMatch policy rules host then some defaultRoute else none

def OrdinaryTlsConfig.selectRoute (routing : OrdinaryTlsConfig) (host : Text) : Option TlsRouteAction :=
  selectAction isMatch TlsHostRoute.matcher TlsHostRoute.action routing.routes routing.unknownHostPolicy
    routing.unknownHostRules routing.defaultRoute host

def HostRoutedHttpListenerConfig.selectRoute (listener : HostRoutedHttpListenerConfig) (host : Text) :
    Option HttpRouteAction :=
  selectAction isMatch HttpHostRoute.matcher HttpHostRoute.action listener.routes listener.unknownHostPolicy
    listener.unknownHostRules listener.defaultRoute host

section Selection

variable {ρ α : Type} (matcher : ρ → HostMatcher)

def BestRoute (routes : List ρ) (host : Text) (route : ρ) : Prop :=
  ∃ score, Select.Chosen (fun score current : ℕ ×ₗ ℕ => current < score)
    (fun route => matchScore isMatch (matcher route) host) routes route score

theorem bestHostRoute_eq_some_iff {routes : List ρ} {host : Text} {route : ρ} :
    bestHostRoute isMatch matcher routes host = some route ↔ BestRoute isMatch matcher routes host route := by
  simp only [bestHostRoute, Option.map_eq_some_iff, Prod.exists, BestRoute]
  constructor
  · grind [Select.select_eq_some_iff, Select.laws_lt]
  · simp [Select.select_eq_some_iff, Select.laws_lt]

theorem bestHostRoute_eq_none_iff {routes : List ρ} {host : Text} :
    bestHostRoute isMatch matcher routes host = none ↔
      ∀ route ∈ routes, matchScore isMatch (matcher route) host = none := by
  rw [bestHostRoute, Option.map_eq_none_iff, Select.select_eq_none_iff Select.laws_lt]

theorem selectAction_eq_some_iff {action : ρ → α} {routes : List ρ} {policy : Policy} {rules : Rules}
    {defaultRoute chosen : α} {host : Text} :
    selectAction isMatch matcher action routes policy rules defaultRoute host = some chosen ↔
      (∃ route, BestRoute isMatch matcher routes host route ∧ action route = chosen) ∨
      (∀ route ∈ routes, matchScore isMatch (matcher route) host = none) ∧
        admitted isMatch policy rules host = true ∧ defaultRoute = chosen := by
  cases best : bestHostRoute isMatch matcher routes host with
  | some route =>
    have isBest := (bestHostRoute_eq_some_iff isMatch matcher).mp best
    have found : ¬ ∀ route ∈ routes, matchScore isMatch (matcher route) host = none := by
      rw [← bestHostRoute_eq_none_iff, best]
      simp
    simp only [selectAction, best, Option.some.injEq, found, false_and, or_false]
    constructor
    · grind
    · rintro ⟨other, otherBest, same⟩
      rw [← bestHostRoute_eq_some_iff, best] at otherBest
      cases otherBest
      exact same
  | none =>
    have unmatched := (bestHostRoute_eq_none_iff isMatch matcher).mp best
    have noBest : ∀ route, ¬ BestRoute isMatch matcher routes host route := by
      intro route isBest
      rw [← bestHostRoute_eq_some_iff, best] at isBest
      cases isBest
    simp only [selectAction, best, Option.ite_none_right_eq_some, Option.some.injEq, noBest, false_and,
      exists_false, false_or]
    grind

theorem selectAction_eq_none_iff {action : ρ → α} {routes : List ρ} {policy : Policy} {rules : Rules}
    {defaultRoute : α} {host : Text} :
    selectAction isMatch matcher action routes policy rules defaultRoute host = none ↔
      (∀ route ∈ routes, matchScore isMatch (matcher route) host = none) ∧
        admitted isMatch policy rules host = false := by grind [bestHostRoute_eq_none_iff, selectAction]

end Selection

def RuntimeConfig.tlsRoutesListHostExactly (config : RuntimeConfig) (host : Text) : Bool :=
  let routings := config.defaultListener.ordinaryTraffic :: config.additionalListeners.entries.filterMap fun entry =>
    match entry.2 with
    | .tls listener => if config.disabledListeners.contains entry.1 then none else some listener.routing
    | _ => none
  (routings.flatMap fun routing => routing.routes.flatMap fun route => route.matcher.exact).any fun entry =>
    Text.eqIgnoreAsciiCase (trimDots host) (trimDots (Text.trim entry))

end TlsProxy.Config
