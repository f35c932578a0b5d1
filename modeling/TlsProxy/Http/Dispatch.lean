import TlsProxy.Config.Validate
import TlsProxy.Http.PathRoutes
import TlsProxy.Lib.Base64

/-! The part of `http::run` that decides what happens to an inspected request:
admission, path routing with its Basic Auth check, and the framing check. -/
namespace TlsProxy.Http

open Config

/-- The checks of `admit`: no loop token of our own, and behind TLS a Host that matches the SNI. The result is the
length of the head. -/
def admitRequest (looped : Text → Bool) (head : HttpHead) (expectedSni : Option Text) : Except Text Nat :=
  let trimDots := Text.trimEndMatches (· == '.')
  if head.loopTokens.any looped then .error "detected self-connection loop".toList
  else
    match expectedSni with
    | some sni =>
      if Text.eqIgnoreAsciiCase (trimDots sni) (trimDots head.host) then
        .ok (head.buffered.length - head.bodyPrefix.length)
      else .error ("HTTPS SNI ".toList ++ quoted sni ++ " does not match HTTP Host ".toList ++ quoted head.host)
    | none => .ok (head.buffered.length - head.bodyPrefix.length)

def suppliedCredentials (head : HttpHead) : Option (List UInt8) :=
  (head.authorization.bind fun value =>
    Text.stripPrefix "Basic ".toList value <|> Text.stripPrefix "basic ".toList value).bind
      fun value => Base64.decode (Text.trim value)

def HttpBasicAuthUser.expected (user : HttpBasicAuthUser) : List UInt8 :=
  Utf8.encode (user.username ++ ':' :: user.password)

def carriesCredentials (head : HttpHead) (auth : HttpBasicAuth) : Bool :=
  (suppliedCredentials head).any fun candidate =>
    auth.users.any fun user => candidate == HttpBasicAuthUser.expected user

inductive Outcome
  | closed (cause : Text)
  | unauthorized
  | staticFiles (head : HttpHead) (pathPrefix documentRoot : Text) (index : Option Text) (directoryListing : Bool)
  | notFound
  | badRequest
  | forward (head : HttpHead) (framing : BodyFraming) (route : Option (Text × HttpRouteAction))

def framed (head : HttpHead) (route : Option (Text × HttpRouteAction)) : Outcome :=
  match head.bodyFraming with
  | .ok framing => .forward head framing route
  | .error _ => .badRequest

def follow (head : HttpHead) (key : Text) (pathRoute : HttpPathRoute) : Outcome :=
  let head := if pathRoute.basicAuth.enabled then head.consumeAuthorization else head
  match pathRoute.action with
  | .staticFiles documentRoot index directoryListing =>
    .staticFiles head pathRoute.pathPrefix documentRoot index directoryListing
  | .reverseProxy action =>
    let head := if pathRoute.stripPrefix then head.stripPathPrefix pathRoute.pathPrefix else head
    framed head (some (key ++ ':' :: pathRoute.pathPrefix, action))

def routed (head : HttpHead) (key : Text) (hostAction : HttpRouteAction) : Outcome :=
  match selectPath hostAction head.target with
  | some pathRoute =>
    if pathRoute.basicAuth.enabled && !carriesCredentials head pathRoute.basicAuth then .unauthorized
    else follow head key pathRoute
  | none =>
    if !hostAction.paths.isEmpty && hostAction.backends.isEmpty && hostAction.target.isNone then .notFound
    else framed head (some (key, hostAction))

def dispatch (looped : Text → Bool) (head : HttpHead) (route : Option (Text × HttpRouteAction))
    (expectedSni : Option Text) : Outcome :=
  match admitRequest looped head expectedSni with
  | .error cause => .closed cause
  | .ok _ =>
    match route with
    | some (key, hostAction) => routed head key hostAction
    | none => framed head none

def Outcome.Served : Outcome → Prop
  | .staticFiles .. | .forward .. => True
  | .closed _ | .unauthorized | .notFound | .badRequest => False

def Denies (head : HttpHead) (route : HttpPathRoute) : Prop :=
  route.basicAuth.enabled = true ∧ carriesCredentials head route.basicAuth = false

/-- Every route on the descent is enforced: without its credentials the answer is 401. -/
def Enforced (head : HttpHead) (hostAction : HttpRouteAction) (outcome : Outcome) : Prop :=
  ∀ route, Passes hostAction head.target route → route.basicAuth.enabled = true →
    (outcome.Served → carriesCredentials head route.basicAuth = true) ∧
    (carriesCredentials head route.basicAuth = false → outcome = .unauthorized)

theorem routed_of_denies {head : HttpHead} {key : Text} {hostAction : HttpRouteAction} {first : HttpPathRoute}
    (selected : selectPath hostAction head.target = some first) (denied : Denies head first) :
    routed head key hostAction = .unauthorized := by
  simp [routed, selected, denied.1, denied.2]

theorem framed_ne_unauthorized (head : HttpHead) (route : Option (Text × HttpRouteAction)) :
    framed head route ≠ .unauthorized := by
  unfold framed
  split <;> simp

theorem follow_ne_unauthorized (head : HttpHead) (key : Text) (pathRoute : HttpPathRoute) :
    follow head key pathRoute ≠ .unauthorized := by grind [follow, framed_ne_unauthorized]

theorem routed_ne_unauthorized {head : HttpHead} (key : Text) {hostAction : HttpRouteAction}
    (admitted : ∀ first, selectPath hostAction head.target = some first → ¬ Denies head first) :
    routed head key hostAction ≠ .unauthorized := by
  unfold routed
  split
  · rename_i first selected
    have open_ : ¬ (first.basicAuth.enabled && !carriesCredentials head first.basicAuth) = true := by
      intro denied
      rw [Bool.and_eq_true, Bool.not_eq_true'] at denied
      exact admitted first selected denied
    grind [follow_ne_unauthorized]
  · split
    · simp
    · exact framed_ne_unauthorized _ _

/-- Nested authentication is enforced exactly when the first level denies the request already, or no
route below the first level does. -/
theorem nested_auth_enforced_iff {looped : Text → Bool} {head : HttpHead} {expectedSni : Option Text} {length : Nat}
    (accepted : admitRequest looped head expectedSni = .ok length) (key : Text) (hostAction : HttpRouteAction) :
    Enforced head hostAction (dispatch looped head (some (key, hostAction)) expectedSni) ↔
      (∃ first, selectPath hostAction head.target = some first ∧ Denies head first) ∨
      ∀ first inner route, selectPath hostAction head.target = some first → first.action = .reverseProxy inner →
        Passes inner (innerTarget first head.target) route → ¬ Denies head route := by
  have outcome : dispatch looped head (some (key, hostAction)) expectedSni = routed head key hostAction := by
    simp only [dispatch, accepted]
  rw [outcome]
  by_cases denied : ∃ first, selectPath hostAction head.target = some first ∧ Denies head first
  · obtain ⟨first, selected, denies⟩ := denied
    refine iff_of_true ?_ (.inl ⟨first, selected, denies⟩)
    intro route _ _
    rw [routed_of_denies selected denies]
    exact ⟨fun served => served.elim, fun _ => rfl⟩
  · have admitted : ∀ first, selectPath hostAction head.target = some first → ¬ Denies head first :=
      fun first selected denies => denied ⟨first, selected, denies⟩
    have served := routed_ne_unauthorized key admitted
    constructor
    · intro enforced
      refine .inr fun first inner route selected proxied below denies => ?_
      exact served ((enforced route (.deeper selected proxied below) denies.1).2 denies.2)
    · intro condition
      rcases condition with first | below
      · exact absurd first denied
      · intro route passes enabled
        have carries : carriesCredentials head route.basicAuth = true := by
          by_contra missing
          have denies : Denies head route := ⟨enabled, by simpa using missing⟩
          cases passes with
          | here selected => exact admitted route selected denies
          | deeper selected proxied rest => grind
        grind

section Example

def privateRoute : HttpPathRoute :=
  { pathPrefix := "/private".toList
    basicAuth := { enabled := true, users := [{ username := "admin".toList, password := "secret".toList }] }
    action := .reverseProxy { backends := [{ address := "127.0.0.1:8080".toList }] } }

def innerAction : HttpRouteAction :=
  { backends := [{ address := "127.0.0.1:8080".toList }], paths := [privateRoute] }

def plainRoute : HttpPathRoute := { pathPrefix := "/".toList, action := .reverseProxy innerAction }

def nestedPrivate : HttpRouteAction := { paths := [plainRoute] }

def privateRequest (authorization : Option Text) : HeadFacts :=
  { method := "GET".toList, target := "/private".toList, host := "a.example".toList, port := none,
    hostRaw := "a.example".toList, authorization, loopTokens := [] }

def authorizedText : Text :=
  "GET /private HTTP/1.1\r\nHost: a.example\r\nAuthorization: Basic YWRtaW46c2VjcmV0\r\n\r\n".toList

def anonymousText : Text := "GET /private HTTP/1.1\r\nHost: a.example\r\n\r\n".toList

def authorizedHead : HttpHead :=
  .ofText (privateRequest (some "Basic YWRtaW46c2VjcmV0".toList)) false authorizedText []

def anonymousHead : HttpHead := .ofText (privateRequest none) false anonymousText []

theorem nested_auth_enforced_authorized :
    Enforced authorizedHead nestedPrivate
      (dispatch (fun _ => false) authorizedHead (some ("web:a.example".toList, nestedPrivate)) none) := by
  have outer : selectPath nestedPrivate authorizedHead.target = some plainRoute := rfl
  have nested : selectPath innerAction (innerTarget plainRoute authorizedHead.target) = some privateRoute := rfl
  refine (nested_auth_enforced_iff rfl _ _).mpr (.inr ?_)
  intro first inner route selected proxied below denies
  rw [outer] at selected
  cases selected
  cases proxied
  cases below with
  | here chosen =>
    rw [nested] at chosen
    cases chosen
    exact absurd denies.2 (by decide +kernel)
  | deeper chosen further rest =>
    rw [nested] at chosen
    cases chosen
    cases further
    cases rest with
    | here none_ => cases none_
    | deeper none_ => cases none_

/-- Without credentials the nested route's upstream still gets the request. -/
theorem nested_auth_bypassed :
    validateHttpAction ⟨fun _ => .error [], fun _ => .error [], fun _ => none⟩ "listener".toList nestedPrivate = .ok () ∧
      parseHead anonymousHead.buffered anonymousHead.headLen anonymousHead.bound = .ok anonymousHead ∧
      Passes nestedPrivate anonymousHead.target privateRoute ∧ Denies anonymousHead privateRoute ∧
      (dispatch (fun _ => false) anonymousHead (some ("web:a.example".toList, nestedPrivate)) none).Served := by
  refine ⟨rfl, ?_, @Passes.deeper nestedPrivate innerAction _ plainRoute _ rfl rfl (.here rfl), ⟨rfl, rfl⟩, trivial⟩
  have parsed := parseHead_encode anonymousText [] (by simp)
  rwa [show parseHeadText anonymousText = .ok (privateRequest none) from rfl] at parsed

end Example

end TlsProxy.Http
