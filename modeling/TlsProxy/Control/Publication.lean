import TlsProxy.Acme.Cache
import TlsProxy.Control.Attempts
import TlsProxy.Store.Scopes

/-! `publish_certificate`: a bearer token gives access to the published certificates
in its scope, and to their private keys where token and certificate allow it. -/
namespace TlsProxy.Control

open Config Certificates Acme

structure PublishedCertificate where
  certificateId : Text
  generationId : Text
  domains : List Text
  certificatePem : Text
  chainPem : Text
  privateKeyPem : Option Text
  fingerprintSha256 : Text
  notBefore : Option OffsetDateTime
  notAfter : Option OffsetDateTime
deriving DecidableEq

inductive Body
  | empty
  | text (message : Text)
  | certificate (published : PublishedCertificate)
deriving DecidableEq

structure Response where
  status : Nat
  headers : List (Text × Text) := []
  body : Body := .empty
deriving DecidableEq

structure PublishRequest where
  domain : Text
  privateKey : Bool := false
  authorization : Option Text := none
  ifNoneMatch : Option Text := none

structure Service where
  tokenHash : Text → Text
  now : OffsetDateTime
  instant : Nat
  tls : Tls

def unauthorized (message : Text) : Response := { status := 401, body := .text message }

def tooManyRequests : Response := { status := 429, body := .text "retrieval rate limit exceeded".toList }

def noContent : Response := { status := 204 }

def notFound : Response := { status := 404 }

def savedResponse : Except Text Unit → Response
  | .ok _ => noContent
  | .error cause => { status := 400, body := .text cause }

def forbidden : Response := { status := 403 }

def keyDenied : Response := { status := 403, body := .text "private-key export is not permitted".toList }

def internal (cause : Text) : Response := { status := 500, body := .text cause }

def bearerRequired : Response := unauthorized "Bearer token required".toList

def invalidToken : Response := unauthorized "Invalid or expired bearer token".toList

def firstByHash (hash : Text) : List (Json RetrievalToken) → Except Text (Option RetrievalToken)
  | [] => .ok none
  | .error cause :: _ => .error cause
  | .ok token :: rest => if token.tokenHash = hash then .ok (some token) else firstByHash hash rest

def retrievalTokenByHash (store : Certificates.Store) (hash : Text) : Except Text (Option RetrievalToken) :=
  firstByHash hash ((store .tokens).toList.map Prod.snd)

/-- Whether the key has had more than sixty attempts, this one included, and the table with it. -/
def retrievalRateLimited (attempts : Attempts) (key : Text) (now : Nat) : Bool × Attempts :=
  let attempts := attempts.retain (seconds 60) now
  (decide (60 < (attempts.bumped key now).1), attempts.bump key now)

def etag (managed : ManagedCertificate) (generation : CertificateGeneration) (privateKey : Bool) : Text :=
  '"' :: managed.id ++ ':' :: generation.id ++ ':' :: (if privateKey then "true" else "false").toList ++ ['"']

def published (managed : ManagedCertificate) (generation : CertificateGeneration) (privateKey : Bool) :
    PublishedCertificate where
  certificateId := managed.id
  generationId := generation.id
  domains := managed.domains
  certificatePem := generation.certificatePem
  chainPem := generation.chainPem
  privateKeyPem := if privateKey then some generation.privateKeyPem else none
  fingerprintSha256 := generation.fingerprintSha256
  notBefore := generation.notBefore
  notAfter := generation.notAfter

def deliver (request : PublishRequest) (managed : ManagedCertificate) (generation : CertificateGeneration) : Response :=
  let tag := etag managed generation request.privateKey
  if request.ifNoneMatch = some tag then { status := 304, headers := [("etag".toList, tag)] }
  else
    { status := 200
      headers := [("etag".toList, tag), ("cache-control".toList, "private, no-cache".toList)]
      body := .certificate (published managed generation request.privateKey) }

section Service

variable (service : Service) (store : Certificates.Store)

def answerFor (request : PublishRequest) (token : RetrievalToken) (managed : ManagedCertificate) : Response :=
  if request.privateKey && (!token.allowPrivateKey || !managed.publish.allowPrivateKey) then keyDenied
  else
    match Certificates.activeGeneration store managed.id with
    | .error cause => internal cause
    | .ok none => notFound
    | .ok (some generation) =>
      match validateGeneration service.tls managed generation with
      | .error _ => notFound
      | .ok () => deliver request managed generation

def answer (request : PublishRequest) (token : RetrievalToken) : Response :=
  match Certificates.certificateForDomain store request.domain with
  | .error cause => internal cause
  | .ok none => notFound
  | .ok (some managed) =>
    if managed.enabled && managed.publish.enabled then
      if token.admits managed.id then answerFor service store request token managed else forbidden
    else notFound

def validToken (bearer : Text) : Option RetrievalToken :=
  match retrievalTokenByHash store (service.tokenHash bearer) with
  | .ok (some token) =>
    if !token.disabled && token.expiresAt.all fun at_ => decide (service.now < at_) then some token else none
  | _ => none

def bearer (request : PublishRequest) : Option Text :=
  request.authorization.bind (Text.stripPrefix "Bearer ".toList)

def limited (attempts : Attempts) (key : Text) (response : Response) : Response × Attempts :=
  let (exceeded, attempts) := retrievalRateLimited attempts key service.instant
  (if exceeded then tooManyRequests else response, attempts)

def publishCertificate (attempts : Attempts) (request : PublishRequest) : Response × Attempts :=
  match bearer request with
  | none => limited service attempts "unauthorized".toList bearerRequired
  | some bearer =>
    match validToken service store bearer with
    | none => limited service attempts "unauthorized".toList invalidToken
    | some token =>
      limited service attempts ("token:".toList ++ token.id) (answer service store request token)

end Service

structure Presents (service : Service) (store : Certificates.Store) (request : PublishRequest) (token : RetrievalToken) :
    Prop where
  found : ∃ text, request.authorization = some ("Bearer ".toList ++ text) ∧
    retrievalTokenByHash store (service.tokenHash text) = .ok (some token)
  enabled : token.disabled = false
  unexpired : ∀ expiry, token.expiresAt = some expiry → service.now < expiry

/-- The request asks for the key of a published certificate, and its token and the certificate both allow that. -/
structure Grants (service : Service) (store : Certificates.Store) (request : PublishRequest) (token : RetrievalToken)
    (managed : ManagedCertificate) : Prop where
  asked : request.privateKey = true
  presented : Presents service store request token
  certificate : Certificates.certificateForDomain store request.domain = .ok (some managed)
  inScope : token.admits managed.id = true
  tokenAllows : token.allowPrivateKey = true
  enabled : managed.enabled = true
  isPublished : managed.publish.enabled = true
  policyAllows : managed.publish.allowPrivateKey = true

def Validates (tls : Tls) (store : Certificates.Store) (generation : CertificateGeneration) : Prop :=
  ∀ (id : Text) (managed : ManagedCertificate), (store .certificates)[id]? = some (.ok managed) →
    generation.certificateId = managed.id → validateGeneration tls managed generation = .ok ()

/-- The stores differ at most in private keys of generations that are valid with either key. -/
structure AlikeButKeys (tls : Tls) (first second : Certificates.Store) : Prop where
  others : ∀ family, family ≠ .generations → first family = second family
  generations : ∀ key : Text, (first .generations)[key]? = (second .generations)[key]? ∨
    ∃ (generation : CertificateGeneration) (privateKey : Text),
      (first .generations)[key]? = some (.ok generation) ∧
      (second .generations)[key]? = some (.ok { generation with privateKeyPem := privateKey }) ∧
      Validates tls first generation ∧ Validates tls first { generation with privateKeyPem := privateKey }

theorem validToken_eq_some {service : Service} {store : Certificates.Store} {text : Text} {token : RetrievalToken} :
    validToken service store text = some token ↔
      retrievalTokenByHash store (service.tokenHash text) = .ok (some token) ∧ token.disabled = false ∧
        ∀ expiry, token.expiresAt = some expiry → service.now < expiry := by
  unfold validToken
  split
  · rename_i other found
    rw [found, Option.ite_none_right_eq_some]
    simp only [Bool.and_eq_true, Bool.not_eq_true', Option.some.injEq, Except.ok.injEq, Option.all_eq_true,
      decide_eq_true_eq]
    grind
  · rename_i other
    grind

theorem presents_of_validToken {service : Service} {store : Certificates.Store} {request : PublishRequest} {text : Text}
    {token : RetrievalToken} (carried : bearer request = some text) (valid : validToken service store text = some token) :
    Presents service store request token := by
  obtain ⟨found, enabled, unexpired⟩ := validToken_eq_some.mp valid
  obtain ⟨header, there, stripped⟩ := Option.bind_eq_some_iff.mp carried
  cases Text.stripPrefix_eq_some.mp stripped
  exact ⟨⟨text, there, found⟩, enabled, unexpired⟩

section Alike

variable {tls : Tls} {first second : Certificates.Store}

theorem AlikeButKeys.certificateForDomain (alike : AlikeButKeys tls first second) (domain : Text) :
    Certificates.certificateForDomain first domain = Certificates.certificateForDomain second domain := by
  unfold Certificates.certificateForDomain managedCertificate
  rw [alike.others .domainIndex (by decide), alike.others .certificates (by decide)]

theorem AlikeButKeys.activeGeneration (alike : AlikeButKeys tls first second) (id : Text) :
    Certificates.activeGeneration first id = Certificates.activeGeneration second id ∨
      ∃ (generation : CertificateGeneration) (privateKey : Text),
        Certificates.activeGeneration first id = .ok (some generation) ∧
        Certificates.activeGeneration second id = .ok (some { generation with privateKeyPem := privateKey }) ∧
        Validates tls first generation ∧ Validates tls first { generation with privateKeyPem := privateKey } := by
  unfold Certificates.activeGeneration
  rw [← alike.others .activeGenerations (by decide)]
  split
  · exact .inl rfl
  · rename_i generationId _
    rcases alike.generations (generationKey id generationId) with same | ⟨generation, privateKey, one, other, valid⟩
    · rw [same]
      exact .inl rfl
    · rw [one, other]
      exact .inr ⟨generation, privateKey, rfl, rfl, valid⟩

theorem validateGeneration_of_foreign {generation : CertificateGeneration} {managed : ManagedCertificate}
    (foreign : generation.certificateId ≠ managed.id) :
    validateGeneration tls managed generation =
      .error "generation belongs to a different managed certificate".toList := by
  rw [validateGeneration, prepareEntry, Checks.require, if_neg foreign]
  rfl

theorem certificateForDomain_stored {store : Certificates.Store} {domain : Text} {managed : ManagedCertificate}
    (found : Certificates.certificateForDomain store domain = .ok (some managed)) :
    ∃ id : Text, (store .certificates)[id]? = some (.ok managed) := by
  obtain ⟨name, -, found⟩ := Checks.bind_eq_ok.mp found
  split at found
  · cases found
  · exact ⟨_, (decoded_eq_ok found managed).mp rfl⟩

theorem AlikeButKeys.answerFor {service : Service} (alike : AlikeButKeys service.tls first second)
    {request : PublishRequest} {token : RetrievalToken} {managed : ManagedCertificate} {id : Text}
    (stored : (first .certificates)[id]? = some (.ok managed))
    (refused : ¬ (request.privateKey = true ∧ token.allowPrivateKey = true ∧ managed.publish.allowPrivateKey = true)) :
    answerFor service first request token managed = answerFor service second request token managed := by
  unfold Control.answerFor
  cases asked : request.privateKey with
  | true => grind
  | false =>
    rw [Bool.false_and, if_neg Bool.false_ne_true, if_neg Bool.false_ne_true]
    rcases alike.activeGeneration managed.id with same | ⟨generation, privateKey, one, other, valid, also⟩
    · rw [same]
    · rw [one, other]
      dsimp only
      by_cases own : generation.certificateId = managed.id
      · rw [valid id managed stored own, also id managed stored own]
        unfold deliver etag published
        rw [asked]
        rfl
      · grind [validateGeneration_of_foreign]

theorem AlikeButKeys.answer {service : Service} (alike : AlikeButKeys service.tls first second)
    {request : PublishRequest} {token : RetrievalToken} (presented : Presents service first request token)
    (refused : ¬ ∃ managed, Grants service first request token managed) :
    answer service first request token = answer service second request token := by
  unfold Control.answer
  rw [← alike.certificateForDomain]
  cases found : Certificates.certificateForDomain first request.domain with
  | error cause => rfl
  | ok certificate =>
    cases certificate with
    | none => rfl
    | some managed =>
      dsimp only
      split
      · rename_i usable
        rw [Bool.and_eq_true] at usable
        split
        · rename_i inScope
          obtain ⟨id, stored⟩ := certificateForDomain_stored found
          apply alike.answerFor stored
          rintro ⟨asked, tokenAllows, policyAllows⟩
          exact refused ⟨managed, asked, presented, found, inScope, tokenAllows, usable.1, usable.2, policyAllows⟩
        · rfl
      · rfl

end Alike

def refusals : List Response := [bearerRequired, invalidToken, tooManyRequests, notFound, forbidden]

theorem limited_mem_refusals {service : Service} {attempts : Attempts} {key : Text} {response : Response}
    (refused : response ∈ refusals) : (limited service attempts key response).1 ∈ refusals := by
  unfold limited
  dsimp only
  split
  · decide
  · exact refused

theorem answer_mem_refusals {service : Service} {store : Certificates.Store} {request : PublishRequest}
    {token : RetrievalToken} {managed : ManagedCertificate}
    (found : Certificates.certificateForDomain store request.domain = .ok (some managed))
    (withheld : managed.enabled = false ∨ managed.publish.enabled = false ∨ token.admits managed.id = false) :
    answer service store request token ∈ refusals := by
  unfold answer
  rw [found]
  dsimp only
  split
  · rename_i usable
    rw [Bool.and_eq_true] at usable
    rw [usable.1, usable.2] at withheld
    rw [if_neg (by simpa using withheld)]
    decide
  · decide

/-- Two stores that differ only in private keys answer every request alike, unless a token and a certificate that both
allow it are asked for the key; and a certificate that is not published or not in the scope of the token shows in no
answer. -/
theorem private_keys_stay_secret (service : Service) (attempts : Attempts) (request : PublishRequest) :
    (∀ first second, AlikeButKeys service.tls first second →
      (¬ ∃ token managed, Grants service first request token managed) →
      publishCertificate service first attempts request = publishCertificate service second attempts request) ∧
    ∀ store managed, Certificates.certificateForDomain store request.domain = .ok (some managed) →
      (managed.enabled = false ∨ managed.publish.enabled = false ∨
        ∀ token, Presents service store request token → token.admits managed.id = false) →
      (publishCertificate service store attempts request).1 ∈ refusals := by
  unfold publishCertificate
  constructor
  · intro first second alike refused
    have same : ∀ text, validToken service second text = validToken service first text := by
      intro text
      unfold validToken retrievalTokenByHash
      rw [alike.others .tokens (by decide)]
    cases carried : bearer request with
    | none => rfl
    | some text =>
      dsimp only
      rw [same]
      cases valid : validToken service first text with
      | none => rfl
      | some token => grind [AlikeButKeys.answer, presents_of_validToken]
  · intro store managed found withheld
    split
    · exact limited_mem_refusals (by decide)
    · rename_i text carried
      split
      · exact limited_mem_refusals (by decide)
      · grind [limited_mem_refusals, answer_mem_refusals, presents_of_validToken]

section Example

def shopName : Text := "shop.example".toList

def shopService : Service where
  tokenHash := id
  now := 0
  instant := 0
  tls :=
    { parse := fun generation => .ok { key := generation.privateKeyPem, notAfter := 10, subjectAltName := some [shopName] }
      now := 0 }

def shopCertificate : ManagedCertificate where
  id := shopName
  domains := [shopName]
  publish := { enabled := true }

def shopGeneration (privateKey : Text) : CertificateGeneration where
  id := "1".toList
  certificateId := shopName
  privateKeyPem := privateKey

def shopStore (privateKey : Text) : Certificates.Store :=
  Families.write Certificates.Store.empty [.put .certificates shopName (.ok shopCertificate),
    .put .domainIndex shopName shopName, .put .activeGenerations shopName "1".toList,
    .put .generations (generationKey shopName "1".toList) (.ok (shopGeneration privateKey)),
    .put .tokens "reader".toList (.ok { tokenHash := "secret".toList })]

theorem shopGeneration_validates (store privateKey : Text) :
    Validates shopService.tls (shopStore store) (shopGeneration privateKey) := by
  intro id managed stored _
  have cases : managed = shopCertificate := by
    rcases Families.mem_or_of_getElem?_write stored with put | ⟨absent, -⟩
    · grind
    · cases absent
  subst cases
  rfl

theorem shopStore_alike (first second : Text) : AlikeButKeys shopService.tls (shopStore first) (shopStore second) where
  others := by
    intro family other
    cases family with
    | generations => exact absurd rfl other
    | _ => rfl
  generations := by
    intro key
    have row : ∀ privateKey, (shopStore privateKey .generations)[key]? =
        if generationKey shopName "1".toList = key then some (.ok (shopGeneration privateKey)) else none := by
      intro privateKey
      change ((∅ : Std.ExtTreeMap Text (Json CertificateGeneration)).insert _ _)[key]? = _
      rw [Families.getElem?_insert]
      rfl
    rw [row, row]
    by_cases own : generationKey shopName "1".toList = key
    · rw [if_pos own, if_pos own]
      grind [shopGeneration, shopGeneration_validates]
    · grind

def shopRequest : PublishRequest where
  domain := shopName
  authorization := some "Bearer secret".toList

/-- The certificate is delivered, and the same with either key. -/
theorem private_keys_stay_secret_shop :
    (publishCertificate shopService (shopStore "one".toList) ∅ shopRequest).1.status = 200 ∧
      publishCertificate shopService (shopStore "one".toList) ∅ shopRequest =
        publishCertificate shopService (shopStore "two".toList) ∅ shopRequest := by
  refine ⟨by decide +kernel, ?_⟩
  apply (private_keys_stay_secret shopService ∅ shopRequest).1 _ _ (shopStore_alike _ _)
  rintro ⟨token, managed, grants⟩
  cases grants.asked

end Example

end TlsProxy.Control
