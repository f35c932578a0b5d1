import TlsProxy.Config.Names
import TlsProxy.Lib.IpAddr

/-! `RuntimeConfig::validate` and `validate_http_action`. The file system and the
address parsers of the standard library are parameters. -/
namespace TlsProxy.Config

structure Environment where
  /-- The result of `canonicalize` followed by `is_dir`; an error carries its cause. -/
  isDirectory : Text → Except Text Bool
  parseIpAddr : Text → Except Text IpAddr
  parseSocketAddr : Text → Option (IpAddr × Nat)

/-- No path is a directory and no text an address. -/
def bareEnvironment : Environment := ⟨fun _ => .error [], fun _ => .error [], fun _ => none⟩

def AccountingConfig.validate (config : AccountingConfig) : Except Text Unit := do
  if config.enabled then
    if (Text.trim config.logFile).isEmpty then
      throw "accounting.log_file is required when accounting.enabled is true".toList
    if config.maxKeep = 0 then throw "accounting.max_keep must be at least 1".toList
    let _ ← parseSize config.rotateSize

def validateUsers (scope pathPrefix : Text) : List Text → List HttpBasicAuthUser → Except Text Unit
  | _, [] => pure ()
  | seen, user :: rest => do
    if user.username.isEmpty || user.username.contains ':' || user.username.any (['\r', '\n'].contains ·) then
      throw (scope ++ " HTTP Basic Auth username is invalid".toList)
    if user.password.any (['\r', '\n'].contains ·) then
      throw (scope ++ " HTTP Basic Auth password is invalid".toList)
    if seen.contains user.username then
      throw (scope ++ " HTTP path ".toList ++ quoted pathPrefix ++ " has duplicate Basic Auth username ".toList ++
        quoted user.username)
    validateUsers scope pathPrefix (user.username :: seen) rest

def validateBasicAuth (scope pathPrefix : Text) (auth : HttpBasicAuth) : Except Text Unit := do
  if auth.enabled then
    if auth.users.isEmpty then
      throw (scope ++ " HTTP path ".toList ++ quoted pathPrefix ++ " enables Basic Auth without users".toList)
    validateUsers scope pathPrefix [] auth.users

def validateBackends (scope : Text) : List HttpBackend → Except Text Unit
  | [] => pure ()
  | backend :: rest => do
    match HostAndPort.fromStr backend.address with
    | .error cause =>
      throw (scope ++ " HTTP backend ".toList ++ quoted backend.address ++ " is invalid: ".toList ++ cause)
    | .ok parsed =>
      if parsed.port = 0 then throw (scope ++ " HTTP backend port must be non-zero".toList)
      validateBackends scope rest

def validateRedirect (scope : Text) (redirect : Option HttpRedirectConfig) : Except Text Unit := do
  if redirect.any fun value => !(value.status == 301 || value.status == 308) then
    throw (scope ++ " HTTPS redirect status must be 301 or 308".toList)
  if (redirect.bind (·.port)).any (· == 0) then
    throw (scope ++ " HTTPS redirect port must be non-zero".toList)
  match redirect.bind (·.hostname) with
  | some hostname => let _ ← normalizeDomain hostname
  | none => pure ()

def normalizedPrefix (pathPrefix : Text) : Text :=
  if pathPrefix = ['/'] then ['/'] else Text.trimEndMatches (· == '/') pathPrefix

def validatePrefix (scope : Text) (seen : List Text) (pathPrefix : Text) : Except Text Unit := do
  if pathPrefix.head? != some '/' || pathPrefix.contains '?' || pathPrefix.contains '#' then
    throw (scope ++ " HTTP path prefix ".toList ++ quoted pathPrefix ++
      " must start with `/` and contain no query or fragment".toList)
  if seen.contains (normalizedPrefix pathPrefix) then
    throw (scope ++ " has duplicate HTTP path prefix ".toList ++ quoted (normalizedPrefix pathPrefix))

def validateStatic (env : Environment) (scope documentRoot : Text) (index : Option Text) : Except Text Unit := do
  match env.isDirectory documentRoot with
  | .error cause =>
    throw (scope ++ " static document root ".toList ++ quoted documentRoot ++ " is invalid: ".toList ++ cause)
  | .ok false =>
    throw (scope ++ " static document root ".toList ++ quoted documentRoot ++ " is not a directory".toList)
  | .ok true =>
    if index.any fun name => name.any (['/', '\\'].contains ·) || name == "..".toList then
      throw (scope ++ " static index must be a filename within the requested directory".toList)

mutual

def validateHttpAction (env : Environment) (scope : Text) : HttpRouteAction → Except Text Unit
  | { behavior, backends, paths, redirect, .. } =>
    match behavior with
    | .redirectHttps => validateRedirect scope redirect
    | .reverseProxy => do
      validateBackends scope backends
      validatePaths env scope [] paths

def validatePaths (env : Environment) (scope : Text) (seen : List Text) : List HttpPathRoute → Except Text Unit
  | [] => pure ()
  | route :: rest => do
    validatePath env scope seen route
    validatePaths env scope (normalizedPrefix route.pathPrefix :: seen) rest

def validatePath (env : Environment) (scope : Text) (seen : List Text) : HttpPathRoute → Except Text Unit
  | { pathPrefix, basicAuth, action, .. } => do
    validatePrefix scope seen pathPrefix
    validateBasicAuth scope pathPrefix basicAuth
    validatePathAction env scope pathPrefix action

def validatePathAction (env : Environment) (scope pathPrefix : Text) : HttpPathAction → Except Text Unit
  | .reverseProxy action => do
    if action.behavior ≠ .reverseProxy then
      throw (scope ++ " HTTP path ".toList ++ quoted pathPrefix ++
        " cannot use an HTTPS redirect action; use a redirect listener".toList)
    validateHttpAction env scope action
  | .staticFiles documentRoot index _ => validateStatic env scope documentRoot index

end

def bindUsesPort443 (bind : Text) : Bool :=
  ((Text.rsplitOnce ':' bind).bind fun parts => Text.parseU16 parts.2) == some 443

def OrdinaryTlsConfig.actions (routing : OrdinaryTlsConfig) : List TlsRouteAction :=
  routing.routes.map (·.action) ++ [routing.defaultRoute]

def HostRoutedHttpListenerConfig.actions (listener : HostRoutedHttpListenerConfig) : List HttpRouteAction :=
  listener.routes.map (·.action) ++ [listener.defaultRoute]

def validateTlsAction (env : Environment) (scope portError redirectError : Text) (action : TlsRouteAction) :
    Except Text Unit := do
  if action.targetPort = some 0 then throw portError
  match action with
  | .reverseProxy action =>
    if action.behavior ≠ .reverseProxy then throw redirectError
    validateHttpAction env scope action
  | _ => pure ()

def validateDefaultListener (env : Environment) (listener : DefaultListenerConfig) : Except Text Unit := do
  match parseBindPattern listener.bind with
  | .error cause => throw ("default listener: ".toList ++ cause)
  | .ok _ => pure ()
  if !bindUsesPort443 listener.bind then throw "default listener must bind port 443".toList
  listener.ordinaryTraffic.actions.forM (validateTlsAction env "default listener".toList
    "default listener route target port must be non-zero".toList
    "default TLS listener cannot use an HTTP redirect action".toList)

def listenerScope (name : Text) : Text := "listener ".toList ++ quoted name

/-- A redirect of hosts the table does not name needs a host of its own. -/
def requireRedirectHost (name : Text) (redirect : Option HttpRedirectConfig) : Except Text Unit := do
  if (redirect.bind (·.hostname)).isNone && !redirect.any (·.preserveHost) then
    throw (listenerScope name ++
      " Anything else HTTPS redirect requires a fixed hostname or preserve_host=true".toList)

def validateHttpListener (env : Environment) (name : Text) (listener : HostRoutedHttpListenerConfig) :
    Except Text Unit := do
  if listener.actions.any (·.behavior ≠ .reverseProxy) then
    throw (listenerScope name ++ " HTTP reverse-proxy routes cannot redirect; use a redirect listener".toList)
  if listener.redirectHttpsPort = 0 then
    throw (listenerScope name ++ " HTTPS redirect port must be non-zero".toList)
  if listener.defaultRoute.behavior = .redirectHttps then requireRedirectHost name listener.defaultRoute.redirect
  if listener.actions.any (·.targetPort == 0) then
    throw (listenerScope name ++ " HTTP route target port must be non-zero".toList)
  listener.actions.forM (validateHttpAction env (listenerScope name))

def validateRedirectListener (env : Environment) (name : Text) (listener : HostRoutedHttpListenerConfig) :
    Except Text Unit := do
  if listener.redirectHttpsPort = 0 then
    throw (listenerScope name ++ " HTTPS redirect port must be non-zero".toList)
  listener.actions.forM fun action => do
    if action.behavior ≠ .redirectHttps then
      throw (listenerScope name ++ " redirect routes must use HTTPS redirect behavior".toList)
    validateHttpAction env (listenerScope name) action
  requireRedirectHost name listener.defaultRoute.redirect

def validateListener (env : Environment) (defaultBind name : Text) (listener : AdditionalListenerConfig) :
    Except Text Unit := do
  match parseBindPattern listener.bind with
  | .error cause => throw (listenerScope name ++ ": ".toList ++ cause)
  | .ok _ => pure ()
  if listener.bind = defaultBind then
    throw (listenerScope name ++ " conflicts with the mandatory default listener".toList)
  match listener with
  | .tls listener =>
    listener.routing.actions.forM (validateTlsAction env (listenerScope name)
      (listenerScope name ++ " TLS route target port must be non-zero".toList)
      (listenerScope name ++ " TLS route cannot use an HTTP redirect action".toList))
  | .http listener => validateHttpListener env name listener
  | .redirect listener => validateRedirectListener env name listener
  | .forward listener =>
    if (Text.trim listener.targets).isEmpty then
      throw (listenerScope name ++ " forward targets are required".toList)

def parseResolver (env : Environment) (value : Text) : Except Text (IpAddr × Nat) :=
  let value := Text.trim value
  match env.parseIpAddr value, env.parseSocketAddr value with
  | .ok ip, _ => .ok (ip, 53)
  | .error _, some address => .ok address
  | .error _, none => .error ("invalid public DNS resolver ".toList ++ quoted value)

def validateControlPlane (env : Environment) (controlPlane : ControlPlaneConfig) : Except Text Unit := do
  if !controlPlane.hostname.isEmpty then
    let _ ← normalizeDomain controlPlane.hostname
  controlPlane.selfIps.forM fun selfIp =>
    match env.parseIpAddr selfIp with
    | .ok _ => pure ()
    | .error cause => throw ("invalid self IP ".toList ++ quoted selfIp ++ ": ".toList ++ cause)
  controlPlane.publicResolvers.forM fun resolver => do
    let _ ← parseResolver env resolver

def RuntimeConfig.validate (env : Environment) (config : RuntimeConfig) : Except Text Unit := do
  validateDefaultListener env config.defaultListener
  match config.accounting with
  | some accounting => accounting.validate
  | none => pure ()
  config.additionalListeners.entries.forM fun entry =>
    validateListener env config.defaultListener.bind entry.1 entry.2
  validateControlPlane env config.controlPlane
  if config.acme.challengeTtlSeconds < 120 ∨ 1800 < config.acme.challengeTtlSeconds then
    throw "ACME challenge TTL must be between 120 and 1800 seconds".toList
  if config.acme.scanIntervalHours = 0 then throw "ACME scan interval must be non-zero".toList

end TlsProxy.Config
