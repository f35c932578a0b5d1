import TlsProxy.Http.Head
import TlsProxy.Lib.IpAddr

/-! `rewrite_for_proxy`: hop-by-hop fields and every field named by the client's
own `Connection` header end at this hop, the forwarding headers of this hop are
appended, and the bytes past the head are kept. -/
namespace TlsProxy.Http
open Text

inductive Disposition
  | keep
  | drop
  | collectForwardedFor
  | collectForwarded
deriving DecidableEq

structure RewriteScan where
  output : List Text := []
  xffValues : List Text := []
  forwardedValues : List Text := []
  skippingFolds : Bool := false

def rewriteLine (dispose : Text → Disposition) (s : RewriteScan) (line : Text) : RewriteScan :=
  match splitOnce ':' line with
  | none => { s with skippingFolds := false, output := s.output ++ [line] }
  | some (name, value) =>
    match dispose (toAsciiLowercase (trim name)) with
    | .keep => { s with skippingFolds := false, output := s.output ++ [line] }
    | .drop => { s with skippingFolds := true }
    | .collectForwardedFor =>
      { s with skippingFolds := true, xffValues := s.xffValues ++ [trim value] }
    | .collectForwarded =>
      { s with skippingFolds := true, forwardedValues := s.forwardedValues ++ [trim value] }

def rewriteLines (dispose : Text → Disposition) : RewriteScan → List Text → RewriteScan
  | s, [] => s
  | s, line :: rest =>
    if line.isEmpty then s
    else if isFold line then
      if s.skippingFolds then rewriteLines dispose s rest
      else rewriteLines dispose { s with output := s.output ++ [line] } rest
    else rewriteLines dispose (rewriteLine dispose s line) rest

def headerText (header : Text × Text) : Text := header.1 ++ ": ".toList ++ header.2

def crlfLines (lines : List Text) : Text := lines.flatMap fun line => line ++ ['\r', '\n']

/-- The names in the first `Connection` field and the lines that continue it. -/
def HttpHead.connectionTokens (h : HttpHead) : List Text :=
  match h.headerValue "connection".toList with
  | none => []
  | some connection => (commaTokens connection).map toAsciiLowercase

def hopByHopTable : List Text :=
  ["keep-alive".toList, "te".toList, "trailer".toList, "proxy-authorization".toList,
    "proxy-connection".toList]

/-- `close` names no header, and an honored `upgrade` stays on the wire. -/
def HttpHead.hopByHop (h : HttpHead) : List Text :=
  hopByHopTable ++ h.connectionTokens.filter fun token =>
    !token.isEmpty && token != "close".toList && !(token == "upgrade".toList && h.upgradeRequested)

def HttpHead.dispose (h : HttpHead) (upstreamHost : Option Text) (name : Text) : Disposition :=
  if name = hostHeader ∧ upstreamHost.isSome then .drop
  else if name = "x-forwarded-for".toList then .collectForwardedFor
  else if name = "forwarded".toList then .collectForwarded
  else if name = "authorization".toList ∧ h.stripAuthorization then .drop
  else if name ∈ ["x-forwarded-host".toList, "x-forwarded-proto".toList, "connection".toList] then .drop
  else if name = "upgrade".toList ∧ ¬ h.upgradeRequested then .drop
  else if name ∈ h.hopByHop then .drop
  else .keep

def forwardedFor : IpAddr → Text
  | .v4 ip => "for=".toList ++ ip.display
  | .v6 ip => "for=\"[".toList ++ ip.display ++ "]\"".toList

def HttpHead.pushedHeaders (h : HttpHead) (clientIp : IpAddr) (scheme : Text)
    (upstreamHost : Option Text) (loopToken : Text) (s : RewriteScan) : List (Text × Text) :=
  let xffValues := s.xffValues ++ [clientIp.display]
  let forwardedValues := s.forwardedValues ++
    [forwardedFor clientIp ++ ";host=".toList ++ h.hostRaw ++ ";proto=".toList ++ scheme]
  [("X-Forwarded-For".toList, join ", ".toList xffValues),
    ("X-Forwarded-Host".toList, h.hostRaw),
    ("X-Forwarded-Proto".toList, scheme),
    ("Forwarded".toList, join ", ".toList forwardedValues),
    ("X-Tlsproxy-Rid".toList, loopToken),
    ("Connection".toList, if h.upgradeRequested then "upgrade".toList else "close".toList)] ++
  upstreamHost.toList.map fun host => ("Host".toList, host)

def HttpHead.rewriteScan (h : HttpHead) (upstreamHost : Option Text) : RewriteScan :=
  rewriteLines (h.dispose upstreamHost) {} (headLines h.head).tail

def HttpHead.rewrittenLines (h : HttpHead) (clientIp : IpAddr) (scheme : Text)
    (upstreamHost : Option Text) (loopToken : Text) : List Text :=
  let s := h.rewriteScan upstreamHost
  s.output ++ (h.pushedHeaders clientIp scheme upstreamHost loopToken s).map headerText

def HttpHead.rewrittenHead (h : HttpHead) (clientIp : IpAddr) (scheme : Text)
    (upstreamHost : Option Text) (loopToken : Text) : Text :=
  crlfLines (requestLine h.head :: (h.rewrittenLines clientIp scheme upstreamHost loopToken ++ [[]]))

def HttpHead.rewriteForProxy (h : HttpHead) (clientIp : IpAddr) (scheme : Text)
    (upstreamHost : Option Text) (loopToken : Text) : List UInt8 :=
  Utf8.encode (h.rewrittenHead clientIp scheme upstreamHost loopToken) ++ h.bodyPrefix

end TlsProxy.Http
