import TlsProxy.Config.Validate
import TlsProxy.Http.PathRoutes
import TlsProxy.Lib.Paths

/-! The front part of `static_files::serve`: the request path is made relative to
the route's prefix, percent-decoded and split into components. -/
namespace TlsProxy.Http

open Config Paths

def percent : UInt8 := 0x25

def hexByte (high low : UInt8) : Option UInt8 :=
  if high < 128 ∧ low < 128 then
    (Text.fromStrRadix 16 256 [Char.ofNat high.toNat, Char.ofNat low.toNat]).map UInt8.ofNat
  else none

def unescape : List UInt8 → Option (List UInt8)
  | [] => some []
  | byte :: rest =>
    if byte = percent then
      match rest with
      | high :: low :: rest => (hexByte high low).bind fun value => (unescape rest).map (value :: ·)
      | _ => none
    else (unescape rest).map (byte :: ·)

def percentDecode (value : Text) : Except Text Text :=
  match unescape (Utf8.encode value) with
  | none => .error "invalid percent encoding".toList
  | some bytes =>
    if bytes.contains 0 then .error "NUL byte in encoded value".toList
    else
      match Utf8.decode bytes with
      | some decoded => .ok decoded
      | none => .error "encoded value is not UTF-8".toList

def decodePathBuf (value : Text) : Except Text Text :=
  match percentDecode value with
  | .error _ => .error "request path".toList
  | .ok decoded =>
    if (components decoded).any fun part => part == .parentDir || part == .rootDir then
      .error "request path attempts to escape the document root".toList
    else .ok decoded

/-- What `serve` does before it looks at the file system below the document root. -/
inductive ServePlan
  | options
  | methodNotAllowed
  | rootUnavailable
  | badRequest
  | lookup (components : List Text)
deriving DecidableEq

def relativePath (pathPrefix target : Text) : Text :=
  let requestPath := ((Text.splitOnce '?' target).map Prod.fst).getD target
  Text.trimStartMatches (· == '/') ((Text.stripPrefix (trimSlashes pathPrefix) requestPath).getD requestPath)

def servePlan (rootIsDirectory : Bool) (method target pathPrefix : Text) : ServePlan :=
  if method = "OPTIONS".toList then .options
  else if method ≠ "GET".toList ∧ method ≠ "HEAD".toList then .methodNotAllowed
  else if rootIsDirectory = false then .rootUnavailable
  else
    match decodePathBuf (relativePath pathPrefix target) with
    | .error _ => .badRequest
    | .ok decoded => .lookup (names decoded)

def servedPath (pathPrefix : Text) (components : List Text) : Text :=
  trimSlashes pathPrefix ++ '/' :: Text.join ['/'] components

theorem percentDecode_of_unescape {value decoded : Text}
    (bytes : unescape (Utf8.encode value) = some (Utf8.encode decoded))
    (clean : (Utf8.encode decoded).contains 0 = false) : percentDecode value = .ok decoded := by
  simp only [percentDecode, bytes, clean, Bool.false_eq_true, if_false, Utf8.decode_encode]

theorem pathPrefixMatches_servedPath (pathPrefix : Text) (components : List Text) :
    pathPrefixMatches pathPrefix (servedPath pathPrefix components) = true := by
  simp [Text.stripPrefix, servedPath, pathPrefixMatches]

theorem pathPrefixMatches_congr {a b : Text} (same : trimSlashes a = trimSlashes b) (path : Text) :
    pathPrefixMatches a path = pathPrefixMatches b path := by
  simp only [pathPrefixMatches, same]

/-- A path the selected route serves selects that route again exactly when no longer prefix covers it. -/
theorem routeOfPath_servedPath_iff {action : HttpRouteAction} {target : Text} {route : HttpPathRoute}
    (selected : selectPath action target = some route) (components : List Text) :
    routeOfPath action (servedPath route.pathPrefix components) = some route ↔
      ∀ other ∈ action.paths, byteLen (trimSlashes route.pathPrefix) < byteLen (trimSlashes other.pathPrefix) →
        pathPrefixMatches other.pathPrefix (servedPath route.pathPrefix components) = false := by
  rw [routeOfPath_eq_some_iff]
  constructor
  · rintro ⟨length, before, after, split, scored, ahead, behind⟩ other member longer
    by_contra covers
    have score := pathScore_eq_some_iff.mpr ⟨by simpa using covers, rfl⟩
    obtain ⟨-, rfl⟩ := pathScore_eq_some_iff.mp scored
    grind
  · intro uncovered
    obtain ⟨length, before, after, split, scored, ahead, behind⟩ := routeOfPath_eq_some_iff.mp selected
    obtain ⟨sent, rfl⟩ := pathScore_eq_some_iff.mp scored
    have bounded : ∀ other ∈ action.paths, ∀ score,
        pathScore (servedPath route.pathPrefix components) other = some score →
        score ≤ byteLen (trimSlashes route.pathPrefix) := by
      intro other member score has
      obtain ⟨covers, rfl⟩ := pathScore_eq_some_iff.mp has
      grind
    refine ⟨_, before, after, split, pathScore_eq_some_iff.mpr ⟨pathPrefixMatches_servedPath _ _, rfl⟩, ?_, ?_⟩
    · grind
    · intro other late score has reaches
      have most := bounded other (by grind) score has
      -- A later route with the same prefix would have been selected for the target as sent, too.
      obtain ⟨covers, rfl⟩ := pathScore_eq_some_iff.mp has
      have same := trimSlashes_eq_of_covers (pathPrefixMatches_iff_covers.mp covers)
        (pathPrefixMatches_iff_covers.mp (pathPrefixMatches_servedPath route.pathPrefix components))
        (Nat.le_antisymm most reaches)
      have again : pathScore (targetPath target) other = some (byteLen (trimSlashes route.pathPrefix)) :=
        pathScore_eq_some_iff.mpr ⟨(pathPrefixMatches_congr same _).trans sent, by rw [same]⟩
      exact behind other late _ again le_rfl

/-- The files served for a request lie under the route it selected exactly when no configured prefix
longer than the route's covers the decoded path. -/
theorem static_route_agrees_iff {action : HttpRouteAction} {target : Text} {route : HttpPathRoute}
    (selected : selectPath action target = some route) (rootIsDirectory : Bool) (method : Text) :
    (∀ components, servePlan rootIsDirectory method target route.pathPrefix = .lookup components →
      routeOfPath action (servedPath route.pathPrefix components) = some route) ↔
    ∀ components, servePlan rootIsDirectory method target route.pathPrefix = .lookup components →
      ∀ other ∈ action.paths, byteLen (trimSlashes route.pathPrefix) < byteLen (trimSlashes other.pathPrefix) →
        pathPrefixMatches other.pathPrefix (servedPath route.pathPrefix components) = false := by
  constructor
  · grind [routeOfPath_servedPath_iff]
  · grind [routeOfPath_servedPath_iff]

section Example

def openFiles : HttpPathRoute := { pathPrefix := "/".toList, action := .staticFiles "/srv".toList none false }

def guardedFiles : HttpPathRoute :=
  { pathPrefix := "/private".toList
    basicAuth := { enabled := true, users := [{ username := "admin".toList, password := "secret".toList }] }
    action := .staticFiles "/srv/private".toList none false }

def guardedSite : HttpRouteAction := { paths := [openFiles, guardedFiles] }

theorem servePlan_eq_lookup {target pathPrefix relative : Text} (decoded : Text) {parts : List Text}
    (rest : relativePath pathPrefix target = relative)
    (bytes : unescape (Utf8.encode relative) = some (Utf8.encode decoded))
    (clean : (Utf8.encode decoded).contains 0 = false)
    (inside : ((components decoded).any fun part => part == .parentDir || part == .rootDir) = false)
    (named : names decoded = parts) :
    servePlan true "GET".toList target pathPrefix = .lookup parts := by
  have path : decodePathBuf relative = .ok decoded := by
    simp only [decodePathBuf, percentDecode_of_unescape bytes clean, inside, Bool.false_eq_true, if_false]
  unfold servePlan
  rw [if_neg (by decide), if_neg (by decide), if_neg (by decide), rest, path, ← named]

theorem static_route_agrees_index :
    selectPath guardedSite "/index.html".toList = some openFiles ∧
      servePlan true "GET".toList "/index.html".toList openFiles.pathPrefix = .lookup ["index.html".toList] ∧
      routeOfPath guardedSite (servedPath openFiles.pathPrefix ["index.html".toList]) = some openFiles := by
  have plan : servePlan true "GET".toList "/index.html".toList openFiles.pathPrefix =
      .lookup ["index.html".toList] :=
    servePlan_eq_lookup "index.html".toList rfl (by decide +kernel) (by decide +kernel)
      (by decide +kernel) (by decide +kernel)
  have selected : selectPath guardedSite "/index.html".toList = some openFiles := rfl
  refine ⟨selected, plan, (static_route_agrees_iff selected true "GET".toList).mpr ?_ _ plan⟩
  intro components looked other member longer
  rw [plan] at looked
  cases looked
  rcases List.mem_cons.mp member with rfl | rest
  · exact absurd longer (Nat.lt_irrefl _)
  · rw [List.mem_singleton.mp rest]
    decide +kernel

/-- An escaped letter keeps a guarded file from being recognised as such. -/
theorem escaped_target_serves_guarded_file :
    validateHttpAction ⟨fun _ => .ok true, fun _ => .error [], fun _ => none⟩ "listener".toList guardedSite = .ok () ∧
      selectPath guardedSite "/%70rivate/key".toList = some openFiles ∧
      servePlan true "GET".toList "/%70rivate/key".toList openFiles.pathPrefix =
        .lookup ["private".toList, "key".toList] ∧
      routeOfPath guardedSite (servedPath openFiles.pathPrefix ["private".toList, "key".toList]) = some guardedFiles ∧
      openFiles.pathPrefix ≠ guardedFiles.pathPrefix :=
  ⟨rfl, rfl, servePlan_eq_lookup "private/key".toList rfl (by decide +kernel) (by decide +kernel)
    (by decide +kernel) (by decide +kernel), rfl, by decide⟩

end Example

end TlsProxy.Http
