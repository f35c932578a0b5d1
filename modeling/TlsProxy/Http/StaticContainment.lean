import TlsProxy.Http.StaticFiles

/-! `static_files::serve` on a file system that does not change. -/
namespace TlsProxy.Http

open Config Paths

inductive IoErrorKind
  | notFound
  | permissionDenied
  | other

inductive FileKind
  | file
  | directory
  | other
deriving DecidableEq

structure FileSystem where
  canonicalize : Text → Except IoErrorKind Text
  metadata : Text → Except IoErrorKind FileKind
  idempotent : ∀ {path physical}, canonicalize path = .ok physical → canonicalize physical = .ok physical

namespace FileSystem

def is (fs : FileSystem) (kind : FileKind) (path : Text) : Bool :=
  match fs.metadata path with
  | .ok found => found == kind
  | .error _ => false

end FileSystem

inductive StaticResponse
  | noContent
  | errorPage (status : Nat) (headOnly : Bool)
  | redirect (location : Text)
  /-- A page of the directory, from the cursor on. -/
  | listing (directory : Text) (after : Option Text) (requestPath : Text) (headOnly : Bool)
  | file (path : Text) (headOnly : Bool)
deriving DecidableEq

inductive BeneathError
  | io (kind : IoErrorKind)
  | escapes

def canonicalBeneath (fs : FileSystem) (root candidate : Text) : Except BeneathError (Option Text) :=
  match fs.canonicalize candidate with
  | .error .notFound => .ok none
  | .error kind => .error (.io kind)
  | .ok physical => if startsWith physical root then .ok (some physical) else .error .escapes

def queryAfter (query : Text) : Option Text :=
  ((query.splitOn '&').findSome? (Text.stripPrefix "after=".toList)).bind fun value => (percentDecode value).toOption

section Serve

variable (fs : FileSystem) (root requestPath : Text) (query index : Option Text) (directoryListing headOnly : Bool)

def indexFile (physical : Text) : Option Text :=
  index.bind fun name =>
    match fs.canonicalize (join physical name) with
    | .ok canonical => if startsWith canonical root && fs.is .file canonical then some canonical else none
    | .error _ => none

def serveDirectory (physical : Text) : StaticResponse :=
  if requestPath.getLast? ≠ some '/' then .redirect (requestPath ++ ['/'])
  else
    match indexFile fs root index physical with
    | some canonical => .file canonical headOnly
    | none =>
      if directoryListing then .listing physical (query.bind queryAfter) requestPath headOnly
      else .errorPage 403 headOnly

def serveCandidate (candidate : Text) : StaticResponse :=
  match canonicalBeneath fs root candidate with
  | .ok none => .errorPage 404 headOnly
  | .error _ => .errorPage 403 headOnly
  | .ok (some physical) =>
    match fs.metadata physical with
    | .error .permissionDenied => .errorPage 403 headOnly
    | .error _ => .errorPage 404 headOnly
    | .ok .directory => serveDirectory fs root requestPath query index directoryListing headOnly physical
    | .ok .file => .file physical headOnly
    | .ok .other => .errorPage 404 headOnly

end Serve

def serve (fs : FileSystem) (method target pathPrefix documentRoot : Text) (index : Option Text)
    (directoryListing : Bool) : StaticResponse :=
  let headOnly := method == "HEAD".toList
  if method = "OPTIONS".toList then .noContent
  else if method ≠ "GET".toList ∧ headOnly = false then .errorPage 405 false
  else
    match fs.canonicalize documentRoot with
    | .error _ => .errorPage 500 headOnly
    | .ok root =>
      if fs.is .directory root = false then .errorPage 500 headOnly
      else
        match decodePathBuf (relativePath pathPrefix target) with
        | .error _ => .errorPage 400 headOnly
        | .ok decoded =>
          let parts := Text.splitOnce '?' target
          serveCandidate fs root ((parts.map Prod.fst).getD target) (parts.map Prod.snd) index directoryListing headOnly
            (join root decoded)

/-- A lookup that the front part plans is one of the decoded path below the root. -/
theorem serve_of_servePlan {fs : FileSystem} {method target pathPrefix documentRoot root : Text} {parts : List Text}
    (available : fs.canonicalize documentRoot = .ok root)
    (planned : servePlan (fs.is .directory root) method target pathPrefix = .lookup parts) (index : Option Text)
    (directoryListing : Bool) :
    ∃ decoded, names decoded = parts ∧ ∃ requestPath query headOnly,
      serve fs method target pathPrefix documentRoot index directoryListing =
        serveCandidate fs root requestPath query index directoryListing headOnly (join root decoded) := by
  unfold servePlan at planned
  split at planned
  · cases planned
  split at planned
  · cases planned
  split at planned
  · cases planned
  split at planned
  · cases planned
  · rename_i options allowed directory _ decoded accepted
    cases planned
    rw [serve, if_neg options, if_neg (by simpa using allowed), available]
    dsimp only
    rw [if_neg directory, accepted]
    exact ⟨decoded, rfl, _, _, _, rfl⟩

/-- The place of what a response sends the content of. Opening a file or reading a directory follows links. -/
inductive Sends (fs : FileSystem) : StaticResponse → Text → Prop
  | file {path location : Text} {headOnly : Bool} (resolved : fs.canonicalize path = .ok location) :
      Sends fs (.file path headOnly) location
  | listing {directory location requestPath : Text} {after : Option Text} {headOnly : Bool}
      (resolved : fs.canonicalize directory = .ok location) :
      Sends fs (.listing directory after requestPath headOnly) location

/-- A component that leads from a directory to one of its entries, or nowhere. -/
def Inner : Component → Prop
  | .curDir => True
  | .normal name => name ≠ ['.', '.'] ∧ '\x00' ∉ name
  | _ => False

theorem nul_not_mem_percentDecode {value decoded : Text} (accepted : percentDecode value = .ok decoded) :
    '\x00' ∉ decoded := by
  unfold percentDecode at accepted
  split at accepted
  · cases accepted
  · rename_i bytes _
    split at accepted
    · cases accepted
    · rename_i clean
      split at accepted
      · rename_i text found
        cases accepted
        rw [← Utf8.ascii_mem_encode (by decide), Utf8.encode_of_decode found]
        simpa using clean
      · cases accepted

theorem escapes_iff {decoded : Text} :
    ((components decoded).any fun part => part == .parentDir || part == .rootDir) = true ↔
      decoded.head? = some '/' ∨ ['.', '.'] ∈ decoded.splitOn '/' := by
  rw [← rootDir_mem_components, ← parentDir_mem_components, List.any_eq_true]
  simp only [Bool.or_eq_true, beq_iff_eq]
  constructor
  · grind
  · grind

theorem decodePathBuf_eq_ok {value decoded : Text} :
    decodePathBuf value = .ok decoded ↔
      percentDecode value = .ok decoded ∧ decoded.head? ≠ some '/' ∧ ['.', '.'] ∉ decoded.splitOn '/' := by
  unfold decodePathBuf
  cases parsed : percentDecode value with
  | error cause => simp
  | ok text =>
    dsimp only
    split
    · rename_i escapes
      refine iff_of_false nofun ?_
      rintro ⟨same, relative, inside⟩
      cases same
      exact (escapes_iff.mp escapes).elim relative inside
    · rename_i stays
      rw [escapes_iff, not_or] at stays
      grind

theorem inner_of_decodePathBuf {value decoded : Text} (accepted : decodePathBuf value = .ok decoded) :
    ∀ component ∈ components decoded, Inner component := by
  obtain ⟨parsed, relative, inside⟩ := decodePathBuf_eq_ok.mp accepted
  intro component member
  rcases mem_components member with ⟨-, absolute⟩ | rfl | ⟨name, inParts, rfl⟩
  · exact absurd absolute relative
  · trivial
  · have down : name ≠ ['.', '.'] := fun up => inside (up ▸ inParts)
    rw [ofName, if_neg down]
    exact ⟨down, fun nul => nul_not_mem_percentDecode parsed (Text.mem_splitOnP inParts _ nul).2⟩

section Containment

variable {fs : FileSystem} {root requestPath location : Text} {query index : Option Text} {directoryListing headOnly : Bool}

theorem canonicalBeneath_eq_some {candidate physical : Text}
    (found : canonicalBeneath fs root candidate = .ok (some physical)) :
    fs.canonicalize physical = .ok physical ∧ startsWith physical root = true := by
  unfold canonicalBeneath at found
  split at found
  · cases found
  · cases found
  · grind [FileSystem.idempotent]

theorem indexFile_eq_some {physical canonical : Text} (found : indexFile fs root index physical = some canonical) :
    fs.canonicalize canonical = .ok canonical ∧ startsWith canonical root = true := by
  obtain ⟨name, -, found⟩ := Option.bind_eq_some_iff.mp found
  split at found
  · rename_i resolved
    rw [Option.ite_none_right_eq_some, Bool.and_eq_true, Option.some.injEq] at found
    grind [FileSystem.idempotent]
  · cases found

theorem Sends.of_file {path : Text} (sent : Sends fs (.file path headOnly) location)
    (resolved : fs.canonicalize path = .ok path) : location = path := by
  cases sent with
  | file reached => grind

theorem beneath_of_serveDirectory {physical : Text} (resolved : fs.canonicalize physical = .ok physical)
    (beneath : startsWith physical root = true)
    (sent : Sends fs (serveDirectory fs root requestPath query index directoryListing headOnly physical) location) :
    startsWith location root = true := by
  unfold serveDirectory at sent
  split at sent
  · cases sent
  · split at sent
    · rename_i canonical found
      obtain ⟨own, inside⟩ := indexFile_eq_some found
      rwa [sent.of_file own]
    · split at sent
      · cases sent with
        | listing reached => grind
      · cases sent

theorem beneath_of_serveCandidate {candidate : Text}
    (sent : Sends fs (serveCandidate fs root requestPath query index directoryListing headOnly candidate) location) :
    startsWith location root = true := by
  unfold serveCandidate at sent
  split at sent
  · cases sent
  · cases sent
  · rename_i physical found
    obtain ⟨resolved, beneath⟩ := canonicalBeneath_eq_some found
    split at sent
    · cases sent
    · cases sent
    · exact beneath_of_serveDirectory resolved beneath sent
    · rwa [sent.of_file resolved]
    · cases sent

end Containment

/-- Whatever `serve` sends the content of lies beneath the document root, and the path that it joins to the root only
leads downwards. -/
theorem static_containment (fs : FileSystem) (method target pathPrefix documentRoot : Text) (index : Option Text)
    (directoryListing : Bool) :
    (∀ location, Sends fs (serve fs method target pathPrefix documentRoot index directoryListing) location →
      ∃ root, fs.canonicalize documentRoot = .ok root ∧ startsWith location root = true) ∧
    ∀ decoded, decodePathBuf (relativePath pathPrefix target) = .ok decoded →
      (∀ component ∈ components decoded, Inner component) ∧
        ∀ root, ∀ component ∈ components (join root decoded), component ∈ components root ∨ Inner component := by
  refine ⟨fun location sent => ?_, fun decoded accepted => ?_⟩
  · unfold serve at sent
    dsimp only at sent
    split at sent
    · cases sent
    · split at sent
      · cases sent
      · split at sent
        · cases sent
        · rename_i root resolved
          split at sent
          · cases sent
          · split at sent
            · cases sent
            · exact ⟨root, resolved, beneath_of_serveCandidate sent⟩
  · have inner := inner_of_decodePathBuf accepted
    refine ⟨inner, fun root component member => ?_⟩
    exact (mem_components_join (decodePathBuf_eq_ok.mp accepted).2.1 member).imp_right (inner component)

section Example

def linkedSite : FileSystem where
  canonicalize path := if path = "/srv/out".toList then .ok "/etc/passwd".toList else .ok path
  metadata path := if path = "/srv".toList then .ok .directory else .ok .file
  idempotent := by
    intro path physical resolved
    split at resolved
    · cases resolved
      rfl
    · cases resolved
      rw [if_neg ‹_›]

theorem static_containment_file :
    serve linkedSite "GET".toList "/files/a%2etxt".toList "/files".toList "/srv".toList none true =
        .file "/srv/a.txt".toList false ∧
      ∃ root, linkedSite.canonicalize "/srv".toList = .ok root ∧ startsWith "/srv/a.txt".toList root = true := by
  have served : serve linkedSite "GET".toList "/files/a%2etxt".toList "/files".toList "/srv".toList none true =
      .file "/srv/a.txt".toList false := by decide +kernel
  have contained := static_containment linkedSite "GET".toList "/files/a%2etxt".toList "/files".toList "/srv".toList none true
  refine ⟨served, contained.1 _ ?_⟩
  rw [served]
  exact .file rfl

end Example

end TlsProxy.Http
