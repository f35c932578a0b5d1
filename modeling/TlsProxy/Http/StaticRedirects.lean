import TlsProxy.Http.ForwardedFields
import TlsProxy.Http.StaticContainment
import TlsProxy.Lib.Uri

/-! A directory that is asked for without a slash at the end is answered with a
redirect to the request path with one. -/
namespace TlsProxy.Http

open Config Uri

def requestPath (target : Text) : Text := ((Text.splitOnce '?' target).map Prod.fst).getD target

def requestUrl (scheme : Text) (head : HttpHead) : Reference where
  scheme := some scheme
  authority := some head.hostRaw
  path := requestPath head.target
  query := (Text.splitOnce '?' head.target).map Prod.snd
  fragment := none

/-- A path that names a resource of the same host by itself: it does not start with two slashes, has no fragment and no
dot segments. -/
def LocalPath (path : Text) : Prop :=
  ¬ ['/', '/'] <+: path ∧ '#' ∉ path ∧ ∀ part ∈ path.splitOn '/', part ≠ ['.'] ∧ part ≠ ['.', '.']

instance (path : Text) : Decidable (LocalPath path) := inferInstanceAs (Decidable (_ ∧ _ ∧ _))

section Redirect

variable {fs : FileSystem} {location : Text} {index : Option Text} {directoryListing : Bool}

theorem redirect_of_serveDirectory {root path physical : Text} {query : Option Text} {headOnly : Bool}
    (served : serveDirectory fs root path query index directoryListing headOnly physical = .redirect location) :
    location = path ++ ['/'] ∧ path.getLast? ≠ some '/' := by
  unfold serveDirectory at served
  split at served
  · grind
  · grind

theorem redirect_of_serveCandidate {root path candidate : Text} {query : Option Text} {headOnly : Bool}
    (served : serveCandidate fs root path query index directoryListing headOnly candidate = .redirect location) :
    location = path ++ ['/'] ∧ path.getLast? ≠ some '/' := by
  unfold serveCandidate at served
  split at served
  · cases served
  · cases served
  · split at served
    · cases served
    · cases served
    · exact redirect_of_serveDirectory served
    · cases served
    · cases served

/-- The only redirect is that of a request path without a slash at its end to the one with it. -/
theorem redirect_of_serve {method target pathPrefix documentRoot : Text}
    (served : serve fs method target pathPrefix documentRoot index directoryListing = .redirect location) :
    location = requestPath target ++ ['/'] ∧ (requestPath target).getLast? ≠ some '/' := by
  unfold serve at served
  dsimp only at served
  split at served
  · cases served
  · split at served
    · cases served
    · split at served
      · cases served
      · split at served
        · cases served
        · split at served
          · cases served
          · exact redirect_of_serveCandidate served

end Redirect

theorem requestPath_no_query (target : Text) : '?' ∉ requestPath target := by
  unfold requestPath
  cases split : Text.splitOnce '?' target with
  | none => exact Text.splitOnce_eq_none.mp split
  | some parts => exact (Text.splitOnce_eq_some.mp split).2

theorem head?_requestPath {target : Text} (origin : target.head? = some '/') : (requestPath target).head? = some '/' := by
  unfold requestPath
  cases split : Text.splitOnce '?' target with
  | none => exact origin
  | some parts =>
    obtain ⟨whole, -⟩ := Text.splitOnce_eq_some.mp split
    rw [whole] at origin
    cases front : parts.1 with
    | nil =>
      rw [front] at origin
      cases origin
    | cons c rest => grind

/-- The redirect stays on the origin and adds the slash. -/
structure StaysOnOrigin (url : Reference) (location : Text) : Prop where
  scheme : (resolve url (parse location)).scheme = url.scheme
  authority : (resolve url (parse location)).authority = url.authority
  path : (resolve url (parse location)).path = url.path ++ ['/']

/-- A redirect stays on the origin if and only if the request path is local. -/
theorem directory_redirect_same_origin {fs : FileSystem} {head : HttpHead} {pathPrefix documentRoot location : Text}
    {index : Option Text} {directoryListing : Bool} (accepted : head.Accepted)
    (served : serve fs head.method head.target pathPrefix documentRoot index directoryListing = .redirect location)
    (scheme : Text) :
    StaysOnOrigin (requestUrl scheme head) location ↔ LocalPath (requestPath head.target) := by
  obtain ⟨-, -, -, -, -, -, origin⟩ := parseHeadText_firstLine accepted.facts
  obtain ⟨rest, path⟩ := List.head?_eq_some_iff.mp (head?_requestPath origin)
  obtain ⟨rfl, unended⟩ := redirect_of_serve served
  have noQuery := requestPath_no_query head.target
  have urlPath : (requestUrl scheme head).path = '/' :: rest := path
  have root : ('/' :: rest).splitOn '/' = [] :: rest.splitOn '/' := Paths.splitOn_append_separator [] rest
  have extended : (rest ++ ['/']).splitOn '/' = rest.splitOn '/' ++ [[]] := Paths.splitOn_append_separator rest []
  have noQueryRest : '?' ∉ rest ++ ['/'] := by grind
  rw [path] at unended
  have filled : rest ≠ [] := by
    rintro rfl
    exact unended rfl
  rw [path, List.cons_append]
  constructor
  · rintro ⟨-, -, same⟩
    rw [urlPath, List.cons_append] at same
    obtain ⟨single, noFragment, noDots⟩ := local_of_resolve_path _ noQueryRest same
    rw [extended] at noDots
    refine ⟨?_, by grind, ?_⟩
    · rintro ⟨tail, doubled⟩
      grind
    · intro part member
      rw [root] at member
      rcases List.mem_cons.mp member with rfl | inside
      · exact ⟨by decide, by decide⟩
      · exact noDots part (List.mem_append_left _ inside)
  · rintro ⟨single, noFragment, noDots⟩
    have startsOnce : (rest ++ ['/']).head? ≠ some '/' := by
      cases rest with
      | nil => exact absurd rfl filled
      | cons c tail => grind
    have segments : ∀ part ∈ (rest ++ ['/']).splitOn '/', part ≠ ['.'] ∧ part ≠ ['.', '.'] := by
      intro part member
      rw [extended, List.mem_append] at member
      rcases member with inside | last
      · exact noDots part (root ▸ List.mem_cons_of_mem _ inside)
      · obtain rfl := List.mem_singleton.mp last
        exact ⟨by decide, by decide⟩
    have resolved := resolve_absolute (requestUrl scheme head) startsOnce ⟨by grind, noQueryRest⟩ segments
    exact ⟨by rw [resolved], by rw [resolved], by rw [resolved, urlPath, List.cons_append]⟩

section Example

def assetsSite : FileSystem where
  canonicalize path := .ok path
  metadata _ := .ok .directory
  idempotent := fun _ => rfl

def redirectHead (text target : Text) : HttpHead :=
  .ofText ⟨"GET".toList, target, "a".toList, none, "a".toList, none, []⟩ false text []

def assetsText : Text := "GET /assets?v=1 HTTP/1.1\nHost: a\n\n".toList

theorem directory_redirect_same_origin_assets :
    serve assetsSite "GET".toList "/assets?v=1".toList "/".toList "/srv".toList none false =
        .redirect "/assets/".toList ∧
      StaysOnOrigin (requestUrl "http".toList (redirectHead assetsText "/assets?v=1".toList)) "/assets/".toList := by
  have text : assetsText = _ := String.toList_ofList
  have accepted : (redirectHead assetsText "/assets?v=1".toList).Accepted := by
    unfold redirectHead
    exact accepted_of_text (by rw [text]; decide +kernel) (by rw [text]; decide +kernel)
  have served : serve assetsSite "GET".toList "/assets?v=1".toList "/".toList "/srv".toList none false =
      .redirect "/assets/".toList := by decide +kernel
  exact ⟨served, (directory_redirect_same_origin accepted served "http".toList).mpr (by decide +kernel)⟩

def slashesText : Text := "GET //assets HTTP/1.1\nHost: a\n\n".toList

/-- Two slashes at the start are skipped in the lookup of the directory, and make its name a host in the redirect. -/
theorem directory_redirect_leaves_origin :
    (redirectHead slashesText "//assets".toList).Accepted ∧
      serve assetsSite "GET".toList "//assets".toList "/".toList "/srv".toList none false =
        .redirect "//assets/".toList ∧
      (requestUrl "http".toList (redirectHead slashesText "//assets".toList)).authority = some "a".toList ∧
      resolve (requestUrl "http".toList (redirectHead slashesText "//assets".toList)) (parse "//assets/".toList) =
        ⟨some "http".toList, some "assets".toList, "/".toList, none, none⟩ := by
  have text : slashesText = _ := String.toList_ofList
  refine ⟨?_, by decide +kernel, rfl, by decide +kernel⟩
  unfold redirectHead
  exact accepted_of_text (by rw [text]; decide +kernel) (by rw [text]; decide +kernel)

end Example

end TlsProxy.Http
