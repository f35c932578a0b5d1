import TlsProxy.Config.Validate
import TlsProxy.Http.PathRoutes

/-! `select_path` takes the last of the longest prefixes that match. -/
namespace TlsProxy.Http

open Config

def IsTarget (target : Text) : Prop :=
  target.head? = some '/' ∧ ∀ c ∈ target, Text.isAsciiWhitespace c = false

/-- A text that, with slashes behind it, is the path of some target. -/
def Reachable (trimmed : Text) : Prop := trimmed = [] ∨ IsTarget trimmed ∧ targetPath trimmed = trimmed

/-- No two routes have the same prefix up to trailing slashes, unless no path can have it. -/
def DistinctPrefixes (paths : List HttpPathRoute) : Prop :=
  ∀ route ∈ paths, ∀ other ∈ paths, trimSlashes route.pathPrefix = trimSlashes other.pathPrefix →
    Reachable (trimSlashes route.pathPrefix) → route = other

theorem reachable_of_covers {target pathPrefix : Text} (isTarget : IsTarget target)
    (covers : Covers pathPrefix (targetPath target)) : Reachable (trimSlashes pathPrefix) := by
  obtain ⟨rest, path, -⟩ := covers
  have front : trimSlashes pathPrefix <+: target :=
    List.IsPrefix.trans ⟨rest, path.symm⟩ (List.takeWhile_prefix _)
  by_cases empty : trimSlashes pathPrefix = []
  · exact .inl empty
  · refine .inr ⟨⟨?_, fun c member => isTarget.2 c (front.subset member)⟩, ?_⟩
    · obtain ⟨behind, whole⟩ := front
      rw [← isTarget.1, ← whole, List.head?_append_of_ne_nil _ empty]
    · refine List.takeWhile_eq_self_iff.mpr fun c member => ?_
      have inPath : c ∈ targetPath target := path ▸ List.mem_append_left _ member
      exact List.mem_takeWhile_imp (p := fun c => c != '?' && c != '#') inPath

theorem trimSlashes_ne_slash (pathPrefix : Text) : trimSlashes pathPrefix ≠ ['/'] := by
  intro slash
  have again : trimSlashes (trimSlashes pathPrefix) = trimSlashes pathPrefix := List.rdropWhile_idempotent _ _
  rw [slash] at again
  exact absurd again (by decide)

/-- No two routes match a path with prefixes of the same length. -/
theorem pathScore_distinct {paths : List HttpPathRoute} (distinct : DistinctPrefixes paths) {target : Text}
    (isTarget : IsTarget target) :
    ∀ a ∈ paths, ∀ b ∈ paths, ∀ k, pathScore (targetPath target) a = some k → pathScore (targetPath target) b = some k →
      a = b := by
  intro a first b second k scoredA scoredB
  obtain ⟨matchA, lengthA⟩ := pathScore_eq_some_iff.mp scoredA
  obtain ⟨matchB, lengthB⟩ := pathScore_eq_some_iff.mp scoredB
  have coversA := pathPrefixMatches_iff_covers.mp matchA
  have trimmed := trimSlashes_eq_of_covers coversA (pathPrefixMatches_iff_covers.mp matchB) (lengthA.trans lengthB.symm)
  exact distinct a first b second trimmed (reachable_of_covers isTarget coversA)

def LongestPrefix (paths : List HttpPathRoute) (path : Text) (route : HttpPathRoute) : Prop :=
  route ∈ paths ∧ Covers route.pathPrefix path ∧ ∀ other ∈ paths, other ≠ route → Covers other.pathPrefix path →
    byteLen (trimSlashes other.pathPrefix) < byteLen (trimSlashes route.pathPrefix)

theorem selectPath_iff_longestPrefix {action : HttpRouteAction} (distinct : DistinctPrefixes action.paths) {target : Text}
    (isTarget : IsTarget target) {route : HttpPathRoute} :
    selectPath action target = some route ↔ LongestPrefix action.paths (targetPath target) route := by
  have scores := pathScore_distinct distinct isTarget
  simp only [selectPath, routeOfPath, Option.map_eq_some_iff, Prod.exists, exists_and_right, exists_eq_right,
    Select.select_le_eq_some_iff scores, pathScore_eq_some_iff, pathPrefixMatches_iff_covers]
  constructor
  · rintro ⟨k, member, ⟨covers, rfl⟩, most⟩
    refine ⟨member, covers, fun other inside different covered => ?_⟩
    refine Nat.lt_of_le_of_ne (most other inside _ ⟨covered, rfl⟩) fun same => different ?_
    exact scores other inside route member _
      (pathScore_eq_some_iff.mpr ⟨pathPrefixMatches_iff_covers.mpr covered, same⟩)
      (pathScore_eq_some_iff.mpr ⟨pathPrefixMatches_iff_covers.mpr covers, rfl⟩)
  · rintro ⟨member, covers, most⟩
    grind

theorem routeOfPath_eq_none_iff {action : HttpRouteAction} {path : Text} :
    routeOfPath action path = none ↔ ∀ route ∈ action.paths, ¬ Covers route.pathPrefix path := by
  rw [routeOfPath, Option.map_eq_none_iff, Select.select_eq_none_iff Select.laws_le]
  grind [pathPrefixMatches_iff_covers, pathScore]

/-- The route for a target is the one with the longest prefix on a segment boundary, in whatever order the routes are. -/
structure SelectsLongest (action : HttpRouteAction) (target : Text) : Prop where
  order : ∀ paths, paths.Perm action.paths → selectPath { action with paths } target = selectPath action target
  longest : ∀ route, selectPath action target = some route ↔ LongestPrefix action.paths (targetPath target) route
  none : selectPath action target = none ↔ ∀ route ∈ action.paths, ¬ Covers route.pathPrefix (targetPath target)

/-- A reachable prefix is itself the path of a target that no longer prefix covers. -/
theorem exists_target_of_reachable {trimmed : Text} (reachable : Reachable trimmed) :
    ∃ target, IsTarget target ∧ (∀ pathPrefix, trimSlashes pathPrefix = trimmed → Covers pathPrefix (targetPath target)) ∧
      ∀ pathPrefix, Covers pathPrefix (targetPath target) → byteLen (trimSlashes pathPrefix) ≤ byteLen trimmed := by
  rcases reachable with rfl | ⟨isTarget, path⟩
  · refine ⟨['/'], ⟨rfl, List.forall_iff_forall_mem.mp (by decide)⟩,
      fun pathPrefix empty => ⟨['/'], by rw [empty]; rfl, .inl empty⟩, ?_⟩
    rintro pathPrefix ⟨rest, whole, -⟩
    change ['/'] = _ at whole
    rcases List.cons_eq_append_iff.mp whole with ⟨empty, -⟩ | ⟨tail, isSlash, none⟩
    · rw [empty]
    · obtain ⟨rfl, -⟩ := List.append_eq_nil_iff.mp none.symm
      exact absurd isSlash (trimSlashes_ne_slash pathPrefix)
  · refine ⟨trimmed, isTarget, fun pathPrefix same => ?_, ?_⟩
    · rw [path]
      exact ⟨[], by rw [same, List.append_nil], .inr (.inl rfl)⟩
    · rintro pathPrefix ⟨rest, whole, -⟩
      rw [path] at whole
      rw [whole, byteLen, byteLen, Utf8.encode_append, List.length_append]
      exact Nat.le_add_right _ _

/-- Selection is by the longest prefix for every target exactly when no two routes share a reachable prefix. -/
theorem path_selection_order_independent (action : HttpRouteAction) :
    (∀ target, IsTarget target → SelectsLongest action target) ↔ DistinctPrefixes action.paths := by
  constructor
  · intro selects route first other second same reachable
    obtain ⟨target, isTarget, covers, longest⟩ := exists_target_of_reachable reachable
    have rule := selects target isTarget
    have covered := covers route.pathPrefix rfl
    cases found : selectPath action target with
    | none => exact absurd covered (rule.none.mp found route first)
    | some best =>
      obtain ⟨-, bestCovers, others⟩ := (rule.longest best).mp found
      -- A route other than the best would have a shorter prefix.
      have isBest (candidate : HttpPathRoute) (member : candidate ∈ action.paths)
          (trimmed : trimSlashes candidate.pathPrefix = trimSlashes route.pathPrefix) : candidate = best := by
        by_contra different
        have shorter := others candidate member different (covers _ trimmed)
        have bounded := longest _ bestCovers
        rw [trimmed] at shorter
        omega
      exact (isBest route first rfl).trans (isBest other second same.symm).symm
  · intro distinct target isTarget
    refine ⟨fun paths perm => ?_, fun route => selectPath_iff_longestPrefix distinct isTarget, routeOfPath_eq_none_iff⟩
    exact congrArg (Option.map Prod.fst) (Select.select_le_perm (pathScore_distinct distinct isTarget) perm)

section Example

def pathTo (pathPrefix : Text) (target : Text) : HttpPathRoute :=
  { pathPrefix, action := .reverseProxy { target := some target } }

def layeredAction : HttpRouteAction :=
  { paths := [pathTo "/".toList "a".toList, pathTo "/api/".toList "b".toList, pathTo "/api/v1".toList "c".toList] }

theorem path_selection_order_independent_layered :
    validateHttpAction bareEnvironment [] layeredAction = .ok () ∧
      selectPath { layeredAction with paths := layeredAction.paths.reverse } "/api/v2?q".toList =
        some (pathTo "/api/".toList "b".toList) := by
  have apart : (layeredAction.paths.map fun route => trimSlashes route.pathPrefix).Nodup := by decide +kernel
  have selects := (path_selection_order_independent layeredAction).mpr
    fun route first other second same _ => List.inj_on_of_nodup_map apart first second same
  have isTarget : IsTarget "/api/v2?q".toList := ⟨rfl, List.forall_iff_forall_mem.mp (by decide)⟩
  exact ⟨rfl, ((selects _ isTarget).order _ (List.reverse_perm _)).trans rfl⟩

def doubleRoot : HttpRouteAction :=
  { paths := [pathTo "/".toList "a".toList, pathTo "//".toList "b".toList] }

def redirectTwice : HttpRouteAction :=
  { behavior := .redirectHttps, paths := [pathTo "/x".toList "a".toList, pathTo "/x".toList "b".toList] }

/-- The prefixes `/` and `//` pass the check for duplicates, and the last one wins. The paths of an action that
redirects are not checked. -/
theorem path_selection_depends_on_order :
    (validateHttpAction bareEnvironment [] doubleRoot = .ok () ∧
      selectPath doubleRoot "/x".toList = some (pathTo "//".toList "b".toList) ∧
      selectPath { doubleRoot with paths := doubleRoot.paths.reverse } "/x".toList =
        some (pathTo "/".toList "a".toList) ∧
      pathTo "//".toList "b".toList ≠ pathTo "/".toList "a".toList) ∧
    (validateHttpAction bareEnvironment [] redirectTwice = .ok () ∧
      selectPath redirectTwice "/x".toList = some (pathTo "/x".toList "b".toList) ∧
      selectPath { redirectTwice with paths := redirectTwice.paths.reverse } "/x".toList =
        some (pathTo "/x".toList "a".toList)) := by
  refine ⟨⟨rfl, rfl, rfl, fun same => ?_⟩, rfl, rfl, rfl⟩
  exact absurd (congrArg (·.pathPrefix) same) (by decide)

end Example

end TlsProxy.Http
