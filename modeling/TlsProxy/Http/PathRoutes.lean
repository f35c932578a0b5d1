import TlsProxy.Config.Names
import TlsProxy.Http.Head
import TlsProxy.Lib.Select

/-! `select_path` of a host action, and the descent through nested path routes. -/
namespace TlsProxy.Http

open Config

def trimSlashes (pathPrefix : Text) : Text := Text.trimEndMatches (· == '/') pathPrefix

def targetPath (target : Text) : Text := target.takeWhile fun c => c != '?' && c != '#'

def pathPrefixMatches (pathPrefix path : Text) : Bool :=
  let pathPrefix := trimSlashes pathPrefix
  pathPrefix.isEmpty || path == pathPrefix || (Text.stripPrefix pathPrefix path).any fun rest => rest.head? == some '/'

/-- The prefix, without its trailing slashes, ends on a segment boundary of the path. -/
def Covers (pathPrefix path : Text) : Prop :=
  ∃ rest, path = trimSlashes pathPrefix ++ rest ∧
    (trimSlashes pathPrefix = [] ∨ rest = [] ∨ rest.head? = some '/')

theorem pathPrefixMatches_iff_covers {pathPrefix path : Text} :
    pathPrefixMatches pathPrefix path = true ↔ Covers pathPrefix path := by
  simp only [pathPrefixMatches, Bool.or_eq_true, List.isEmpty_iff, beq_iff_eq, Option.any_eq_true,
    Text.stripPrefix_eq_some]
  constructor
  · rintro ((empty | whole) | ⟨rest, whole, boundary⟩)
    · exact ⟨path, by rw [empty, List.nil_append], .inl empty⟩
    · exact ⟨[], by rw [List.append_nil]; exact whole, .inr (.inl rfl)⟩
    · exact ⟨rest, whole, .inr (.inr boundary)⟩
  · rintro ⟨rest, whole, empty | rfl | boundary⟩
    · exact .inl (.inl empty)
    · grind
    · exact .inr ⟨rest, whole, boundary⟩

theorem trimSlashes_eq_of_covers {a b path : Text} (first : Covers a path) (second : Covers b path)
    (same : byteLen (trimSlashes a) = byteLen (trimSlashes b)) : trimSlashes a = trimSlashes b := by
  obtain ⟨restA, wholeA, -⟩ := first
  obtain ⟨restB, wholeB, -⟩ := second
  rcases List.prefix_or_prefix_of_prefix ⟨restA, wholeA.symm⟩ ⟨restB, wholeB.symm⟩ with shorter | longer
  · exact eq_of_prefix_of_byteLen shorter same
  · exact (eq_of_prefix_of_byteLen longer same.symm).symm

/-- What `max_by_key` compares among the routes that match. -/
def pathScore (path : Text) (route : HttpPathRoute) : Option Nat :=
  if pathPrefixMatches route.pathPrefix path then some (byteLen (trimSlashes route.pathPrefix)) else none

theorem pathScore_eq_some_iff {path : Text} {route : HttpPathRoute} {length : Nat} :
    pathScore path route = some length ↔
      pathPrefixMatches route.pathPrefix path = true ∧ byteLen (trimSlashes route.pathPrefix) = length := by
  grind [pathScore]

def routeOfPath (action : HttpRouteAction) (path : Text) : Option HttpPathRoute :=
  (Select.select (fun score current => current ≤ score) (pathScore path) action.paths).map Prod.fst

def selectPath (action : HttpRouteAction) (target : Text) : Option HttpPathRoute :=
  routeOfPath action (targetPath target)

theorem routeOfPath_eq_some_iff {action : HttpRouteAction} {path : Text} {route : HttpPathRoute} :
    routeOfPath action path = some route ↔
      ∃ length, Select.Chosen (fun score current => current ≤ score) (pathScore path) action.paths route length := by
  simp only [routeOfPath, Option.map_eq_some_iff, Prod.exists]
  simp [Select.select_eq_some_iff, Select.laws_le]

def strippedTarget (pathPrefix target : Text) : Text :=
  let stripped := (Text.stripPrefix (trimSlashes pathPrefix) target).getD target
  if stripped.isEmpty then ['/'] else stripped

theorem strippedTarget_word {target : Text} (solid : ∀ c ∈ target, Text.isAsciiWhitespace c = false) (pathPrefix : Text) :
    strippedTarget pathPrefix target ≠ [] ∧ ∀ c ∈ strippedTarget pathPrefix target, Text.isAsciiWhitespace c = false := by
  unfold strippedTarget
  dsimp only
  split
  · exact ⟨by decide, List.forall_iff_forall_mem.mp (by decide)⟩
  · rename_i some_
    refine ⟨fun empty => some_ (List.isEmpty_iff.mpr empty), ?_⟩
    cases found : Text.stripPrefix (trimSlashes pathPrefix) target with
    | none => exact solid
    | some rest =>
      intro c member
      refine solid c ?_
      rw [Text.stripPrefix_eq_some.mp found]
      exact List.mem_append_right _ member

namespace HttpHead

variable {h : HttpHead} {line rest version : Text}

theorem stripPathPrefix_facts (found : Text.splitOnce '\n' h.head = some (line, rest)) (pathPrefix : Text) :
    (h.stripPathPrefix pathPrefix).toHeadFacts =
      { h.toHeadFacts with target := strippedTarget pathPrefix h.target } := by
  unfold stripPathPrefix
  split
  · grind
  · rfl

def rebuiltLine (h : HttpHead) (pathPrefix version : Text) : Text :=
  h.method ++ ' ' :: (strippedTarget pathPrefix h.target ++ ' ' :: version)

theorem stripPathPrefix_head (found : Text.splitOnce '\n' h.head = some (line, rest))
    (words : Text.splitAsciiWhitespace line = [h.method, h.target, version]) (pathPrefix : Text) :
    ∃ ending, (ending = [] ∨ ending = ['\r']) ∧
      (h.stripPathPrefix pathPrefix).head = h.rebuiltLine pathPrefix version ++ ending ++ '\n' :: rest := by
  have trimmed : Text.splitAsciiWhitespace (Text.trimEndMatches (· == '\r') line) = [h.method, h.target, version] := by
    rw [Text.splitAsciiWhitespace_trimEndMatches, words]
    intro c isCr
    rw [beq_iff_eq] at isCr
    subst isCr
    decide
  unfold stripPathPrefix
  split
  · grind
  · rename_i first others split
    obtain ⟨rfl, rfl⟩ := Prod.mk.inj (Option.some.inj (found.symm.trans split))
    dsimp only
    rw [trimmed]
    change ∃ ending, (ending = [] ∨ ending = ['\r']) ∧
      h.method ++ [' '] ++ strippedTarget pathPrefix h.target ++ [' '] ++ version ++
        (if line.getLast? = some '\r' then ['\r', '\n'] else ['\n']) ++ rest = _
    split
    · simp [rebuiltLine]
    · exact ⟨[], .inl rfl, by simp [rebuiltLine]⟩

theorem rebuiltLine_words (words : Text.splitAsciiWhitespace line = [h.method, h.target, version]) (pathPrefix : Text) :
    Text.splitAsciiWhitespace (h.rebuiltLine pathPrefix version) =
      [h.method, strippedTarget pathPrefix h.target, version] := by
  have word : ∀ part ∈ [h.method, h.target, version], part ≠ [] ∧ ∀ c ∈ part, Text.isAsciiWhitespace c = false :=
    fun part member => Text.mem_splitAsciiWhitespace (words ▸ member)
  obtain ⟨filledMethod, solidMethod⟩ := word h.method (by simp)
  obtain ⟨filledVersion, solidVersion⟩ := word version (by simp)
  obtain ⟨filled, solid⟩ := strippedTarget_word (word h.target (by simp)).2 pathPrefix
  rw [rebuiltLine, Text.splitAsciiWhitespace_append_cons (by decide), Text.splitAsciiWhitespace_append_cons (by decide),
    Text.splitAsciiWhitespace_word filledMethod solidMethod, Text.splitAsciiWhitespace_word filled solid,
    Text.splitAsciiWhitespace_word filledVersion solidVersion]
  rfl

theorem newline_not_mem_rebuiltLine (words : Text.splitAsciiWhitespace line = [h.method, h.target, version])
    {ending : Text} (kind : ending = [] ∨ ending = ['\r']) (pathPrefix : Text) :
    '\n' ∉ h.rebuiltLine pathPrefix version ++ ending := by
  have clean : ∀ part ∈ [h.method, strippedTarget pathPrefix h.target, version], '\n' ∉ part := fun part member =>
    Text.newline_not_mem_splitAsciiWhitespace (rebuiltLine_words words pathPrefix ▸ member)
  have ends : '\n' ∉ ending := by rcases kind with rfl | rfl <;> decide
  grind [rebuiltLine]

end HttpHead

def innerTarget (route : HttpPathRoute) (target : Text) : Text :=
  if route.stripPrefix then strippedTarget route.pathPrefix target else target

/-- The routes met when `select_path` is applied at every level of the tree. -/
inductive Passes : HttpRouteAction → Text → HttpPathRoute → Prop
  | here {action : HttpRouteAction} {target : Text} {route : HttpPathRoute}
      (selected : selectPath action target = some route) : Passes action target route
  | deeper {action inner : HttpRouteAction} {target : Text} {outer route : HttpPathRoute}
      (selected : selectPath action target = some outer) (proxied : outer.action = .reverseProxy inner)
      (below : Passes inner (innerTarget outer target) route) : Passes action target route

end TlsProxy.Http
