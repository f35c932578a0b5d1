import TlsProxy.Lib.Text

/-! The components of a path as `std::path` counts them on Unix: repeated separators
and inner dots do not count, a first dot and the root do. -/
namespace Paths

inductive Component
  | rootDir
  | curDir
  | parentDir
  | normal (name : Text)
deriving DecidableEq

def names (path : Text) : List Text := (path.splitOn '/').filter fun part => !part.isEmpty && part != ['.']

def ofName (name : Text) : Component := if name = ['.', '.'] then .parentDir else .normal name

def leading (path : Text) : List Component :=
  if path.head? = some '/' then [.rootDir]
  else if (path.splitOn '/').head? = some ['.'] then [.curDir]
  else []

def components (path : Text) : List Component := leading path ++ (names path).map ofName

def startsWith (path base : Text) : Bool := (components base).isPrefixOf (components path)

/-- An absolute path replaces what it is joined to. -/
def join (base path : Text) : Text :=
  if path.head? = some '/' then path
  else if base.isEmpty || base.getLast? == some '/' then base ++ path
  else base ++ '/' :: path

theorem splitOn_append_separator (base rest : Text) :
    (base ++ '/' :: rest).splitOn '/' = base.splitOn '/' ++ rest.splitOn '/' :=
  List.splitOnP_append_cons base rest (by simp)

theorem names_append_separator (base rest : Text) : names (base ++ '/' :: rest) = names base ++ names rest := by
  grind [names, splitOn_append_separator]

theorem leading_append_separator {base : Text} (filled : base ≠ []) (rest : Text) :
    leading (base ++ '/' :: rest) = leading base := by
  have first : (base ++ '/' :: rest).head? = base.head? := List.head?_append_of_ne_nil _ filled
  have part : ((base ++ '/' :: rest).splitOn '/').head? = (base.splitOn '/').head? := by
    rw [splitOn_append_separator]
    exact List.head?_append_of_ne_nil _ (List.splitOn_ne_nil '/' base)
  rw [leading, first, part, leading]

theorem components_join {base path : Text} (filled : base ≠ []) (relative : path.head? ≠ some '/') :
    components (join base path) = components base ++ (names path).map ofName := by
  rw [join, if_neg relative]
  split
  · rename_i separated
    rw [Bool.or_eq_true, List.isEmpty_iff, beq_iff_eq] at separated
    obtain ⟨front, rfl⟩ := List.getLast?_eq_some_iff.mp (separated.resolve_left filled)
    rw [List.append_assoc, List.singleton_append]
    have blank : names [] = [] := by decide
    have start : leading (front ++ '/' :: path) = leading (front ++ ['/']) := by
      cases front with
      | nil => rfl
      | cons c rest => grind [leading_append_separator]
    grind [components, names_append_separator]
  · grind [components, leading_append_separator, names_append_separator]

theorem mem_components_join {base path : Text} (relative : path.head? ≠ some '/') {component : Component}
    (member : component ∈ components (join base path)) :
    component ∈ components base ∨ component ∈ components path := by
  by_cases filled : base = []
  · grind [join]
  · rw [components_join filled relative, List.mem_append] at member
    exact member.imp_right fun named => List.mem_append_right _ named

theorem mem_components {path : Text} {component : Component} (member : component ∈ components path) :
    component = .rootDir ∧ path.head? = some '/' ∨ component = .curDir ∨
      ∃ name ∈ path.splitOn '/', component = ofName name := by
  rcases List.mem_append.mp member with start | named
  · unfold leading at start
    split at start
    · grind
    · grind
  · obtain ⟨name, inNames, rfl⟩ := List.mem_map.mp named
    exact .inr (.inr ⟨name, List.mem_of_mem_filter inNames, rfl⟩)

theorem rootDir_mem_components {path : Text} : .rootDir ∈ components path ↔ path.head? = some '/' := by
  constructor
  · intro member
    grind [mem_components, ofName]
  · grind [components, leading]

theorem parentDir_mem_components {path : Text} : .parentDir ∈ components path ↔ ['.', '.'] ∈ path.splitOn '/' := by
  constructor
  · intro member
    rcases mem_components member with ⟨root, -⟩ | current | ⟨name, inParts, named⟩
    · cases root
    · cases current
    · grind [ofName]
  · intro inParts
    refine List.mem_append_right _ (List.mem_map.mpr ⟨['.', '.'], ?_, rfl⟩)
    exact List.mem_filter.mpr ⟨inParts, by decide⟩

example : components "/srv//www/./a".toList = [.rootDir, .normal "srv".toList, .normal "www".toList, .normal "a".toList] := by
  decide

example : startsWith "/srv/www2/a".toList "/srv/www".toList = false := by decide

end Paths
