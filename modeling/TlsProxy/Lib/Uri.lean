import TlsProxy.Lib.Text

/-! The components of a URI reference, split by the generic syntax, and the
resolution of a reference against a base: an authority of its own replaces that
of the base, an absolute path keeps it, and dot segments are removed. -/
namespace Uri

structure Reference where
  scheme : Option Text
  authority : Option Text
  path : Text
  query : Option Text
  fragment : Option Text
deriving DecidableEq

def cut (c : Char) (t : Text) : Text × Option Text :=
  match Text.splitOnce c t with
  | some (before, after) => (before, some after)
  | none => (t, none)

/-- A scheme ends at a colon before any slash. -/
def cutScheme (t : Text) : Option Text × Text :=
  let name := t.takeWhile fun c => c != ':' && c != '/'
  if name ≠ [] ∧ (t.drop name.length).head? = some ':' then (some name, t.drop (name.length + 1)) else (none, t)

/-- An authority stands behind two slashes and ends at the next one. -/
def cutAuthority (t : Text) : Option Text × Text :=
  match Text.stripPrefix ['/', '/'] t with
  | some after => (some (after.takeWhile (· != '/')), after.dropWhile (· != '/'))
  | none => (none, t)

def parse (t : Text) : Reference :=
  let front := cut '#' t
  let hierarchy := cut '?' front.1
  let scheme := cutScheme hierarchy.1
  let authority := cutAuthority scheme.2
  ⟨scheme.1, authority.1, authority.2, hierarchy.2, front.2⟩

def firstSegment (path : Text) : Text := path.take 1 ++ (path.drop 1).takeWhile (· != '/')

/-- A path without its last segment and the slash in front of that. -/
def dropLastSegment (path : Text) : Text := ((path.reverse.dropWhile (· != '/')).drop 1).reverse

/-- Moves the segments of a path to the output one by one and removes dot segments on the way. Every step shortens the
path. -/
def removeDots : Nat → Text → Text → Text
  | 0, output, _ => output
  | fuel + 1, output, path =>
    if path = [] then output
    else if ['.', '.', '/'].isPrefixOf path then removeDots fuel output (path.drop 3)
    else if ['.', '/'].isPrefixOf path then removeDots fuel output (path.drop 2)
    else if ['/', '.', '/'].isPrefixOf path then removeDots fuel output (path.drop 2)
    else if path = ['/', '.'] then removeDots fuel output ['/']
    else if ['/', '.', '.', '/'].isPrefixOf path then removeDots fuel (dropLastSegment output) (path.drop 3)
    else if path = ['/', '.', '.'] then removeDots fuel (dropLastSegment output) ['/']
    else if path = ['.'] ∨ path = ['.', '.'] then removeDots fuel output []
    else removeDots fuel (output ++ firstSegment path) (path.drop (firstSegment path).length)

def removeDotSegments (path : Text) : Text := removeDots (path.length + 1) [] path

/-- A relative path takes the place of what follows the last slash of the base. -/
def merge (base : Reference) (path : Text) : Text :=
  if base.authority.isSome ∧ base.path = [] then '/' :: path
  else (base.path.reverse.dropWhile (· != '/')).reverse ++ path

def resolve (base reference : Reference) : Reference :=
  if reference.scheme.isSome then { reference with path := removeDotSegments reference.path }
  else if reference.authority.isSome then
    { reference with scheme := base.scheme, path := removeDotSegments reference.path }
  else if reference.path = [] then
    { base with query := reference.query.or base.query, fragment := reference.fragment }
  else
    { base with
      path := removeDotSegments (if reference.path.head? = some '/' then reference.path else merge base reference.path)
      query := reference.query
      fragment := reference.fragment }

def PlainSegment (segment : Text) : Prop := '/' ∉ segment ∧ segment ≠ ['.'] ∧ segment ≠ ['.', '.']

def Boundary (rest : Text) : Prop := rest = [] ∨ rest.head? = some '/'

theorem takeWhile_segment {segment rest : Text} (single : '/' ∉ segment) (boundary : Boundary rest) :
    (segment ++ rest).takeWhile (· != '/') = segment := by
  have inside : ∀ c ∈ segment, (c != '/') = true := by grind
  rw [List.takeWhile_append_of_pos inside]
  rcases boundary with rfl | slash
  · simp
  · obtain ⟨tail, rfl⟩ := List.head?_eq_some_iff.mp slash
    simp

theorem segment_unique {a b x y : Text} (singleA : '/' ∉ a) (singleB : '/' ∉ b) (boundaryX : Boundary x)
    (boundaryY : Boundary y) (same : a ++ x = b ++ y) : a = b := by grind [takeWhile_segment]

theorem removeDots_cons {segment rest output : Text} {fuel : Nat} (plain : PlainSegment segment)
    (boundary : Boundary rest) :
    removeDots (fuel + 1) output ('/' :: (segment ++ rest)) = removeDots fuel (output ++ '/' :: segment) rest := by
  obtain ⟨single, oneDot, twoDots⟩ := plain
  have first : firstSegment ('/' :: (segment ++ rest)) = '/' :: segment := by grind [firstSegment, takeWhile_segment]
  -- no dots in front of a boundary
  have other : ∀ dots tail, '/' ∉ dots → Boundary tail → segment ≠ dots → '/' :: (dots ++ tail) ≠ '/' :: (segment ++ rest) := by
    grind [segment_unique]
  have notPrefix : ∀ dots, '/' ∉ dots → segment ≠ dots →
      ('/' :: (dots ++ ['/'])).isPrefixOf ('/' :: (segment ++ rest)) = false := by
    intro dots singleDots different
    rw [Bool.eq_false_iff, ne_eq, List.isPrefixOf_iff_prefix]
    rintro ⟨tail, same⟩
    refine other dots ('/' :: tail) singleDots (.inr rfl) different ?_
    rw [← same]
    simp
  have notOne : ['/', '.', '/'].isPrefixOf ('/' :: (segment ++ rest)) = false := notPrefix ['.'] (by decide) oneDot
  have notTwo : ['/', '.', '.', '/'].isPrefixOf ('/' :: (segment ++ rest)) = false :=
    notPrefix ['.', '.'] (by decide) twoDots
  have notOneEnd : '/' :: (segment ++ rest) ≠ ['/', '.'] := (other ['.'] [] (by decide) (.inl rfl) oneDot).symm
  have notTwoEnd : '/' :: (segment ++ rest) ≠ ['/', '.', '.'] :=
    (other ['.', '.'] [] (by decide) (.inl rfl) twoDots).symm
  grind [removeDots]

theorem removeDots_segments {segments : List Text} (plain : ∀ segment ∈ segments, PlainSegment segment) {fuel : Nat}
    (enough : (segments.flatMap ('/' :: ·)).length < fuel) (output : Text) :
    removeDots fuel output (segments.flatMap ('/' :: ·)) = output ++ segments.flatMap ('/' :: ·) := by
  induction segments generalizing fuel output with
  | nil =>
    obtain ⟨fuel, rfl⟩ := Nat.exists_eq_add_one_of_ne_zero (Nat.ne_of_gt (Nat.zero_lt_of_lt enough))
    simp [removeDots]
  | cons segment rest ih =>
    obtain ⟨fuel, rfl⟩ := Nat.exists_eq_add_one_of_ne_zero (Nat.ne_of_gt (Nat.zero_lt_of_lt enough))
    have boundary : Boundary (rest.flatMap ('/' :: ·)) := by
      cases rest with
      | nil => exact .inl rfl
      | cons next later => exact .inr rfl
    rw [List.flatMap_cons, List.cons_append, List.length_cons, List.length_append] at enough
    grind [removeDots_cons]

theorem flatMap_splitOn (rest : Text) : (rest.splitOn '/').flatMap ('/' :: ·) = '/' :: rest := by
  have joined : ∀ parts : List Text, parts ≠ [] → parts.flatMap ('/' :: ·) = '/' :: ['/'].intercalate parts := by
    intro parts filled
    induction parts with
    | nil => exact absurd rfl filled
    | cons part later ih =>
      cases later with
      | nil => simp [List.intercalate]
      | cons next others => grind [List.intercalate, List.intersperse_cons_cons]
  rw [joined _ (List.splitOn_ne_nil _ _), List.intercalate_splitOn]

theorem removeDotSegments_eq_self {rest : Text} (plain : ∀ part ∈ rest.splitOn '/', part ≠ ['.'] ∧ part ≠ ['.', '.']) :
    removeDotSegments ('/' :: rest) = '/' :: rest := by
  have segments : ∀ segment ∈ rest.splitOn '/', PlainSegment segment :=
    fun segment member => ⟨Text.not_mem_splitOn member, plain segment member⟩
  have whole := removeDots_segments segments (Nat.lt_succ_self _) []
  rwa [flatMap_splitOn] at whole

theorem cutScheme_absolute (rest : Text) : cutScheme ('/' :: rest) = (none, '/' :: rest) := by simp [cutScheme]

theorem cut_eq_self {c : Char} {t : Text} (absent : c ∉ t) : cut c t = (t, none) := by
  rw [cut, Text.splitOnce_eq_none.mpr absent]

theorem resolve_absolute (base : Reference) {rest : Text} (local_ : rest.head? ≠ some '/') (bare : '#' ∉ rest ∧ '?' ∉ rest)
    (plain : ∀ part ∈ rest.splitOn '/', part ≠ ['.'] ∧ part ≠ ['.', '.']) :
    resolve base (parse ('/' :: rest)) = { base with path := '/' :: rest, query := none, fragment := none } := by
  have noFragment : cut '#' ('/' :: rest) = ('/' :: rest, none) := cut_eq_self (by simpa using bare.1)
  have noQuery : cut '?' ('/' :: rest) = ('/' :: rest, none) := cut_eq_self (by simpa using bare.2)
  have noAuthority : cutAuthority ('/' :: rest) = (none, '/' :: rest) := by
    have single : Text.stripPrefix ['/', '/'] ('/' :: rest) = none := by
      rw [Option.eq_none_iff_forall_ne_some]
      intro after found
      have whole := Text.stripPrefix_eq_some.mp found
      grind
    rw [cutAuthority, single]
  have parsed : parse ('/' :: rest) = ⟨none, none, '/' :: rest, none, none⟩ := by grind [parse, cutScheme_absolute]
  rw [parsed, resolve, if_neg (by simp), if_neg (by simp), if_neg (by simp), List.head?_cons, if_pos rfl,
    removeDotSegments_eq_self plain]

theorem length_firstSegment_le (path : Text) : (firstSegment path).length ≤ path.length := by
  cases path with
  | nil => exact Nat.le_refl 0
  | cons c rest =>
    have inside := (List.takeWhile_prefix (l := rest) (· != '/')).length_le
    simp only [firstSegment, List.take_succ_cons, List.take_zero, List.drop_succ_cons, List.drop_zero,
      List.length_append, List.length_cons, List.length_nil]
    omega

theorem length_dropLastSegment_le (path : Text) : (dropLastSegment path).length ≤ path.length := by
  have behind := (List.dropWhile_suffix (l := path.reverse) (· != '/')).length_le
  rw [List.length_reverse] at behind
  rw [dropLastSegment, List.length_reverse, List.length_drop]
  omega

/-- Removing dots only ever shortens. -/
theorem length_removeDots_le (fuel : Nat) (output path : Text) :
    (removeDots fuel output path).length ≤ output.length + path.length := by
  induction fuel generalizing output path with
  | zero => exact Nat.le_add_right _ _
  | succ fuel ih =>
    have shorter := length_dropLastSegment_le output
    have segment := length_firstSegment_le path
    unfold removeDots
    split_ifs
    · exact Nat.le_add_right _ _
    · grind
    · grind
    · grind
    · grind
    · grind
    · grind
    · grind
    · refine (ih _ _).trans ?_
      rw [List.length_append, List.length_drop]
      omega

theorem length_removeDots_lt {segments : List Text} {segment : Text} (member : segment ∈ segments)
    (single : ∀ segment ∈ segments, '/' ∉ segment) (dots : segment = ['.'] ∨ segment = ['.', '.']) (fuel : Nat)
    (output : Text) :
    (removeDots fuel output (segments.flatMap ('/' :: ·))).length <
      output.length + (segments.flatMap ('/' :: ·)).length := by
  induction segments generalizing fuel output with
  | nil => cases member
  | cons first rest ih =>
    cases fuel with
    | zero => simp [removeDots]
    | succ fuel =>
      have boundary : Boundary (rest.flatMap ('/' :: ·)) := by
        cases rest with
        | nil => exact .inl rfl
        | cons next later => exact .inr rfl
      by_cases plain : PlainSegment first
      · have later : segment ∈ rest := by
          rcases List.mem_cons.mp member with rfl | later
          · rcases dots with rfl | rfl
            · exact absurd rfl plain.2.1
            · exact absurd rfl plain.2.2
          · exact later
        rw [List.flatMap_cons, List.cons_append, removeDots_cons plain boundary]
        refine (ih later (fun other inside => single other (List.mem_cons_of_mem _ inside)) fuel _).trans_eq ?_
        simp only [List.length_append, List.length_cons]
        omega
      · -- the first segment is the dots
        have isDots : first = ['.'] ∨ first = ['.', '.'] := by
          by_contra other
          rw [not_or] at other
          exact plain ⟨single first List.mem_cons_self, other⟩
        have shorter := length_dropLastSegment_le output
        rw [List.flatMap_cons, List.cons_append]
        generalize rest.flatMap ('/' :: ·) = tail at boundary ⊢
        rcases boundary with rfl | slash
        · rcases isDots with rfl | rfl
          · exact (length_removeDots_le fuel output ['/']).trans_lt (by simp)
          · exact (length_removeDots_le fuel (dropLastSegment output) ['/']).trans_lt (by simp; omega)
        · obtain ⟨behind, rfl⟩ := List.head?_eq_some_iff.mp slash
          rcases isDots with rfl | rfl
          · exact (length_removeDots_le fuel output ('/' :: behind)).trans_lt (by simp)
          · exact (length_removeDots_le fuel (dropLastSegment output) ('/' :: behind)).trans_lt (by simp; omega)

theorem cut_front (c : Char) (t : Text) :
    ∃ behind, t = (cut c t).1 ++ behind ∧ (behind = [] ∧ c ∉ t ∨ behind.head? = some c) := by
  unfold cut
  cases found : Text.splitOnce c t with
  | none => exact ⟨[], (List.append_nil t).symm, .inl ⟨rfl, Text.splitOnce_eq_none.mp found⟩⟩
  | some parts => exact ⟨c :: parts.2, (Text.splitOnce_eq_some.mp found).1, .inr rfl⟩

/-- A reference that starts with a slash and is resolved to itself as a path has no authority, no fragment and no dot
segments: each of these makes the path shorter. -/
theorem local_of_resolve_path (base : Reference) {rest : Text} (noQuery : '?' ∉ rest)
    (same : (resolve base (parse ('/' :: rest))).path = '/' :: rest) :
    rest.head? ≠ some '/' ∧ '#' ∉ rest ∧ ∀ part ∈ rest.splitOn '/', part ≠ ['.'] ∧ part ≠ ['.', '.'] := by
  obtain ⟨behind, whole, cutOff⟩ := cut_front '#' ('/' :: rest)
  obtain ⟨front, starts⟩ : ∃ front, (cut '#' ('/' :: rest)).1 = '/' :: front := by
    cases first : (cut '#' ('/' :: rest)).1 with
    | nil => grind
    | cons c front => exact ⟨front, by grind⟩
  rw [starts] at whole
  have noQueryFront : '?' ∉ '/' :: front := by grind
  have dotless (path : Text) : (removeDotSegments path).length ≤ path.length :=
    (length_removeDots_le (path.length + 1) [] path).trans_eq (Nat.zero_add _)
  simp only [parse, starts, cut_eq_self noQueryFront, cutScheme_absolute, cutAuthority] at same
  split at same
  · rename_i after found
    have shorter := Text.stripPrefix_eq_some.mp found
    have path : removeDotSegments (after.dropWhile (· != '/')) = '/' :: rest := same
    have bound := dotless (after.dropWhile (· != '/'))
    have behindHost := (List.dropWhile_suffix (l := after) (· != '/')).length_le
    rw [path] at bound
    grind
  · rename_i single
    have path : removeDotSegments ('/' :: front) = '/' :: rest := same
    have bound := dotless ('/' :: front)
    rw [path, whole, List.length_append] at bound
    obtain rfl : behind = [] := List.eq_nil_of_length_eq_zero (by omega)
    rw [List.append_nil] at whole
    cases whole
    refine ⟨?_, by grind, ?_⟩
    · intro slash
      obtain ⟨after, rfl⟩ := List.head?_eq_some_iff.mp slash
      exact absurd (single.symm.trans (Text.stripPrefix_eq_some.mpr rfl)) nofun
    · intro part member
      by_contra dots
      have short := length_removeDots_lt member (fun segment inside => Text.not_mem_splitOn inside)
        (by simpa only [not_and_or, ne_eq, not_not] using dots) (('/' :: rest).length + 1) []
      rw [flatMap_splitOn] at short
      rw [removeDotSegments] at path
      rw [path, List.length_nil, Nat.zero_add] at short
      exact absurd short (Nat.lt_irrefl _)
example : resolve (parse "http://a/b/c/d;p?q".toList) (parse "../../g".toList) = parse "http://a/g".toList := by
  decide

end Uri
