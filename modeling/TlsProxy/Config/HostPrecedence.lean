import TlsProxy.Config.Respelling

/-! `match_score` tests suffixes by byte positions, where a position inside a
character is a panic. The route that `best_host_route` returns is the first with
the best match: exact, then the longest suffix, then a pattern. -/
namespace TlsProxy.Config
open Text

/-- The test of `match_score` on bytes: the byte before the suffix, the slice behind it, the slice in front of it. A
panic is `none`. -/
def oneLabelDeeperBytes (host suffix : Text) : Option Bool :=
  if byteLen suffix < byteLen host then
    ((Utf8.encode host)[byteLen host - byteLen suffix - 1]?).bind fun byte =>
      if byte = 46 then
        (Utf8.sliceFrom host (byteLen host - byteLen suffix)).bind fun tail =>
          if eqIgnoreAsciiCase tail suffix then
            (Utf8.sliceTo host (byteLen host - byteLen suffix - 1)).map fun label => !label.contains '.'
          else some false
      else some false
  else some false

theorem oneLabelDeeper_iff {host suffix : Text} :
    oneLabelDeeper host suffix = true ↔
      ∃ label tail, host = label ++ '.' :: tail ∧ eqIgnoreAsciiCase tail suffix = true ∧ '.' ∉ label := by
  simp only [oneLabelDeeper, Bool.and_eq_true, decide_eq_true_eq, beq_iff_eq, Bool.not_eq_true',
    List.contains_eq_mem, decide_eq_false_iff_not]
  constructor
  · rintro ⟨⟨⟨longer, dot⟩, same⟩, single⟩
    obtain ⟨i, start⟩ : ∃ i, host.length - suffix.length = i + 1 := Nat.exists_eq_add_one.mpr (Nat.sub_pos_of_lt longer)
    grind [List.getElem_cons_drop, List.take_append_drop]
  · rintro ⟨label, tail, rfl, same, single⟩
    have length : tail.length = suffix.length := length_eq_of_lower (eqIgnoreAsciiCase_iff.mp same)
    have start : (label ++ '.' :: tail).length - suffix.length = label.length + 1 := by grind
    have longer : (label ++ '.' :: tail).length > suffix.length := by omega
    rw [start, Nat.add_sub_cancel, List.take_left, List.getElem?_append_right (Nat.le_refl _), Nat.sub_self]
    have dropped : (label ++ '.' :: tail).drop (label.length + 1) = tail := by simp
    grind

theorem encode_split (label tail : Text) :
    Utf8.encode (label ++ '.' :: tail) = Utf8.encode label ++ 46 :: Utf8.encode tail := by
  grind [String.utf8EncodeChar, Utf8.encode_append, Utf8.encode_cons]

theorem byteLen_split (label tail : Text) : byteLen (label ++ '.' :: tail) = byteLen label + (byteLen tail + 1) := by
  grind [byteLen, encode_split]

section Split

variable {label tail suffix : Text}

theorem dot_of_split (label : Text) (length : byteLen tail = byteLen suffix) :
    byteLen suffix < byteLen (label ++ '.' :: tail) ∧
      byteLen (label ++ '.' :: tail) - byteLen suffix = byteLen label + 1 ∧
      (Utf8.encode (label ++ '.' :: tail))[byteLen label]? = some 46 := by
  have whole := byteLen_split label tail
  refine ⟨by omega, by omega, ?_⟩
  rw [encode_split, byteLen, List.getElem?_append_right (Nat.le_refl _), Nat.sub_self]
  rfl

theorem oneLabelDeeperBytes_split (length : byteLen tail = byteLen suffix) :
    oneLabelDeeperBytes (label ++ '.' :: tail) suffix =
      some (eqIgnoreAsciiCase tail suffix && !label.contains '.') := by
  obtain ⟨longer, start, byte⟩ := dot_of_split label length
  have after : Utf8.sliceFrom (label ++ '.' :: tail) (byteLen label + 1) = some tail := by
    have dotted := Utf8.sliceFrom_append (label ++ ['.']) tail
    rw [List.append_assoc, List.singleton_append, encode_split, List.length_append] at dotted
    exact dotted
  have before : Utf8.sliceTo (label ++ '.' :: tail) (byteLen label) = some label := Utf8.sliceTo_append label ('.' :: tail)
  grind [oneLabelDeeperBytes]

theorem oneLabelDeeper_split (length : byteLen tail = byteLen suffix) :
    oneLabelDeeper (label ++ '.' :: tail) suffix = (eqIgnoreAsciiCase tail suffix && !label.contains '.') := by
  rw [Bool.eq_iff_iff, oneLabelDeeper_iff]
  simp only [Bool.and_eq_true, Bool.not_eq_true', List.contains_eq_mem, decide_eq_false_iff_not]
  constructor
  · rintro ⟨other, rest, whole, same, single⟩
    have sameLength : byteLen rest = byteLen suffix := byteLen_eq_of_lower (eqIgnoreAsciiCase_iff.mp same)
    have sameStart : byteLen other = byteLen label := by grind [byteLen_split]
    have sameLabel : some label = some other := by
      rw [← Utf8.sliceTo_append label ('.' :: tail), ← Utf8.sliceTo_append other ('.' :: rest), whole]
      exact congrArg _ sameStart.symm
    grind [List.append_cancel_left]
  · grind

end Split

/-- The test on bytes does not panic: it slices at a dot only, which is a whole character. -/
theorem oneLabelDeeperBytes_eq (host suffix : Text) :
    oneLabelDeeperBytes host suffix = some (oneLabelDeeper host suffix) := by
  by_cases dotted : byteLen suffix < byteLen host ∧ (Utf8.encode host)[byteLen host - byteLen suffix - 1]? = some 46
  · obtain ⟨longer, dot⟩ := dotted
    obtain ⟨label, tail, rfl, before⟩ := Utf8.split_at_ascii (c := '.') (by decide) dot
    have whole := byteLen_split label tail
    grind [byteLen, oneLabelDeeperBytes_split, oneLabelDeeper_split]
  · have shallow : oneLabelDeeper host suffix = false := by
      rw [Bool.eq_false_iff]
      intro deeper
      obtain ⟨label, tail, rfl, same, -⟩ := oneLabelDeeper_iff.mp deeper
      obtain ⟨longer, start, dot⟩ := dot_of_split label (byteLen_eq_of_lower (eqIgnoreAsciiCase_iff.mp same))
      grind
    rw [shallow]
    unfold oneLabelDeeperBytes
    split
    · rename_i longer
      grind [byteLen]
    · rfl

def normalSuffix (entry : Text) : Text := trimDots (trimStartMatches (· == '.') (trim entry))

section Bytes

variable (isMatch : Regex → Text → Bool)

def suffixScoreBytes (host entry : Text) : Option (Option Nat) :=
  (oneLabelDeeperBytes host (normalSuffix entry)).map fun deeper =>
    if eqIgnoreAsciiCase host (normalSuffix entry) || deeper then some (byteLen (normalSuffix entry)) else none

def matchScoreBytes (matcher : HostMatcher) (host : Text) : Option (Option (ℕ ×ₗ ℕ)) :=
  if matcher.exact.any fun entry => eqIgnoreAsciiCase (trimDots host) (trimDots entry) then
    some (some (toLex (3, byteLen (trimDots host))))
  else
    (matcher.suffix.mapM (suffixScoreBytes (trimDots host))).map fun scores =>
      match (scores.filterMap id).max? with
      | some length => some (toLex (2, length))
      | none => if matcher.patterns.any (isMatch · (trimDots host)) then some (toLex (1, 0)) else none

def bestHostRouteBytes {ρ : Type} (matcher : ρ → HostMatcher) (routes : List ρ) (host : Text) : Option (Option ρ) :=
  (routes.foldlM (fun best route => (matchScoreBytes isMatch (matcher route) host).map fun score =>
    Select.keep (fun score current => current < score) (fun _ => score) best route) none).map (·.map Prod.fst)

theorem suffixScoreBytes_eq (host entry : Text) : suffixScoreBytes host entry = some (suffixScore host entry) := by
  rw [suffixScoreBytes, oneLabelDeeperBytes_eq]
  rfl

theorem matchScoreBytes_eq (matcher : HostMatcher) (host : Text) :
    matchScoreBytes isMatch matcher host = some (matchScore isMatch matcher host) := by
  have scores : matcher.suffix.mapM (suffixScoreBytes (trimDots host)) =
      some (matcher.suffix.map (suffixScore (trimDots host))) := by
    have pointwise : suffixScoreBytes (trimDots host) = fun entry => pure (suffixScore (trimDots host) entry) :=
      funext fun entry => suffixScoreBytes_eq (trimDots host) entry
    rw [pointwise, List.mapM_pure]
    rfl
  rw [matchScoreBytes, matchScore, scores, Option.map_some, List.filterMap_map]
  split <;> rfl

theorem bestHostRouteBytes_eq {ρ : Type} (matcher : ρ → HostMatcher) (routes : List ρ) (host : Text) :
    bestHostRouteBytes isMatch matcher routes host = some (bestHostRoute isMatch matcher routes host) := by
  have run : ∀ best, routes.foldlM (fun best route => (matchScoreBytes isMatch (matcher route) host).map fun score =>
      Select.keep (fun score current => current < score) (fun _ => score) best route) best =
        some (routes.foldl (Select.keep (fun score current => current < score)
          (fun route => matchScore isMatch (matcher route) host)) best) := by
    induction routes with
    | nil => exact fun best => rfl
    | cons route rest ih =>
      intro best
      rw [List.foldlM_cons, matchScoreBytes_eq, List.foldl_cons]
      exact ih _
  rw [bestHostRouteBytes, run, Option.map_some]
  rfl

end Bytes

inductive HostMatch
  | pattern
  | suffix (length : Nat)
  | exact

namespace HostMatch

inductive Better : HostMatch → HostMatch → Prop
  | exactSuffix (length : Nat) : Better exact (suffix length)
  | exactPattern : Better exact pattern
  | longer {length shorter : Nat} (more : shorter < length) : Better (suffix length) (suffix shorter)
  | suffixPattern (length : Nat) : Better (suffix length) pattern

def score (host : Text) : HostMatch → ℕ ×ₗ ℕ
  | pattern => toLex (1, 0)
  | suffix length => toLex (2, length)
  | exact => toLex (3, byteLen (trimDots host))

theorem better_iff (host : Text) {a b : HostMatch} : Better a b ↔ score host b < score host a := by
  constructor
  · intro better
    cases better <;> simp [score, Prod.Lex.toLex_lt_toLex, *]
  · intro less
    cases a with
    | pattern => cases b <;> simp [score, Prod.Lex.toLex_lt_toLex] at less
    | suffix length =>
      cases b with
      | pattern => exact .suffixPattern length
      | suffix shorter => exact .longer (by simpa [score, Prod.Lex.toLex_lt_toLex] using less)
      | exact => simp [score, Prod.Lex.toLex_lt_toLex] at less
    | exact =>
      cases b with
      | pattern => exact .exactPattern
      | suffix length => exact .exactSuffix length
      | exact => simp [score] at less

end HostMatch

/-- The host is the suffix, or one label and a dot in front of it, without regard to ASCII case and trailing dots. -/
def SuffixMatches (suffix host : Text) : Prop :=
  eqIgnoreAsciiCase (trimDots host) suffix = true ∨
    ∃ label, label ≠ [] ∧ '.' ∉ label ∧ eqIgnoreAsciiCase (trimDots host) (label ++ '.' :: suffix) = true

/-- The host is a dot and one of the suffixes, so that the label in front of the suffix is empty. -/
def EmptyLabel (matcher : HostMatcher) (host : Text) : Prop :=
  ∃ entry ∈ matcher.suffix, eqIgnoreAsciiCase (trimDots host) ('.' :: normalSuffix entry) = true

instance (matcher : HostMatcher) (host : Text) : Decidable (EmptyLabel matcher host) :=
  inferInstanceAs (Decidable (∃ entry ∈ matcher.suffix, _))

section Precedence

variable (isMatch : Regex → Text → Bool)

inductive Matched (matcher : HostMatcher) (host : Text) : HostMatch → Prop
  | exact {entry : Text} (member : entry ∈ matcher.exact)
      (same : eqIgnoreAsciiCase (trimDots host) (trimDots entry) = true) : Matched matcher host .exact
  | suffix {entry : Text} (member : entry ∈ matcher.suffix) (found : SuffixMatches (normalSuffix entry) host) :
      Matched matcher host (.suffix (byteLen (normalSuffix entry)))
  | pattern {pattern : Regex} (member : pattern ∈ matcher.patterns) (found : isMatch pattern (trimDots host) = true) :
      Matched matcher host .pattern

/-- The route matches better than every route before it, and none matches better than it does. -/
def Preferred {ρ : Type} (matcher : ρ → HostMatcher) (routes : List ρ) (host : Text) (route : ρ) : Prop :=
  ∃ before after best, routes = before ++ route :: after ∧ Matched isMatch (matcher route) host best ∧
    (∀ other ∈ before, ∀ way, Matched isMatch (matcher other) host way → best.Better way) ∧
    ∀ other ∈ route :: after, ∀ way, Matched isMatch (matcher other) host way → ¬ way.Better best

end Precedence

theorem lower_eq_split {host label suffix : Text} :
    toAsciiLowercase host = toAsciiLowercase (label ++ '.' :: suffix) ↔
      ∃ before after, host = before ++ '.' :: after ∧ toAsciiLowercase before = toAsciiLowercase label ∧
        toAsciiLowercase after = toAsciiLowercase suffix := by
  have lowered : ∀ a b : Text, toAsciiLowercase (a ++ '.' :: b) = toAsciiLowercase a ++ '.' :: toAsciiLowercase b := by
    grind [toAsciiLowercase]
  rw [lowered]
  constructor
  · intro same
    obtain ⟨before, rest, rfl, sameLabel, behind⟩ := List.map_eq_append_iff.mp same
    obtain ⟨c, after, rfl, dot, sameSuffix⟩ := List.map_eq_cons_iff.mp behind
    obtain rfl := eq_of_toLower_eq (by decide) dot
    exact ⟨before, after, rfl, sameLabel, sameSuffix⟩
  · grind

theorem dot_mem_lower {t : Text} : '.' ∈ toAsciiLowercase t ↔ '.' ∈ t := mem_toAsciiLowercase (by decide) (by decide)

theorem oneLabelDeeper_iff_label {host suffix : Text} (named : eqIgnoreAsciiCase host ('.' :: suffix) ≠ true) :
    oneLabelDeeper host suffix = true ↔
      ∃ label, label ≠ [] ∧ '.' ∉ label ∧ eqIgnoreAsciiCase host (label ++ '.' :: suffix) = true := by
  simp only [oneLabelDeeper_iff, eqIgnoreAsciiCase_iff, lower_eq_split]
  constructor
  · rintro ⟨label, tail, whole, same, single⟩
    refine ⟨label, ?_, single, label, tail, whole, rfl, same⟩
    rintro rfl
    exact named (eqIgnoreAsciiCase_iff.mpr (lower_eq_split.mpr ⟨[], tail, whole, rfl, same⟩))
  · grind [dot_mem_lower]

/-- With an empty label the code finds the suffix, and by the rule it does not match. -/
theorem suffix_found_of_emptyLabel {host suffix : Text} (unnamed : eqIgnoreAsciiCase (trimDots host) ('.' :: suffix) = true) :
    oneLabelDeeper (trimDots host) suffix = true ∧ ¬ SuffixMatches suffix host := by
  have same := eqIgnoreAsciiCase_iff.mp unnamed
  have length := length_eq_of_lower same
  constructor
  · obtain ⟨before, after, whole, none, tail⟩ := (@lower_eq_split (trimDots host) [] suffix).mp same
    obtain rfl : before = [] := List.map_eq_nil_iff.mp none
    exact oneLabelDeeper_iff.mpr ⟨[], after, whole, eqIgnoreAsciiCase_iff.mpr tail, List.not_mem_nil⟩
  · rintro (exact_ | ⟨label, filled, -, deeper⟩)
    · have short := length_eq_of_lower (eqIgnoreAsciiCase_iff.mp exact_)
      rw [length, List.length_cons] at short
      omega
    · have long := length_eq_of_lower (eqIgnoreAsciiCase_iff.mp deeper)
      have positive := List.length_pos_iff.mpr filled
      rw [length, List.length_append, List.length_cons] at long
      omega

theorem suffixScore_isSome_iff (host entry : Text) :
    (suffixScore host entry).isSome ↔
      eqIgnoreAsciiCase host (normalSuffix entry) = true ∨ oneLabelDeeper host (normalSuffix entry) = true := by
  rw [← Bool.or_eq_true]
  exact Option.isSome_ite

theorem suffixScore_eq_some_iff {host entry : Text} {length : Nat}
    (named : eqIgnoreAsciiCase (trimDots host) ('.' :: normalSuffix entry) ≠ true) :
    suffixScore (trimDots host) entry = some length ↔
      SuffixMatches (normalSuffix entry) host ∧ byteLen (normalSuffix entry) = length := by
  have matching : SuffixMatches (normalSuffix entry) host ↔
      (eqIgnoreAsciiCase (trimDots host) (normalSuffix entry) || oneLabelDeeper (trimDots host) (normalSuffix entry)) =
        true := by
    rw [Bool.or_eq_true, oneLabelDeeper_iff_label named, SuffixMatches]
  rw [matching]
  change (if _ then some (byteLen (normalSuffix entry)) else none) = some length ↔ _
  rw [Option.ite_none_right_eq_some, Option.some.injEq]
  rfl

section Scores

variable {isMatch : Regex → Text → Bool} {matcher : HostMatcher} {host : Text}

theorem matched_exact_iff :
    Matched isMatch matcher host .exact ↔
      (matcher.exact.any fun entry => eqIgnoreAsciiCase (trimDots host) (trimDots entry)) = true := by
  rw [List.any_eq_true]
  constructor
  · intro found
    cases found with
    | exact member same => exact ⟨_, member, same⟩
  · rintro ⟨entry, member, same⟩
    exact .exact member same

theorem matched_suffix_iff (named : ¬ EmptyLabel matcher host) {length : Nat} :
    Matched isMatch matcher host (.suffix length) ↔ length ∈ matcher.suffix.filterMap (suffixScore (trimDots host)) := by
  have scored {entry : Text} (member : entry ∈ matcher.suffix) : suffixScore (trimDots host) entry = some length ↔ _ :=
    suffixScore_eq_some_iff fun unnamed => named ⟨entry, member, unnamed⟩
  rw [List.mem_filterMap]
  constructor
  · intro found
    cases found with
    | suffix member found => exact ⟨_, member, (scored member).mpr ⟨found, rfl⟩⟩
  · rintro ⟨entry, member, found⟩
    obtain ⟨matching, rfl⟩ := (scored member).mp found
    exact .suffix member matching

theorem matched_pattern_iff :
    Matched isMatch matcher host .pattern ↔ (matcher.patterns.any (isMatch · (trimDots host))) = true := by
  rw [List.any_eq_true]
  constructor
  · intro found
    cases found with
    | pattern member found => exact ⟨_, member, found⟩
  · rintro ⟨pattern, member, found⟩
    exact .pattern member found

theorem matchScore_spec (isMatch : Regex → Text → Bool) (matcher : HostMatcher) (named : ¬ EmptyLabel matcher host) :
    (matchScore isMatch matcher host = none ∧ ∀ way, ¬ Matched isMatch matcher host way) ∨
      ∃ best, matchScore isMatch matcher host = some (best.score host) ∧ Matched isMatch matcher host best ∧
        ∀ way, Matched isMatch matcher host way → ¬ way.Better best := by
  have suffixes : ∀ length, Matched isMatch matcher host (.suffix length) ↔
      length ∈ matcher.suffix.filterMap (suffixScore (trimDots host)) := fun length => matched_suffix_iff named
  unfold matchScore
  dsimp only
  split
  · rename_i listed
    exact .inr ⟨.exact, rfl, matched_exact_iff.mpr listed, fun way _ better => by cases better⟩
  · rename_i unlisted
    have notExact : ¬ Matched isMatch matcher host .exact := fun found => unlisted (matched_exact_iff.mp found)
    split
    · rename_i length longest
      obtain ⟨member, most⟩ := List.max?_eq_some_iff.mp longest
      refine .inr ⟨.suffix length, rfl, (suffixes length).mpr member, fun way found better => ?_⟩
      cases better with
      | exactSuffix => exact notExact found
      | longer more => grind
    · rename_i none_
      have noSuffix : ∀ length, ¬ Matched isMatch matcher host (.suffix length) := by grind
      split
      · rename_i patterned
        refine .inr ⟨.pattern, rfl, matched_pattern_iff.mpr patterned, fun way found better => ?_⟩
        cases better with
        | exactPattern => exact notExact found
        | suffixPattern length => exact noSuffix length found
      · rename_i unpatterned
        refine .inl ⟨rfl, fun way found => ?_⟩
        cases way with
        | pattern => exact unpatterned (matched_pattern_iff.mp found)
        | suffix length => exact noSuffix length found
        | exact => exact notExact found

theorem matchScore_eq_none_iff (named : ¬ EmptyLabel matcher host) :
    matchScore isMatch matcher host = none ↔ ∀ way, ¬ Matched isMatch matcher host way := by
  rcases matchScore_spec isMatch matcher named with ⟨unscored, unmatched⟩ | ⟨best, scored, found, -⟩
  · exact iff_of_true unscored unmatched
  · grind

/-- A matcher scores below a match exactly when the match is better than all of its own. -/
theorem scores_below_iff (named : ¬ EmptyLabel matcher host) {best : HostMatch} :
    (∀ score, matchScore isMatch matcher host = some score → score < best.score host) ↔
      ∀ way, Matched isMatch matcher host way → best.Better way := by
  rcases matchScore_spec isMatch matcher named with ⟨unscored, unmatched⟩ | ⟨own, scored, found, most⟩
  · grind
  · simp only [scored, Option.some.injEq, forall_eq']
    constructor
    · grind [HostMatch.better_iff]
    · grind [HostMatch.better_iff]

theorem not_scores_above_iff (named : ¬ EmptyLabel matcher host) {best : HostMatch} :
    (∀ score, matchScore isMatch matcher host = some score → ¬ best.score host < score) ↔
      ∀ way, Matched isMatch matcher host way → ¬ way.Better best := by
  rcases matchScore_spec isMatch matcher named with ⟨unscored, unmatched⟩ | ⟨own, scored, found, most⟩
  · grind
  · simp only [scored, Option.some.injEq, forall_eq']
    constructor
    · grind [HostMatch.better_iff]
    · grind [HostMatch.better_iff]

theorem bestRoute_iff_preferred {ρ : Type} {matcher : ρ → HostMatcher} {routes : List ρ}
    (named : ∀ route ∈ routes, ¬ EmptyLabel (matcher route) host) {route : ρ} :
    BestRoute isMatch matcher routes host route ↔ Preferred isMatch matcher routes host route := by
  constructor
  · rintro ⟨score, before, after, rfl, scored, ahead, behind⟩
    obtain ⟨first, own, later⟩ := List.forall_mem_append.mp named |>.imp_right List.forall_mem_cons.mp
    dsimp only at scored
    rcases matchScore_spec isMatch (matcher route) own with ⟨unscored, -⟩ | ⟨best, best_eq, found, most⟩
    · rw [unscored] at scored
      cases scored
    · obtain rfl := Option.some.inj (scored.symm.trans best_eq)
      refine ⟨before, after, best, rfl, found,
        fun other member => (scores_below_iff (first other member)).mp (ahead other member), ?_⟩
      exact List.forall_mem_cons.mpr
        ⟨most, fun other member => (not_scores_above_iff (later other member)).mp (behind other member)⟩
  · rintro ⟨before, after, best, rfl, found, ahead, behind⟩
    obtain ⟨first, own, rest⟩ := List.forall_mem_append.mp named |>.imp_right List.forall_mem_cons.mp
    obtain ⟨most, later⟩ := List.forall_mem_cons.mp behind
    refine ⟨best.score host, before, after, rfl, ?_,
      fun other member => (scores_below_iff (first other member)).mpr (ahead other member),
      fun other member => (not_scores_above_iff (rest other member)).mpr (later other member)⟩
    rcases matchScore_spec isMatch (matcher route) own with ⟨-, unmatched⟩ | ⟨own, scored, owned, top⟩
    · exact absurd found (unmatched best)
    · -- two best matches of one matcher have the same score
      grind [HostMatch.better_iff]

end Scores

/-- Selection follows the rule: suffixes match as they should, the route is the first among those that match best, and
there is none exactly when nothing matches. -/
structure Precedence (isMatch : Regex → Text → Bool) {ρ : Type} (matcher : ρ → HostMatcher) (routes : List ρ)
    (host : Text) : Prop where
  suffixes : ∀ route ∈ routes, ∀ entry ∈ (matcher route).suffix,
    (suffixScore (trimDots host) entry).isSome ↔ SuffixMatches (normalSuffix entry) host
  best : ∀ route, bestHostRoute isMatch matcher routes host = some route ↔ Preferred isMatch matcher routes host route
  none : bestHostRoute isMatch matcher routes host = none ↔
    ∀ route ∈ routes, ∀ way, ¬ Matched isMatch (matcher route) host way

/-- Selection never panics, and it follows the rule exactly when the host is not a dot and a suffix of a route. -/
theorem host_route_precedence (isMatch : Regex → Text → Bool) {ρ : Type} (matcher : ρ → HostMatcher) (routes : List ρ)
    (host : Text) :
    bestHostRouteBytes isMatch matcher routes host = some (bestHostRoute isMatch matcher routes host) ∧
      (Precedence isMatch matcher routes host ↔ ∀ route ∈ routes, ¬ EmptyLabel (matcher route) host) := by
  refine ⟨bestHostRouteBytes_eq isMatch matcher routes host, fun rule route member => ?_, fun named => ?_⟩
  · rintro ⟨entry, listed, unnamed⟩
    obtain ⟨found, unmatched⟩ := suffix_found_of_emptyLabel unnamed
    exact unmatched ((rule.suffixes route member entry listed).mp ((suffixScore_isSome_iff _ _).mpr (.inr found)))
  · refine ⟨fun route member entry listed => ?_, fun route => ?_, ?_⟩
    · rw [suffixScore_isSome_iff, SuffixMatches,
        oneLabelDeeper_iff_label fun unnamed => named route member ⟨entry, listed, unnamed⟩]
    · rw [bestHostRoute_eq_some_iff, bestRoute_iff_preferred named]
    · rw [bestHostRoute_eq_none_iff]
      exact forall₂_congr fun route member => matchScore_eq_none_iff (named route member)

section Example

def tieredRoutes : List HostMatcher :=
  [{ patterns := [⟨".".toList⟩] }, { suffix := [" .example.com".toList] }, { suffix := ["deep.example.com.".toList] },
    { suffix := ["DEEP.example.com".toList] }]

theorem host_route_precedence_deep :
    bestHostRouteBytes (fun _ _ => true) id tieredRoutes "b\u00fccher.deep.example.com.".toList =
        some (some { suffix := ["deep.example.com.".toList] }) ∧
      Preferred (fun _ _ => true) id tieredRoutes "b\u00fccher.deep.example.com.".toList
        { suffix := ["deep.example.com.".toList] } := by
  have spec := host_route_precedence (fun _ _ => true) id tieredRoutes "b\u00fccher.deep.example.com.".toList
  have selected : bestHostRoute (fun _ _ => true) id tieredRoutes "b\u00fccher.deep.example.com.".toList =
      some { suffix := ["deep.example.com.".toList] } := by rfl
  have named : ∀ route ∈ tieredRoutes, ¬ EmptyLabel route "b\u00fccher.deep.example.com.".toList := by decide +kernel
  exact ⟨spec.1.trans (congrArg some selected), ((spec.2.mpr named).best _).mp selected⟩

/-- A suffix also matches a host with an empty label in front of it. -/
theorem suffix_matches_empty_label :
    bestHostRoute (fun _ _ => false) id [{ suffix := ["example.com".toList] }] ".example.com".toList =
        some { suffix := ["example.com".toList] } ∧
      ∀ way, ¬ Matched (fun _ _ => false) { suffix := ["example.com".toList] } ".example.com".toList way := by
  refine ⟨rfl, fun way found => ?_⟩
  cases found with
  | exact member same => cases member
  | pattern member found => cases member
  | suffix member found =>
    obtain rfl := List.mem_singleton.mp member
    have host : trimDots ".example.com".toList = ".example.com".toList := by decide
    have suffix : normalSuffix "example.com".toList = "example.com".toList := by decide
    rw [SuffixMatches, host, suffix] at found
    rcases found with same | ⟨label, filled, -, same⟩
    · exact absurd same (by decide)
    · -- the lengths leave no room for a label
      have length := length_eq_of_lower (eqIgnoreAsciiCase_iff.mp same)
      rw [List.length_append] at length
      grind

end Example

end TlsProxy.Config
