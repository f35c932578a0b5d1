import TlsProxy.Config.HostMatch

/-! Route scores are the same for all spellings of a host; the fallback policy
compares the host as it was sent. -/
namespace TlsProxy.Config
open Text

/-- The other text is the host up to ASCII case, with dots added at its end. -/
def Respelled (host other : Text) : Prop :=
  ∃ dots, toAsciiLowercase other = toAsciiLowercase host ++ List.replicate dots '.'

/-- The pattern engine does not see ASCII case. -/
def FoldsCase (isMatch : Regex → Text → Bool) : Prop :=
  ∀ pattern a b, toAsciiLowercase a = toAsciiLowercase b → isMatch pattern a = isMatch pattern b

theorem lower_beq_dot (c : Char) : (c.toLower == '.') = (c == '.') := by
  by_cases dot : c = '.'
  · rw [dot]
    decide
  · have other : c.toLower ≠ '.' := fun lowered => dot (eq_of_toLower_eq (by decide) lowered)
    simp [dot, other]

theorem trimDots_lower (t : Text) : toAsciiLowercase (trimDots t) = trimDots (toAsciiLowercase t) := by
  have sameDots : (fun c : Char => c == '.') ∘ Char.toLower = fun c => c == '.' := funext lower_beq_dot
  unfold trimDots trimEndMatches toAsciiLowercase List.rdropWhile
  rw [← List.map_reverse, List.dropWhile_map, sameDots, List.map_reverse]

theorem trimDots_append_dots (t : Text) (dots : Nat) : trimDots (t ++ List.replicate dots '.') = trimDots t := by
  induction dots with
  | zero => simp
  | succ n ih =>
    rw [List.replicate_succ', ← List.append_assoc]
    grind [trimDots, trimEndMatches, List.rdropWhile_concat_pos]

theorem Respelled.trimmed {host other : Text} (spelling : Respelled host other) :
    toAsciiLowercase (trimDots other) = toAsciiLowercase (trimDots host) := by
  obtain ⟨dots, lower⟩ := spelling
  rw [trimDots_lower, lower, trimDots_append_dots, ← trimDots_lower]

theorem byteLen_lower (t : Text) : byteLen (toAsciiLowercase t) = byteLen t := by
  induction t with
  | nil => rfl
  | cons c rest ih =>
    have size : (String.utf8EncodeChar c.toLower).length = (String.utf8EncodeChar c).length := by
      grind [toLower_cases, Utf8.encodeChar_ascii]
    grind [byteLen, toAsciiLowercase, Utf8.encode_cons]

theorem contains_dot_lower (t : Text) : (toAsciiLowercase t).contains '.' = t.contains '.' := by
  induction t with
  | nil => rfl
  | cons c rest ih => grind [toAsciiLowercase, lower_beq_dot]

section SameCase

variable {a b : Text} (same : toAsciiLowercase a = toAsciiLowercase b)
include same

theorem length_eq_of_lower : a.length = b.length := by
  simpa [toAsciiLowercase] using congrArg List.length same

theorem byteLen_eq_of_lower : byteLen a = byteLen b := by
  rw [← byteLen_lower a, same, byteLen_lower]

theorem eqIgnoreAsciiCase_of_lower (entry : Text) : eqIgnoreAsciiCase a entry = eqIgnoreAsciiCase b entry := by
  simp only [eqIgnoreAsciiCase, same]

theorem getElem_dot_of_lower (i : Nat) : (a[i]? == some '.') = (b[i]? == some '.') := by
  have lowered : (a[i]?).map Char.toLower = (b[i]?).map Char.toLower := by
    rw [← List.getElem?_map, ← List.getElem?_map]
    exact congrArg (·[i]?) same
  cases atA : a[i]? with
  | none => grind
  | some c =>
    rw [atA] at lowered
    obtain ⟨d, atB, equal⟩ := Option.map_eq_some_iff.mp lowered.symm
    grind [lower_beq_dot]

theorem oneLabelDeeper_of_lower (suffix : Text) : oneLabelDeeper a suffix = oneLabelDeeper b suffix := by
  have length := length_eq_of_lower same
  have dropped : ∀ n, toAsciiLowercase (a.drop n) = toAsciiLowercase (b.drop n) := by
    grind [toAsciiLowercase, List.map_drop]
  have front : ∀ n, (a.take n).contains '.' = (b.take n).contains '.' := by
    intro n
    rw [← contains_dot_lower (a.take n), ← contains_dot_lower (b.take n)]
    grind [toAsciiLowercase, List.map_take]
  simp only [oneLabelDeeper, length, getElem_dot_of_lower same, eqIgnoreAsciiCase, dropped, front]

theorem suffixScore_of_lower (entry : Text) : suffixScore a entry = suffixScore b entry := by
  simp only [suffixScore, eqIgnoreAsciiCase_of_lower same, oneLabelDeeper_of_lower same]

end SameCase

section Spellings

variable {isMatch : Regex → Text → Bool} (folds : FoldsCase isMatch) {host other : Text}
include folds

theorem matchScore_respelled (spelling : Respelled host other) (matcher : HostMatcher) :
    matchScore isMatch matcher other = matchScore isMatch matcher host := by
  have trimmed := spelling.trimmed
  have patterns : ∀ pattern, isMatch pattern (trimDots other) = isMatch pattern (trimDots host) :=
    fun pattern => folds pattern _ _ trimmed
  have scores : suffixScore (trimDots other) = suffixScore (trimDots host) :=
    funext fun entry => suffixScore_of_lower trimmed entry
  simp only [matchScore, eqIgnoreAsciiCase_of_lower trimmed, byteLen_eq_of_lower trimmed, scores, patterns]

theorem bestHostRoute_respelled {ρ : Type} (spelling : Respelled host other) (matcher : ρ → HostMatcher)
    (routes : List ρ) : bestHostRoute isMatch matcher routes other = bestHostRoute isMatch matcher routes host := by
  simp only [bestHostRoute, matchScore_respelled folds spelling]

def Rules.covers (rules : Rules) (isMatch : Regex → Text → Bool) (host : Text) : Bool :=
  rules.staticHosts.any (eqIgnoreAsciiCase host) || rules.patterns.any (isMatch · host)

/-- The rules list or match the host with every number of dots at its end, or with none. -/
def SteadyFallback (isMatch : Regex → Text → Bool) (rules : Rules) (host : Text) : Prop :=
  (∀ dots, rules.covers isMatch (host ++ List.replicate dots '.') = true) ∨
    ∀ dots, rules.covers isMatch (host ++ List.replicate dots '.') = false

omit folds in
theorem respelled_dots (host : Text) (dots : Nat) : Respelled host (host ++ List.replicate dots '.') :=
  ⟨dots, by simp [toAsciiLowercase]⟩

theorem covers_of_lower (rules : Rules) (same : toAsciiLowercase other = toAsciiLowercase host) :
    rules.covers isMatch other = rules.covers isMatch host := by
  have patterns : ∀ pattern, isMatch pattern other = isMatch pattern host := fun pattern => folds pattern _ _ same
  have listed : eqIgnoreAsciiCase other = eqIgnoreAsciiCase host := funext (eqIgnoreAsciiCase_of_lower same)
  simp only [Rules.covers, patterns, listed]

omit folds in
theorem admitted_eq_iff (policy : Policy) (rules : Rules) :
    admitted isMatch policy rules other = admitted isMatch policy rules host ↔
      rules.covers isMatch other = rules.covers isMatch host := by
  cases policy with
  | allow => exact Iff.rfl
  | deny => exact Bool.not_inj_iff

/-- All spellings of a host get the same answer exactly when a route matches it or the fallback rules are steady. -/
theorem selectAction_respelled_iff {ρ α : Type} (matcher : ρ → HostMatcher) (routes : List ρ) (rules : Rules)
    (action : ρ → α) (policy : Policy) (defaultRoute : α) :
    (∀ other, Respelled host other → selectAction isMatch matcher action routes policy rules defaultRoute other =
        selectAction isMatch matcher action routes policy rules defaultRoute host) ↔
      (∃ route ∈ routes, (matchScore isMatch (matcher route) host).isSome) ∨ SteadyFallback isMatch rules host := by
  cases best : bestHostRoute isMatch matcher routes host with
  | some route =>
    refine iff_of_true (fun other spelling => ?_) (.inl ?_)
    · simp only [selectAction, bestHostRoute_respelled folds spelling, best]
    · obtain ⟨score, chosen⟩ := (bestHostRoute_eq_some_iff isMatch matcher).mp best
      obtain ⟨member, scored⟩ := chosen.mem
      exact ⟨route, member, Option.isSome_of_eq_some scored⟩
  | none =>
    have unmatched := (bestHostRoute_eq_none_iff isMatch matcher).mp best
    have answer {other : Text} (spelling : Respelled host other) :
        selectAction isMatch matcher action routes policy rules defaultRoute other =
            selectAction isMatch matcher action routes policy rules defaultRoute host ↔
          rules.covers isMatch other = rules.covers isMatch host := by
      rw [← admitted_eq_iff policy rules]
      simp only [selectAction, bestHostRoute_respelled folds spelling, best]
      cases admitted isMatch policy rules other <;> cases admitted isMatch policy rules host <;> simp
    constructor
    · intro alike
      have same (dots : Nat) := (answer (respelled_dots host dots)).mp (alike _ (respelled_dots host dots))
      cases covered : rules.covers isMatch host with
      | true => exact .inr (.inl fun dots => (same dots).trans covered)
      | false => exact .inr (.inr fun dots => (same dots).trans covered)
    · rintro (⟨route, member, found⟩ | steady) other spelling
      · rw [unmatched route member] at found
        cases found
      · obtain ⟨dots, lower⟩ := spelling
        have spelled : toAsciiLowercase other = toAsciiLowercase (host ++ List.replicate dots '.') := by
          rw [lower]
          simp [toAsciiLowercase]
        refine (answer ⟨dots, lower⟩).mpr ?_
        rw [covers_of_lower folds rules spelled]
        rcases steady with all | none
        · exact (all dots).trans (by simpa using (all 0).symm)
        · exact (none dots).trans (by simpa using (none 0).symm)

end Spellings

def wholeText (pattern : Regex) (text : Text) : Bool := eqIgnoreAsciiCase pattern.asStr text

theorem wholeText_folds : FoldsCase wholeText := by
  intro pattern a b same
  simp only [wholeText, eqIgnoreAsciiCase, same]

end TlsProxy.Config
