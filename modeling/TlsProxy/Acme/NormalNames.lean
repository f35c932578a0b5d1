import TlsProxy.Acme.Cache
import TlsProxy.Acme.Challenges

/-! `normalize_domain` of the store and of the challenge registry trim blanks once,
then dots. A blank before the dots comes to stand at the end and is trimmed only
by the next round. -/
namespace TlsProxy.Acme

open Config Text

/-- No blank stands before the dots at the end. -/
def SettledName (domain : Text) : Prop :=
  ∀ c, (trimEndMatches (· == '.') (trim domain)).getLast? = some c → isWhitespace c = false

theorem isWhitespace_of_toLower {c : Char} (solid : isWhitespace c.toLower = false) : isWhitespace c = false := by
  rcases toLower_cases c with ⟨upper, -⟩ | ⟨-, same⟩
  · grind [isWhitespace]
  · rwa [same] at solid

section Normal

variable {domain name : Text} (normal : normalizeDomain domain = .ok name)
include normal

theorem challenge_normalizeDomain : Challenge.normalizeDomain domain = .ok name := by
  unfold normalizeDomain at normal
  dsimp only at normal
  split at normal
  · cases normal
  · rename_i passed
    cases normal
    refine if_neg ?_
    simp only [Bool.or_eq_true, not_or] at passed ⊢
    exact ⟨⟨passed.1.1.1.1, passed.1.1.2⟩, passed.1.2⟩

theorem trimEndMatches_normal : trimEndMatches (· == '.') name = name := by
  rw [eq_of_normalizeDomain normal]
  apply List.rdropWhile_eq_self_iff.mpr
  unfold toAsciiLowercase
  intro nonempty dot
  rw [List.getLast_map, beq_iff_eq] at dot
  exact List.rdropWhile_last_not (· == '.') (trim domain) _ (beq_iff_eq.mpr (eq_of_toLower_eq (by decide) dot))

theorem trim_normal (settled : SettledName domain) : trim name = name := by
  rw [eq_of_normalizeDomain normal]
  refine trim_eq_self_of_ends (fun c first => ?_) fun c last => ?_
  · obtain ⟨front, starts, rfl⟩ := Option.map_eq_some_iff.mp ((List.head?_map ..).symm.trans first)
    obtain ⟨rest, whole⟩ := List.rdropWhile_prefix (· == '.') (trim domain)
    refine isWhitespace_toLower (@solid_head?_trim domain front ?_)
    rw [← whole, List.head?_append]
    exact congrArg (Option.or · rest.head?) starts
  · obtain ⟨back, ends, rfl⟩ := Option.map_eq_some_iff.mp ((List.getLast?_map ..).symm.trans last)
    exact isWhitespace_toLower (settled back ends)

theorem normalizeDomain_again (settled : SettledName domain) : normalizeDomain name = .ok name := by
  have again : toAsciiLowercase (trimEndMatches (· == '.') (trim name)) =
      toAsciiLowercase (trimEndMatches (· == '.') (trim domain)) := by
    rw [trim_normal normal settled, trimEndMatches_normal normal, eq_of_normalizeDomain normal, toAsciiLowercase_idem]
  rw [← normal, normalizeDomain, normalizeDomain, again]

theorem settledName_of_again (again : normalizeDomain name = .ok name) : SettledName domain := by
  intro c last
  have shorter : name.length ≤ (trim name).length := by
    conv_lhs => rw [eq_of_normalizeDomain again]
    rw [toAsciiLowercase, List.length_map]
    exact (List.rdropWhile_prefix _ _).length_le
  have kept : trim name = name := by
    have inside : (trim name).Sublist name :=
      (List.rdropWhile_prefix _ _).sublist.trans (List.dropWhile_suffix _).sublist
    exact inside.eq_of_length_le shorter
  have ends : (trim name).getLast? = some c.toLower := by
    rw [kept, eq_of_normalizeDomain normal, toAsciiLowercase, List.getLast?_map, last]
    rfl
  exact isWhitespace_of_toLower (solid_getLast?_trim ends)

end Normal

/-- A second round changes nothing exactly where no blank stood before the dots at the end. Then what is stored under
the name is found by it; the registry of challenges always has the same name. -/
theorem normal_names_found {domain name : Text} (normal : normalizeDomain domain = .ok name) :
    Challenge.normalizeDomain domain = .ok name ∧ (normalizeDomain name = .ok name ↔ SettledName domain) ∧
      (SettledName domain →
        (∀ store, Certificates.certificateForDomain store name = Certificates.certificateForDomain store domain ∧
          ∀ id, (store .domainIndex)[name]? = some id →
            Certificates.certificateForDomain store name = Certificates.managedCertificate store id) ∧
        (∀ cache, Cache.resolve cache name = Cache.resolve cache domain ∧ Cache.resolve cache name = cache[name]?) ∧
        ∀ {κ : Type} (entries : Challenge.Entries κ) (now : Nat),
          Challenge.resolve entries name now = Challenge.resolve entries domain now ∧
          ∀ entry, entries[name]? = some entry → now < entry.expiresAt →
            Challenge.resolve entries name now = (some entry.certificate, entries)) := by
  refine ⟨challenge_normalizeDomain normal, ⟨settledName_of_again normal, normalizeDomain_again normal⟩, fun settled => ?_⟩
  have again := normalizeDomain_again normal settled
  refine ⟨fun store => ⟨?_, fun id => Certificates.certificateForDomain_of_listed store again⟩, fun cache => ⟨?_, ?_⟩,
    fun entries now => ⟨?_, fun entry stored unexpired => ?_⟩⟩
  · rw [Certificates.certificateForDomain, again, Certificates.certificateForDomain, normal]
  · rw [Cache.resolve, again, Cache.resolve, normal]
  · rw [Cache.resolve, again]
    rfl
  · rw [Challenge.resolve, challenge_normalizeDomain again, Challenge.resolve, challenge_normalizeDomain normal]
  · rw [Challenge.resolve, challenge_normalizeDomain again]
    dsimp only
    rw [stored]
    exact if_neg (Nat.not_le.mpr unexpired)

theorem normal_names_found_upper :
    Challenge.normalizeDomain " Shop.Example. ".toList = .ok "shop.example".toList ∧
      normalizeDomain "shop.example".toList = .ok "shop.example".toList := by
  have normal : normalizeDomain " Shop.Example. ".toList = .ok "shop.example".toList := by decide +kernel
  have settled : SettledName " Shop.Example. ".toList := by
    intro c last
    have ends : (trimEndMatches (· == '.') (trim " Shop.Example. ".toList)).getLast? = some 'e' := by decide +kernel
    cases ends.symm.trans last
    decide
  exact ⟨(normal_names_found normal).1, (normal_names_found normal).2.1.mpr settled⟩

/-- The blank before the dot stays in the name, and goes in the second round. -/
theorem blank_before_dot_kept :
    normalizeDomain "shop.example .".toList = .ok "shop.example ".toList ∧
      normalizeDomain "shop.example ".toList = .ok "shop.example".toList := by
  decide +kernel

end TlsProxy.Acme
