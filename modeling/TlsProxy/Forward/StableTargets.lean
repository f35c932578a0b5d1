import TlsProxy.Config.Legacy
import TlsProxy.Forward.Probed

/-! Addresses pass from one module to another as text and are parsed again at
each stop, with a default port of that stop. -/
namespace TlsProxy.Forward

open Config Config.Legacy Checks

/-- Whoever reads the text again arrives at the address it shows, whatever the default port. -/
def Stable (text : Text) : Prop :=
  ∃ target : HostAndPort, target.display = text ∧ ∀ defaultPort, HostAndPort.parseOrDefault text defaultPort = target

theorem stable_display {target : HostAndPort} (wellFormed : target.WellFormed) : Stable target.display :=
  ⟨target, rfl, fun defaultPort => HostAndPort.parseOrDefault_of_ok (HostAndPort.fromStr_display wellFormed) defaultPort⟩

theorem parseTargets_stable {targets element : Text} {parsed : List Text} (ok : parseTargets targets = .ok parsed)
    (member : element ∈ parsed) : Stable element := by
  obtain ⟨target, -, read⟩ := exists_of_mem_mapM (parseTargets_ok ok).1 member
  obtain ⟨requested, named, -, rfl⟩ := parseTarget_ok read
  exact stable_display (HostAndPort.fromStr_wellFormed named)

theorem parseAuthority_wellFormed {rest : Text} {target : HostAndPort} (filled : rest ≠ [])
    (solid : ∀ c ∈ rest, Text.isWhitespace c = false) (named : parseAuthority rest = some target) :
    target.WellFormed ∧ target.host ⊆ rest := by
  unfold parseAuthority at named
  split at named
  · next read =>
    cases named
    obtain ⟨left, trimmed, part, -⟩ := HostAndPort.fromStr_host read
    exact ⟨HostAndPort.fromStr_wellFormed read, fun c member => part (Text.mem_of_mem_trim (trimmed ▸ member))⟩
  · split at named
    · cases named
    · cases named
      exact ⟨⟨filled, solid, show 80 < UInt16.size by decide⟩, List.Subset.refl _⟩

theorem parseHttpTarget_ok {target parsed : Text} (ok : parseHttpTarget target = .ok parsed) :
    ∃ address : HostAndPort, parsed = address.display ∧ address.WellFormed ∧ address.host ⊆ target := by
  unfold parseHttpTarget at ok
  dsimp only at ok
  split at ok
  · cases ok
  split at ok
  · cases ok
  have part : (Text.stripSuffix ['/'] (target.drop "http://".toList.length)).getD
      (target.drop "http://".toList.length) ⊆ target := by
    refine List.Subset.trans ?_ (List.drop_subset "http://".toList.length target)
    cases stripped : Text.stripSuffix ['/'] (target.drop "http://".toList.length) with
    | none => exact List.Subset.refl _
    | some rest => exact Text.stripSuffix_eq_some.mp stripped ▸ List.subset_append_left rest _
  generalize (Text.stripSuffix ['/'] (target.drop "http://".toList.length)).getD
      (target.drop "http://".toList.length) = rest at ok part
  split at ok
  · cases ok
  rename_i plain
  simp only [Bool.or_eq_true, not_or, List.isEmpty_iff, List.any_eq_true, not_exists, not_and,
    Bool.not_eq_true] at plain
  split at ok
  · cases ok
  rename_i address named
  split at ok
  · cases ok
  · cases ok
    obtain ⟨wellFormed, inside⟩ := parseAuthority_wellFormed plain.1.1 plain.2 named
    exact ⟨address, rfl, wellFormed, List.Subset.trans inside part⟩

def isSeparator (c : Char) : Bool := c == ',' || c == ';'

structure Element (text : Text) : Prop where
  filled : text ≠ []
  solid : ∀ c ∈ text, Text.isWhitespace c = false
  single : ∀ c ∈ text, isSeparator c = false

theorem splitOnP_join {parsed : List Text} (filled : parsed ≠ []) (elements : ∀ element ∈ parsed, Element element) :
    (Text.join [';'] parsed).splitOnP isSeparator = parsed := by
  induction parsed with
  | nil => exact absurd rfl filled
  | cons first rest ih =>
    have single := (elements first List.mem_cons_self).single
    cases rest with
    | nil =>
      rw [Text.join, List.intercalate_singleton]
      exact List.splitOnP_eq_singleton (by simpa using single)
    | cons second others =>
      rw [Text.join_cons_cons, List.singleton_append,
        List.splitOnP_append_cons_of_forall_mem (by simpa using single) _ rfl,
        ih (List.cons_ne_nil _ _) fun element member => elements element (List.mem_cons_of_mem _ member)]

theorem splitTargets_join {parsed : List Text} (filled : parsed ≠ [])
    (elements : ∀ element ∈ parsed, Element element) : splitTargets (Text.join [';'] parsed) = parsed := by
  have trimmed : parsed.map Text.trim = parsed :=
    (List.map_congr_left fun element member => Text.trim_eq_self (elements element member).solid).trans (List.map_id _)
  change (((Text.join [';'] parsed).splitOnP isSeparator).map Text.trim).filter _ = parsed
  rw [splitOnP_join filled elements, trimmed, List.filter_eq_self]
  intro element member
  simpa using (elements element member).filled

theorem element_display {address : HostAndPort} (wellFormed : address.WellFormed)
    (single : ∀ c ∈ address.host, isSeparator c = false) : Element address.display := by
  have port : ∀ c ∈ ':' :: Text.ofNat address.port, Text.isWhitespace c = false ∧ isSeparator c = false := by
    intro c member
    rcases List.mem_cons.mp member with rfl | digit
    · decide
    · have decimal := Text.isDigit_of_mem_ofNat digit
      refine ⟨Text.isWhitespace_of_isDigit decimal, ?_⟩
      by_contra separates
      rw [Bool.not_eq_false, isSeparator, Bool.or_eq_true, beq_iff_eq, beq_iff_eq] at separates
      rcases separates with rfl | rfl <;> cases decimal
  refine ⟨by simp [HostAndPort.display], fun c member => ?_, fun c member => ?_⟩
  · exact (List.mem_append.mp member).elim (wellFormed.host_solid c) fun later => (port c later).1
  · exact (List.mem_append.mp member).elim (single c) fun later => (port c later).2

theorem parseHttpTargets_elements {targets joined : Text} (ok : parseHttpTargets targets = .ok joined) :
    ∃ parsed, joined = Text.join [';'] parsed ∧ parsed ≠ [] ∧ ∀ element ∈ parsed, Element element ∧ Stable element := by
  unfold parseHttpTargets at ok
  obtain ⟨parsed, mapped, rest⟩ := bind_eq_ok.mp ok
  split at rest
  · cases rest
  rename_i filled
  cases rest
  refine ⟨parsed, rfl, by simpa using filled, fun element member => ?_⟩
  obtain ⟨target, listed, read⟩ := exists_of_mem_mapM mapped member
  obtain ⟨address, rfl, wellFormed, inside⟩ := parseHttpTarget_ok read
  refine ⟨element_display wellFormed fun c here => ?_, stable_display wellFormed⟩
  obtain ⟨piece, split, rfl⟩ := List.mem_map.mp (List.mem_filter.mp listed).1
  exact (Text.mem_splitOnP split c (Text.mem_of_mem_trim (inside here))).1

/-- The elements of `parse_http_targets` are those that `parse_targets` finds in its result. -/
theorem target_text_stable :
    (∀ input target, HostAndPort.fromStr input = .ok target →
      (∀ c ∈ target.host, Text.isWhitespace c = false) ∧ HostAndPort.fromStr target.display = .ok target) ∧
    (∀ targets parsed, parseTargets targets = .ok parsed → ∀ element ∈ parsed, Stable element) ∧
    ∀ targets joined, parseHttpTargets targets = .ok joined →
      joined = Text.join [';'] (splitTargets joined) ∧ ∀ element ∈ splitTargets joined, Stable element := by
  refine ⟨fun input target read => ?_, fun targets parsed ok element => parseTargets_stable ok,
    fun targets joined ok => ?_⟩
  · have wellFormed := HostAndPort.fromStr_wellFormed read
    exact ⟨wellFormed.host_solid, HostAndPort.fromStr_display wellFormed⟩
  · obtain ⟨parsed, rfl, filled, elements⟩ := parseHttpTargets_elements ok
    rw [splitTargets_join filled fun element member => (elements element member).1]
    exact ⟨rfl, fun element member => (elements element member).2⟩

theorem target_text_stable_loose :
    HostAndPort.fromStr " a : 0443".toList = .ok ⟨"a".toList, 443⟩ ∧
    HostAndPort.fromStr (HostAndPort.display ⟨"a".toList, 443⟩) = .ok ⟨"a".toList, 443⟩ ∧
    parseTargets "a:1, b|02".toList = .ok ["a:1".toList, "b:2".toList] ∧ Stable "b:2".toList ∧
    parseHttpTargets " http://a:080;;http://b/ ".toList = .ok "a:80;b:80".toList ∧ Stable "b:80".toList := by
  have pair : HostAndPort.fromStr " a : 0443".toList = .ok ⟨"a".toList, 443⟩ := by decide +kernel
  have two : parseTargets "a:1, b|02".toList = .ok ["a:1".toList, "b:2".toList] := by decide +kernel
  have joined : parseHttpTargets " http://a:080;;http://b/ ".toList = .ok "a:80;b:80".toList := by decide +kernel
  obtain ⟨pairs, layer4, http⟩ := target_text_stable
  exact ⟨pair, (pairs _ _ pair).2, two, layer4 _ _ two _ (by simp), joined, (http _ _ joined).2 _ (by decide +kernel)⟩

end TlsProxy.Forward
