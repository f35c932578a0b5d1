import TlsProxy.Config.Names

/-! What it yields is printed as `host:port`, and reads back as the same address. -/
namespace TlsProxy.Config.HostAndPort

structure WellFormed (target : HostAndPort) : Prop where
  host_nonempty : target.host ≠ []
  host_solid : ∀ c ∈ target.host, Text.isWhitespace c = false
  port_fits : target.port < UInt16.size

theorem captures_eq_some_iff {separator : Char} {input host port : Text} :
    captures separator input = some (host, port) ↔
      ∃ left right, Text.rsplitOnce separator input = some (left, right) ∧ Text.trim left = host ∧
        Text.trim right = port ∧ host ≠ [] ∧ (∀ c ∈ host, Text.isWhitespace c = false) ∧ port ≠ [] ∧
        ∀ c ∈ port, Text.isDecimal c = true := by
  unfold captures
  cases Text.rsplitOnce separator input with
  | none => simp
  | some parts =>
    obtain ⟨left, right⟩ := parts
    simp only [Option.ite_none_right_eq_some, Bool.and_eq_true, Bool.not_eq_true', List.isEmpty_eq_false_iff,
      List.any_eq_false, Bool.not_eq_true, List.all_eq_true, Option.some.injEq, Prod.mk.injEq]
    grind

theorem keyCaptures_eq_some {input host port : Text} (matched : keyCaptures input = some (host, port)) :
    host ≠ [] ∧ (∀ c ∈ host, Text.isWhitespace c = false) ∧
      ∃ left right digits, keyword "host".toList input = some (left ++ ',' :: right) ∧ ',' ∉ right ∧
        keyword "port".toList right = some digits ∧ (∀ c ∈ Text.trim digits, Text.isDecimal c = true) ∧
        Text.trim left = host := by
  unfold keyCaptures at matched
  split at matched
  · cases matched
  · rename_i left right split
    obtain ⟨rest, host, parts⟩ := Option.bind_eq_some_iff.mp split
    obtain ⟨rfl, absent⟩ := Text.rsplitOnce_eq_some.mp parts
    split at matched
    · cases matched
    · rename_i digits port
      simp only [Option.ite_none_right_eq_some, Bool.and_eq_true, Bool.not_eq_true', List.isEmpty_eq_false_iff,
        List.any_eq_false, Bool.not_eq_true, List.all_eq_true, Option.some.injEq, Prod.mk.injEq] at matched
      obtain ⟨⟨⟨⟨nonempty, solid⟩, -⟩, decimal⟩, rfl, rfl⟩ := matched
      exact ⟨nonempty, solid, left, right, digits, host, absent, port, decimal, rfl⟩

theorem fromStr_wellFormed {input : Text} {target : HostAndPort} (parsed : fromStr input = .ok target) :
    target.WellFormed := by
  unfold fromStr at parsed
  split at parsed
  · rename_i host digits matched
    split at parsed
    · rename_i port read
      cases parsed
      have solid : host ≠ [] ∧ ∀ c ∈ host, Text.isWhitespace c = false := by
        simp only [Option.orElse_eq_orElse, Option.orElse_eq_or, Option.or_eq_some_iff] at matched
        have plain : ∀ {separator}, captures separator input = some (host, digits) →
            host ≠ [] ∧ ∀ c ∈ host, Text.isWhitespace c = false := by
          intro separator found
          obtain ⟨_, _, -, -, -, nonempty, solid, -⟩ := captures_eq_some_iff.mp found
          exact ⟨nonempty, solid⟩
        grind [keyCaptures_eq_some]
      exact ⟨solid.1, solid.2, Text.fromStrRadix_lt (by decide) read⟩
    · cases parsed
  · cases parsed

/-- Two suffixes of one text that begin with different characters, where the shorter one lacks the character of
the longer one. -/
theorem cons_suffix_of_absent {c d : Char} {a b t : Text} (left : c :: a <:+ t) (right : d :: b <:+ t)
    (absent : d ∉ c :: a) : c :: a <:+ b := by
  rcases List.suffix_or_suffix_of_suffix left right with inside | outside
  · rcases List.suffix_cons_iff.mp inside with same | within
    · grind
    · exact within
  · exact absurd (outside.subset List.mem_cons_self) absent

theorem keyword_suffix {word input rest : Text} (matched : keyword word input = some rest) :
    '=' :: rest <:+ input := by
  unfold keyword at matched
  simp only at matched
  split at matched
  · split at matched
    · rename_i equals
      grind [Text.trimStartMatches, List.dropWhile_suffix, List.drop_suffix]
    · cases matched
  · cases matched

theorem not_mem_printed {c : Char} (other : c ≠ ':') (text : c.isDigit = false) (port : Nat) :
    c ∉ ':' :: Text.ofNat port := by grind [Text.isDigit_of_mem_ofNat]

/-- The pattern with keywords wants nothing but digits after its last equals sign; a printed address has a colon
there. -/
theorem keyCaptures_display (target : HostAndPort) : keyCaptures target.display = none := by
  rw [Option.eq_none_iff_forall_not_mem]
  rintro ⟨host, port⟩ matched
  obtain ⟨-, -, left, right, digits, named, -, numbered, decimal, -⟩ := keyCaptures_eq_some matched
  have printed : ':' :: Text.ofNat target.port <:+ target.display := List.suffix_append _ _
  have inHost : ',' :: right <:+ target.display :=
    ((List.suffix_append left _).trans (List.suffix_cons '=' _)).trans (keyword_suffix named)
  have inRight := cons_suffix_of_absent printed inHost (not_mem_printed (by decide) rfl _)
  have inDigits := cons_suffix_of_absent inRight (keyword_suffix numbered) (not_mem_printed (by decide) rfl _)
  have colon : ':' ∈ Text.trim digits := Text.mem_trim (inDigits.subset List.mem_cons_self) rfl
  exact absurd (decimal ':' colon) (by decide)

theorem captures_display {target : HostAndPort} (wellFormed : target.WellFormed) :
    captures ':' target.display = some (target.host, Text.ofNat target.port) := by
  have solid : ∀ c ∈ Text.ofNat target.port, Text.isWhitespace c = false := by
    intro c member
    exact Text.isWhitespace_of_isDigit (Text.isDigit_of_mem_ofNat member)
  have colon : ':' ∉ Text.ofNat target.port := by
    intro member
    exact absurd (Text.isDigit_of_mem_ofNat member) (by decide)
  rw [captures_eq_some_iff]
  exact ⟨target.host, Text.ofNat target.port, Text.rsplitOnce_eq_some.mpr ⟨rfl, colon⟩,
    Text.trim_eq_self wellFormed.host_solid, Text.trim_eq_self solid, wellFormed.host_nonempty,
    wellFormed.host_solid, Nat.toDigits_ne_nil, fun c member => Text.isDecimal_of_isDigit (Text.isDigit_of_mem_ofNat member)⟩

theorem fromStr_display {target : HostAndPort} (wellFormed : target.WellFormed) :
    fromStr target.display = .ok target := by
  have read : Text.parseU16 (Text.ofNat target.port) = some target.port :=
    Text.fromStrRadix_ofNat wellFormed.port_fits
  simp only [fromStr, keyCaptures_display, captures_display wellFormed, Option.orElse_eq_orElse,
    Option.orElse_eq_or, Option.none_or, Option.some_or, read]

theorem parseOrDefault_of_ok {input : Text} {target : HostAndPort} (parsed : fromStr input = .ok target)
    (defaultPort : Nat) : parseOrDefault input defaultPort = target := by
  simp only [parseOrDefault, parsed]

theorem parseOrDefault_display {input : Text} {target : HostAndPort} (parsed : fromStr input = .ok target)
    (defaultPort : Nat) : parseOrDefault target.display defaultPort = target :=
  parseOrDefault_of_ok (fromStr_display (fromStr_wellFormed parsed)) defaultPort

theorem mem_keyword {word input rest : Text} (matched : keyword word input = some rest) {c : Char} (member : c ∈ input)
    (solid : Text.isWhitespace c = false) (different : c ≠ '=') (absent : fold c ∉ word) : c ∈ rest := by
  unfold keyword at matched
  simp only at matched
  split at matched
  · rename_i named
    split at matched
    · rename_i equals
      cases matched
      have inside : c ∈ Text.trimStartMatches Text.isWhitespace input := Text.mem_dropWhile member solid
      rw [← List.take_append_drop word.length (Text.trimStartMatches _ input), List.mem_append] at inside
      rcases inside with letter | after
      · grind
      · have later := @Text.mem_dropWhile Text.isWhitespace _ _ after solid
        rw [show List.dropWhile Text.isWhitespace _ = '=' :: rest from equals] at later
        grind
    · cases matched
  · cases matched

/-- The host is a part of the input, trimmed, and the slashes of the input are all in it. -/
theorem fromStr_host {input : Text} {target : HostAndPort} (parsed : fromStr input = .ok target) :
    ∃ left, Text.trim left = target.host ∧ left ⊆ input ∧ ('/' ∈ input → '/' ∈ left) := by
  have notDigit : ∀ {digits : Text}, (∀ c ∈ Text.trim digits, Text.isDecimal c = true) → '/' ∉ digits := by
    intro digits decimal member
    exact absurd (decimal '/' (Text.mem_trim member rfl)) (by decide)
  unfold fromStr at parsed
  split at parsed
  · rename_i host digits matched
    split at parsed
    · cases parsed
      simp only [Option.orElse_eq_orElse, Option.orElse_eq_or, Option.or_eq_some_iff] at matched
      have plain : ∀ {separator}, separator ≠ '/' → captures separator input = some (host, digits) →
          ∃ left, Text.trim left = host ∧ left ⊆ input ∧ ('/' ∈ input → '/' ∈ left) := by
        intro separator other found
        obtain ⟨left, right, parts, trimmed, port, -, -, -, decimal⟩ := captures_eq_some_iff.mp found
        obtain ⟨rfl, -⟩ := Text.rsplitOnce_eq_some.mp parts
        refine ⟨left, trimmed, List.subset_append_left _ _, fun member => ?_⟩
        rw [← port] at decimal
        grind
      rcases matched with keyed | ⟨-, colon | ⟨-, at_ | ⟨-, pipe⟩⟩⟩
      · obtain ⟨-, -, left, right, digits, named, -, numbered, decimal, trimmed⟩ := keyCaptures_eq_some keyed
        refine ⟨left, trimmed, ?_, fun member => ?_⟩
        · intro c member
          exact (keyword_suffix named).subset (List.mem_cons_of_mem _ (List.mem_append_left _ member))
        · rcases List.mem_append.mp (mem_keyword named member rfl (by decide) (by decide)) with inLeft | later
          · exact inLeft
          · have inRight := (List.mem_cons.mp later).resolve_left (by decide)
            exact (notDigit decimal (mem_keyword numbered inRight rfl (by decide) (by decide))).elim
      · exact plain (by decide) colon
      · exact plain (by decide) at_
      · exact plain (by decide) pipe
    · cases parsed
  · cases parsed

end TlsProxy.Config.HostAndPort
