import TlsProxy.Store.Certificates
import Mathlib.Data.List.Infix

/-! `certificate_blocks` of `acme/client.rs` scans a text line by line. A
generation keeps the first block and the joined rest, and `fullchain_pem` puts
them together again with other blanks between them. -/
namespace TlsProxy.Acme

open Text Certificates Checks

def beginCertificate : Text := "-----BEGIN CERTIFICATE-----".toList

def endCertificate : Text := "-----END CERTIFICATE-----".toList

structure BlockScan where
  blocks : List Text := []
  current : List Text := []
  inside : Bool := false

def blockText (block : List Text) : Text := join ['\n'] block ++ ['\n']

def BlockScan.line (s : BlockScan) (line : Text) : BlockScan :=
  let s := if trim line = beginCertificate then { s with current := [], inside := true } else s
  let s := if s.inside then { s with current := s.current ++ [line] } else s
  if s.inside && trim line == endCertificate then
    { blocks := s.blocks ++ [blockText s.current], current := [], inside := false }
  else s

def certificateBlocks (pem : Text) : List Text := ((lines pem).foldl BlockScan.line {}).blocks

structure X509 where
  fromPem : Text → Except Text (List UInt8)
  /-- The two ends of the validity, when the certificate parses. -/
  validity : List UInt8 → Except Text (OffsetDateTime × OffsetDateTime)
  issuedBy : List UInt8 → List UInt8 → Bool
  verifySignature : List UInt8 → List UInt8 → Except Text Unit
  fingerprint : List UInt8 → Text

def X509.validateIssuerChain (x : X509) (blocks : List Text) : Except Text Unit := do
  let parsed ← blocks.mapM fun pem => do
    let der ← x.fromPem pem
    let _ ← x.validity der
    return der
  (parsed.zip parsed.tail).forM fun pair =>
    if !x.issuedBy pair.1 pair.2 then throw "issued certificate chain is not ordered by issuer".toList
    else x.verifySignature pair.1 pair.2

def X509.generationFromPem (x : X509) (newId : Text) (now : OffsetDateTime)
    (certificateId fullchainPem privateKeyPem : Text) : Except Text CertificateGeneration := do
  let blocks := certificateBlocks fullchainPem
  match blocks with
  | [] => throw "ACME response contained no certificate".toList
  | certificatePem :: rest =>
    let der ← x.fromPem certificatePem
    let (notBefore, notAfter) ← x.validity der
    x.validateIssuerChain blocks
    return {
      id := newId
      certificateId := certificateId
      certificatePem := certificatePem
      chainPem := join ['\n'] rest
      privateKeyPem := privateKeyPem
      fingerprintSha256 := x.fingerprint der
      notBefore := some notBefore
      notAfter := some notAfter
      issuedAt := some now }

def fullchainPem (generation : CertificateGeneration) : Text :=
  let value := trimEndMatches isWhitespace generation.certificatePem
  let value :=
    if !(trim generation.chainPem).isEmpty then value ++ '\n' :: trim generation.chainPem else value
  value ++ ['\n']

/-- The lines up to the end of a block that is open; a new beginning or the end of the text leaves none. -/
def close (current : List Text) : List Text → Option (List Text)
  | [] => none
  | line :: rest =>
    if trim line = beginCertificate then none
    else if trim line = endCertificate then some (current ++ [line])
    else close (current ++ [line]) rest

def terminated : List Text → Option (List Text)
  | [] => none
  | first :: rest => if trim first = beginCertificate then close [first] rest else none

abbrev Blocks := List (List Text) × Option (List Text)

def Blocks.line (s : Blocks) (line : Text) : Blocks :=
  if trim line = beginCertificate then (s.1, some [line])
  else
    match s.2 with
    | none => s
    | some current =>
      if trim line = endCertificate then (s.1 ++ [current ++ [line]], none) else (s.1, some (current ++ [line]))

theorem begin_ne_end : beginCertificate ≠ endCertificate := by decide

theorem line_begin {line : Text} (starts : trim line = beginCertificate) (s : Blocks) :
    s.line line = (s.1, some [line]) := if_pos starts

theorem line_end {line : Text} (ends : trim line = endCertificate) (done : List (List Text)) (current : List Text) :
    Blocks.line (done, some current) line = (done ++ [current ++ [line]], none) := by
  rw [Blocks.line, if_neg fun starts => begin_ne_end (starts.symm.trans ends)]
  exact if_pos ends

theorem line_plain {line : Text} (starts : trim line ≠ beginCertificate) (ends : trim line ≠ endCertificate)
    (done : List (List Text)) (current : Option (List Text)) :
    Blocks.line (done, current) line = (done, current.map (· ++ [line])) := by
  cases current with
  | none => exact if_neg starts
  | some current => exact (if_neg starts).trans (if_neg ends)

theorem foldl_blockScan (blocks : Blocks) (text : List Text) :
    (text.foldl BlockScan.line ⟨blocks.1.map blockText, blocks.2.getD [], blocks.2.isSome⟩).blocks =
      (text.foldl Blocks.line blocks).1.map blockText := by
  induction text generalizing blocks with
  | nil => rfl
  | cons line rest ih =>
    rw [List.foldl_cons, List.foldl_cons, ← ih]
    congr 1
    congr 1
    obtain ⟨done, _ | current⟩ := blocks
    · by_cases starts : trim line = beginCertificate
      · simp [BlockScan.line, Blocks.line, starts, begin_ne_end]
      · simp [BlockScan.line, Blocks.line, starts]
    · by_cases starts : trim line = beginCertificate
      · simp [BlockScan.line, Blocks.line, starts, begin_ne_end]
      · by_cases ends : trim line = endCertificate
        · simp [BlockScan.line, Blocks.line, ends, Ne.symm begin_ne_end]
        · simp [BlockScan.line, Blocks.line, starts, ends]

def scan (text : List Text) : Blocks := text.foldl Blocks.line ([], none)

theorem certificateBlocks_eq (pem : Text) : certificateBlocks pem = (scan (lines pem)).1.map blockText :=
  foldl_blockScan ([], none) (lines pem)

theorem filterMap_terminated_cons (line : Text) (rest : List Text) :
    (line :: rest).tails.filterMap terminated =
      (terminated (line :: rest)).toList ++ rest.tails.filterMap terminated := by
  change ((line :: rest) :: rest.tails).filterMap terminated = _
  rw [List.filterMap_cons]
  cases terminated (line :: rest) with
  | none => rfl
  | some block => rfl

/-- The blocks found in the lines are the open one, if it closes, and those that begin in the lines. -/
theorem foldl_line (blocks : Blocks) (text : List Text) :
    (text.foldl Blocks.line blocks).1 =
      blocks.1 ++ ((blocks.2.bind fun current => close current text).toList ++ text.tails.filterMap terminated) := by
  induction text generalizing blocks with
  | nil => obtain ⟨done, _ | current⟩ := blocks <;> simp [close, terminated]
  | cons line rest ih =>
    rw [List.foldl_cons, ih, filterMap_terminated_cons]
    obtain ⟨done, _ | current⟩ := blocks
    · by_cases starts : trim line = beginCertificate
      · simp [Blocks.line, terminated, starts]
      · simp [Blocks.line, terminated, starts]
    · by_cases starts : trim line = beginCertificate
      · simp [Blocks.line, terminated, close, starts]
      · by_cases ends : trim line = endCertificate
        · simp [Blocks.line, terminated, close, ends, Ne.symm begin_ne_end]
        · simp [Blocks.line, terminated, close, starts, ends]

def trimmed (t : Text) : List Text := (t.splitOn '\n').map trim

theorem trimmed_append (a b : Text) : trimmed (a ++ '\n' :: b) = trimmed a ++ trimmed b := by
  rw [trimmed, List.splitOn, List.splitOnP_append_cons a b (by simp), List.map_append]
  rfl

theorem trimmed_single {t : Text} (single : '\n' ∉ t) : trimmed t = [trim t] := by
  rw [trimmed, List.splitOn_eq_singleton single]
  rfl

theorem trimmed_concat {c : Char} (blank : isWhitespace c = true) (other : c ≠ '\n') (t : Text) :
    trimmed (t ++ [c]) = trimmed t := by
  by_cases single : '\n' ∈ t
  · obtain ⟨a, b, rfl, last⟩ : ∃ a b, t = a ++ '\n' :: b ∧ '\n' ∉ b := by
      cases parts : rsplitOnce '\n' t with
      | none => exact absurd single (rsplitOnce_eq_none.mp parts)
      | some ends => exact ⟨ends.1, ends.2, rsplitOnce_eq_some.mp parts⟩
    have longer : '\n' ∉ b ++ [c] := by simp [last, other.symm]
    rw [List.append_assoc, List.cons_append, trimmed_append, trimmed_append, trimmed_single last,
      trimmed_single longer, trim_append_whitespace blank]
  · rw [trimmed_single single, trimmed_single (by simp [single, other.symm]), trim_append_whitespace blank]

theorem trimmed_cons {c : Char} (blank : isWhitespace c = true) (other : c ≠ '\n') (t : Text) :
    trimmed (c :: t) = trimmed t := by
  by_cases single : '\n' ∈ t
  · obtain ⟨a, b, rfl, first⟩ := List.eq_append_cons_of_mem single
    have longer : '\n' ∉ c :: a := by simp [first, other.symm]
    rw [← List.cons_append, trimmed_append, trimmed_append, trimmed_single first, trimmed_single longer,
      trim_cons_whitespace blank]
  · rw [trimmed_single single, trimmed_single (by simp [single, other.symm]), trim_cons_whitespace blank]

/-- A text whose lines, seen without the blanks at their ends, are these finished blocks and nothing open. -/
def Holds (t : Text) (blocks : List (List Text)) : Prop :=
  ∀ before, (trimmed t).foldl Blocks.line (before, none) = (before ++ blocks, none)

theorem Holds.append {a b : Text} {first second : List (List Text)} (left : Holds a first) (right : Holds b second) :
    Holds (a ++ '\n' :: b) (first ++ second) := by
  intro before
  rw [trimmed_append, List.foldl_append, left, right, List.append_assoc]

theorem line_nil (s : Blocks) : s.line [] = (s.1, s.2.map (· ++ [[]])) :=
  line_plain (by decide) (by decide) s.1 s.2

theorem holds_concat {c : Char} (blank : isWhitespace c = true) {t : Text} {blocks : List (List Text)} :
    Holds (t ++ [c]) blocks ↔ Holds t blocks := by
  by_cases newline : c = '\n'
  · have lines : trimmed (t ++ [c]) = trimmed t ++ [[]] := newline ▸ trimmed_append t []
    refine forall_congr' fun before => ?_
    rw [lines, List.foldl_append, List.foldl_cons, List.foldl_nil, line_nil, Prod.ext_iff, Prod.ext_iff]
    simp only [Option.map_eq_none_iff]
  · rw [Holds, trimmed_concat blank newline, Holds]

theorem holds_cons {c : Char} (blank : isWhitespace c = true) {t : Text} {blocks : List (List Text)} :
    Holds (c :: t) blocks ↔ Holds t blocks := by
  by_cases newline : c = '\n'
  · have lines : trimmed (c :: t) = [] :: trimmed t := newline ▸ trimmed_append [] t
    refine forall_congr' fun before => ?_
    rw [lines, List.foldl_cons, line_nil]
    rfl
  · rw [Holds, trimmed_cons blank newline, Holds]

theorem holds_trimEnd {t : Text} {blocks : List (List Text)} :
    Holds (trimEndMatches isWhitespace t) blocks ↔ Holds t blocks := by
  induction t using List.reverseRecOn with
  | nil => rfl
  | append_singleton t c ih =>
    by_cases blank : isWhitespace c = true
    · rw [trimEndMatches, List.rdropWhile_concat_pos _ _ _ blank, holds_concat blank]
      exact ih
    · rw [trimEndMatches, List.rdropWhile_concat_neg _ _ _ blank]

theorem holds_trim {t : Text} {blocks : List (List Text)} : Holds (trim t) blocks ↔ Holds t blocks := by
  rw [trim, holds_trimEnd, trimStartMatches]
  induction t with
  | nil => rfl
  | cons c t ih =>
    by_cases blank : isWhitespace c = true
    · rw [List.dropWhile_cons_of_pos blank, holds_cons blank, ih]
    · rw [List.dropWhile_cons_of_neg blank]

/-- The lines of a terminated block: two markers and none between them. -/
structure Block (block : List Text) : Prop where
  shape : ∃ first body last, block = first :: (body ++ [last]) ∧ trim first = beginCertificate ∧
    trim last = endCertificate ∧ ∀ line ∈ body, trim line ≠ beginCertificate ∧ trim line ≠ endCertificate
  single : ∀ line ∈ block, '\n' ∉ line

theorem close_shape {current text block : List Text} (closes : close current text = some block) :
    ∃ body last, block = current ++ (body ++ [last]) ∧ trim last = endCertificate ∧ body ++ [last] ⊆ text ∧
      ∀ line ∈ body, trim line ≠ beginCertificate ∧ trim line ≠ endCertificate := by
  induction text generalizing current with
  | nil => cases closes
  | cons line rest ih =>
    rw [close] at closes
    split at closes
    · cases closes
    · next other =>
      split at closes
      · next ends =>
        cases closes
        exact ⟨[], line, rfl, ends, by simp, nofun⟩
      · next goes =>
        obtain ⟨body, last, rfl, ends, part, plain⟩ := ih closes
        refine ⟨line :: body, last, by simp, ends, ?_, ?_⟩
        · exact List.cons_subset_cons line part
        · simpa using ⟨⟨other, goes⟩, plain⟩

theorem block_of_mem {text block : List Text} (single : ∀ line ∈ text, '\n' ∉ line)
    (member : block ∈ text.tails.filterMap terminated) : Block block := by
  obtain ⟨tail, listed, found⟩ := List.mem_filterMap.mp member
  have part : tail <:+ text := (List.mem_tails _ _).mp listed
  cases tail with
  | nil => cases found
  | cons first rest =>
    rw [terminated] at found
    split at found
    · next starts =>
      obtain ⟨body, last, rfl, ends, inside, plain⟩ := close_shape found
      refine ⟨⟨first, body, last, rfl, starts, ends, plain⟩, fun line here => single line (part.subset ?_)⟩
      rcases List.mem_cons.mp here with rfl | later
      · exact List.mem_cons_self
      · exact List.mem_cons_of_mem _ (inside later)
    · cases found

theorem foldl_body {body : List Text} (plain : ∀ line ∈ body, trim line ≠ beginCertificate ∧ trim line ≠ endCertificate)
    (before : List (List Text)) (current : List Text) :
    (body.map trim).foldl Blocks.line (before, some current) = (before, some (current ++ body.map trim)) := by
  induction body generalizing current with
  | nil => simp
  | cons line rest ih =>
    obtain ⟨starts, ends⟩ := plain line List.mem_cons_self
    rw [← trim_trim line] at starts ends
    rw [List.map_cons, List.foldl_cons, line_plain starts ends, Option.map_some,
      ih (fun other member => plain other (List.mem_cons_of_mem _ member)), List.append_assoc]
    rfl

theorem join_concat_nil {block : List Text} (filled : block ≠ []) : join ['\n'] (block ++ [[]]) = blockText block := by
  induction block with
  | nil => exact absurd rfl filled
  | cons first rest ih =>
    cases rest with
    | nil => simp [blockText, join, List.intercalate]
    | cons second others =>
      rw [List.cons_append, List.cons_append, join_cons_cons, ← List.cons_append, ih (List.cons_ne_nil _ _), blockText,
        blockText, join_cons_cons, List.append_assoc, List.append_assoc]

theorem splitOn_blockText {block : List Text} (is : Block block) : (blockText block).splitOn '\n' = block ++ [[]] := by
  have filled : block ≠ [] := by
    obtain ⟨⟨first, body, last, rfl, -⟩, -⟩ := is
    exact List.cons_ne_nil _ _
  rw [← join_concat_nil filled]
  refine List.splitOn_intercalate '\n' (fun line member => ?_) (by simp)
  rcases List.mem_append.mp member with inside | empty
  · exact is.single line inside
  · rw [List.mem_singleton.mp empty]
    exact List.not_mem_nil

theorem holds_blockText {block : List Text} (is : Block block) : Holds (blockText block) [block.map trim] := by
  intro before
  rw [trimmed, splitOn_blockText is]
  obtain ⟨⟨first, body, last, rfl, starts, ends, plain⟩, -⟩ := is
  rw [← trim_trim] at starts ends
  simp only [List.map_append, List.map_cons, List.map_nil, List.foldl_append, List.foldl_cons, List.foldl_nil,
    List.cons_append, line_begin starts, foldl_body plain, line_end ends]
  rw [show trim ([] : Text) = [] from rfl, line_nil]
  rfl

theorem holds_nil : Holds [] [] := by
  intro before
  rw [List.append_nil, trimmed_single List.not_mem_nil, List.foldl_cons, List.foldl_nil]
  exact line_nil (before, none)

theorem holds_join {blocks : List (List Text)} (each : ∀ block ∈ blocks, Block block) :
    Holds (join ['\n'] (blocks.map blockText)) (blocks.map (List.map trim)) := by
  induction blocks with
  | nil => exact holds_nil
  | cons first rest ih =>
    have left := holds_blockText (each first List.mem_cons_self)
    have right := ih fun block member => each block (List.mem_cons_of_mem _ member)
    cases rest with
    | nil => simpa [join, List.intercalate_singleton] using left
    | cons second others =>
      rw [List.map_cons, List.map_cons, join_cons_cons]
      exact left.append right

theorem holds_fullchainPem {first : List Text} {rest : List (List Text)} (is : Block first)
    (each : ∀ block ∈ rest, Block block) {generation : CertificateGeneration}
    (certificate : generation.certificatePem = blockText first)
    (chain : generation.chainPem = join ['\n'] (rest.map blockText)) :
    Holds (fullchainPem generation) ((first :: rest).map (List.map trim)) := by
  have left := holds_trimEnd.mpr (holds_blockText is)
  have right := holds_trim.mpr (holds_join each)
  rw [← certificate] at left
  rw [← chain] at right
  refine (holds_concat (by decide)).mpr ?_
  split
  · exact left.append right
  · next empty =>
    rw [Bool.not_eq_true, Bool.not_eq_false', List.isEmpty_iff] at empty
    have none : rest.map (List.map trim) = [] := by
      rw [empty] at right
      have same := (right []).symm.trans (holds_nil [])
      exact congrArg Prod.fst same
    rw [List.map_cons, none]
    exact left

theorem trim_stripCr (line : Text) : trim (stripCr line) = trim line := by
  unfold stripCr
  cases found : stripSuffix ['\r'] line with
  | none => rfl
  | some rest => rw [stripSuffix_eq_some.mp found, Option.getD_some, trim_append_whitespace (by decide)]

theorem trimmed_eq (t : Text) : trimmed t = (lines t).map trim ∨ trimmed t = (lines t).map trim ++ [[]] := by
  obtain ⟨front, last, parts⟩ : ∃ front last, t.splitOn '\n' = front ++ [last] :=
    ⟨_, _, (List.dropLast_concat_getLast (List.splitOnP_ne_nil _ t)).symm⟩
  have begun : (front.map stripCr).map trim = front.map trim := by
    rw [List.map_map]
    exact List.map_congr_left fun line _ => trim_stripCr line
  cases last with
  | nil =>
    refine .inr ?_
    rw [trimmed, lines, parts]
    simp only [List.map_append, List.dropLast_concat, List.getLast?_concat, Option.toList_some, List.filter_cons,
      List.isEmpty_nil, Bool.not_true, Bool.false_eq_true, if_false, List.filter_nil, List.append_nil, begun]
    rfl
  | cons c more =>
    refine .inl ?_
    rw [trimmed, lines, parts]
    simp [begun]

theorem line_trim (s : Blocks) (line : Text) :
    Blocks.line (s.1.map (List.map trim), s.2.map (List.map trim)) (trim line) =
      ((s.line line).1.map (List.map trim), (s.line line).2.map (List.map trim)) := by
  obtain ⟨done, current⟩ := s
  by_cases starts : trim line = beginCertificate
  · rw [line_begin starts, line_begin ((trim_trim line).trans starts)]
    rfl
  by_cases ends : trim line = endCertificate
  · cases current with
    | none => simp [Blocks.line, starts, trim_trim]
    | some current =>
      rw [line_end ends, Option.map_some, line_end ((trim_trim line).trans ends)]
      simp
  · rw [line_plain starts ends, line_plain (by rwa [trim_trim]) (by rwa [trim_trim])]
    cases current <;> simp

theorem foldl_map_trim (s : Blocks) (text : List Text) :
    (text.map trim).foldl Blocks.line (s.1.map (List.map trim), s.2.map (List.map trim)) =
      ((text.foldl Blocks.line s).1.map (List.map trim), (text.foldl Blocks.line s).2.map (List.map trim)) := by
  induction text generalizing s with
  | nil => rfl
  | cons line rest ih => rw [List.map_cons, List.foldl_cons, List.foldl_cons, line_trim, ih]

theorem scan_lines {t : Text} {blocks : List (List Text)} (holds : Holds t blocks) :
    (scan (lines t)).1.map (List.map trim) = blocks := by
  have whole := congrArg Prod.fst (holds [])
  have same := congrArg Prod.fst (foldl_map_trim ([], none) (lines t))
  rcases trimmed_eq t with equal | longer
  · rw [equal] at whole
    exact same.symm.trans whole
  · rw [longer, List.foldl_append, List.foldl_cons, List.foldl_nil, line_nil] at whole
    exact same.symm.trans whole

theorem scan_eq (text : List Text) : (scan text).1 = text.tails.filterMap terminated := foldl_line ([], none) text

theorem scan_block {t : Text} {block : List Text} (member : block ∈ (scan (lines t)).1) : Block block := by
  refine block_of_mem (fun line listed => ?_) (scan_eq _ ▸ member)
  rcases List.mem_append.mp listed with inner | last
  · obtain ⟨part, here, rfl⟩ := List.mem_map.mp inner
    exact fun newline => not_mem_splitOn (List.dropLast_subset _ here) (mem_of_mem_stripCr newline)
  · have here := (List.mem_filter.mp last).1
    exact not_mem_splitOn (List.mem_of_getLast? (Option.mem_toList.mp here))

def shape (block : Text) : List Text := (lines block).map trim

theorem shape_blockText {block : List Text} (is : Block block) : shape (blockText block) = block.map trim := by
  rw [shape, lines, splitOn_blockText is]
  simp only [List.dropLast_concat, List.getLast?_concat, Option.toList_some, List.filter_cons, List.isEmpty_nil,
    Bool.not_true, Bool.false_eq_true, if_false, List.filter_nil, List.append_nil, List.map_map]
  exact List.map_congr_left fun line _ => trim_stripCr line

theorem map_shape_certificateBlocks (pem : Text) :
    (certificateBlocks pem).map shape = (scan (lines pem)).1.map (List.map trim) := by
  rw [certificateBlocks_eq, List.map_map]
  exact List.map_congr_left fun block member => shape_blockText (scan_block member)

/-- A text is split into the blocks that begin somewhere in it and end before another begins, and a generation made
from it splits into the same blocks, up to blanks at the ends of lines. -/
theorem chain_split_and_joined :
    (∀ pem, certificateBlocks pem = ((lines pem).tails.filterMap terminated).map blockText) ∧
    ∀ (x : X509) newId now certificateId pem privateKeyPem generation,
      x.generationFromPem newId now certificateId pem privateKeyPem = .ok generation →
      (certificateBlocks (fullchainPem generation)).map shape = (certificateBlocks pem).map shape := by
  refine ⟨fun pem => by rw [certificateBlocks_eq, scan_eq], ?_⟩
  intro x newId now certificateId pem privateKeyPem generation made
  rw [map_shape_certificateBlocks, map_shape_certificateBlocks]
  have each : ∀ block ∈ (scan (lines pem)).1, Block block := fun block => scan_block
  unfold X509.generationFromPem at made
  rw [certificateBlocks_eq] at made
  cases found : (scan (lines pem)).1 with
  | nil =>
    rw [found] at made
    cases made
  | cons first rest =>
    rw [found] at made each
    obtain ⟨der, -, made⟩ := bind_eq_ok.mp made
    obtain ⟨validity, -, made⟩ := bind_eq_ok.mp made
    obtain ⟨-, -, made⟩ := bind_eq_ok.mp made
    cases made
    exact scan_lines (holds_fullchainPem (each first List.mem_cons_self)
      (fun block member => each block (List.mem_cons_of_mem _ member)) rfl rfl)

/-- A chain whose leaf has blanks around its lines, after a block that is left open. -/
def looseChain : Text :=
  join ['\n'] [beginCertificate, ' ' :: beginCertificate, "leaf ".toList, endCertificate, beginCertificate, "ca".toList,
    endCertificate]

def lenientX509 : X509 where
  fromPem pem := .ok [pem.length.toUInt8]
  validity _ := .ok (0, 100)
  issuedBy _ _ := true
  verifySignature _ _ := .ok ()
  fingerprint _ := []

theorem chain_split_and_joined_loose :
    let made := lenientX509.generationFromPem "first".toList 0 "shop".toList looseChain "key".toList
    ∃ generation, made = .ok generation ∧
      (certificateBlocks (fullchainPem generation)).map shape =
        [[beginCertificate, "leaf".toList, endCertificate], [beginCertificate, "ca".toList, endCertificate]] := by
  have shapes : (certificateBlocks looseChain).map shape =
      [[beginCertificate, "leaf".toList, endCertificate], [beginCertificate, "ca".toList, endCertificate]] := by
    decide +kernel
  have accepted : (lenientX509.generationFromPem "first".toList 0 "shop".toList looseChain "key".toList).isOk = true := by
    decide +kernel
  cases made : lenientX509.generationFromPem "first".toList 0 "shop".toList looseChain "key".toList with
  | ok generation =>
    refine ⟨generation, rfl, ?_⟩
    rw [← shapes]
    exact chain_split_and_joined.2 lenientX509 _ _ _ _ _ _ made
  | error cause =>
    rw [made] at accepted
    cases accepted

end TlsProxy.Acme
