import TlsProxy.Net.Interception
import Mathlib.Tactic.IntervalCases

/-! `extract_client_random` reads whatever bytes of the handshake records are
buffered so far. -/
namespace TlsProxy.Net

/-- The bytes from one position to another, where the source has `get` or a range index. -/
def slice (bytes : List UInt8) (start stop : Nat) : Option (List UInt8) :=
  if start ≤ stop ∧ stop ≤ bytes.length then some ((bytes.drop start).take (stop - start)) else none

theorem slice_of_le {bytes : List UInt8} {start stop : Nat} (ordered : start ≤ stop) (fits : stop ≤ bytes.length) :
    slice bytes start stop = some ((bytes.drop start).take (stop - start)) := if_pos ⟨ordered, fits⟩

theorem length_of_slice {bytes part : List UInt8} {start stop : Nat} (found : slice bytes start stop = some part) :
    start ≤ stop ∧ stop ≤ bytes.length := by
  unfold slice at found
  split at found
  · assumption
  · cases found

/-- The loop by positions in the buffer. The outer `none` is the panic of an index out of range. -/
def reassembleAt (buffered handshake : List UInt8) (offset : Nat) : Option (Option (List UInt8)) :=
  if handshake.length ≥ 4 + 2 + 32 then some (some handshake)
  else
    match _header : slice buffered offset (offset + 5) with
    | none => some none
    | some bytes =>
      bytes[0]?.bind fun kind =>
        if kind ≠ 0x16 then some none
        else
          bytes[3]?.bind fun high => bytes[4]?.bind fun low =>
            let recordLen := high.toNat * 256 + low.toNat
            match slice buffered (offset + 5) (min (offset + 5 + recordLen) buffered.length) with
            | none => some none
            | some payload => reassembleAt buffered (handshake ++ payload) (offset + (5 + recordLen))
termination_by buffered.length - offset
decreasing_by
  have := length_of_slice _header
  omega

def extractClientRandomAt (buffered : List UInt8) : Option (Option (List UInt8)) :=
  (reassembleAt buffered [] 0).bind fun
    | none => some none
    | some handshake =>
      handshake[0]?.bind fun kind =>
        if kind ≠ 0x01 then some none
        else (slice handshake (4 + 2) (4 + 2 + 32)).map fun random => if random.length = 32 then some random else none

theorem exists_five {bytes : List UInt8} (long : 5 ≤ bytes.length) :
    ∃ a b c d e rest, bytes = a :: b :: c :: d :: e :: rest := by
  match bytes, long with
  | a :: b :: c :: d :: e :: rest, _ => exact ⟨a, b, c, d, e, rest, rfl⟩

theorem reassemble_short {handshake rest : List UInt8} (few : handshake.length < 38) (short : rest.length < 5) :
    reassemble handshake rest = none := by
  rw [reassemble.eq_def, if_neg (by omega)]
  split
  · simp only [List.length_cons] at short
    omega
  · rfl

/-- No index is out of range, and the positions are those of the records that are left. -/
theorem reassembleAt_eq (buffered handshake : List UInt8) (offset : Nat) :
    reassembleAt buffered handshake offset = some (reassemble handshake (buffered.drop offset)) := by
  rw [reassembleAt]
  by_cases enough : handshake.length ≥ 4 + 2 + 32
  · rw [if_pos enough, reassemble.eq_def, if_pos enough]
  rw [if_neg enough]
  split
  · next missing =>
    have short : buffered.length < offset + 5 := by
      by_contra long
      rw [slice_of_le (by omega) (by omega)] at missing
      cases missing
    rw [reassemble_short (by omega) (by rw [List.length_drop]; omega)]
  · next bytes header =>
    have fits := (length_of_slice header).2
    obtain ⟨kind, b, c, high, low, payload, shape⟩ :=
      @exists_five (buffered.drop offset) (by rw [List.length_drop]; omega)
    rw [slice_of_le (by omega) fits, shape, Nat.add_sub_cancel_left] at header
    cases header
    rw [shape, reassemble, if_neg enough]
    simp only [List.take_succ_cons, List.getElem?_cons_zero, List.getElem?_cons_succ, Option.bind_some]
    split
    · rfl
    · have rest : buffered.drop (offset + 5) = payload := by
        rw [← List.drop_drop, shape]
        rfl
      have reach : payload.length = buffered.length - (offset + 5) := by rw [← rest, List.length_drop]
      rw [slice_of_le (by omega) (Nat.min_le_right _ _), rest]
      have same : payload.take (min (offset + 5 + (high.toNat * 256 + low.toNat)) buffered.length - (offset + 5)) =
          payload.take (high.toNat * 256 + low.toNat) := List.take_eq_take_iff.mpr (by omega)
      simp only [same]
      rw [reassembleAt_eq buffered _ (offset + (5 + (high.toNat * 256 + low.toNat))), ← Nat.add_assoc,
        ← List.drop_drop, rest]
termination_by buffered.length - offset

theorem length_of_reassemble {handshake rest whole : List UInt8} (done : reassemble handshake rest = some whole) :
    38 ≤ whole.length := by
  fun_induction reassemble handshake rest with
  | case1 handshake rest enough => cases done; exact enough
  | case2 => cases done
  | case3 => grind
  | case4 => cases done

theorem extractClientRandomAt_eq (buffered : List UInt8) :
    extractClientRandomAt buffered = some (extractClientRandom buffered) := by
  rw [extractClientRandomAt, extractClientRandom, reassembleAt_eq, List.drop_zero, Option.bind_some]
  cases done : reassemble [] buffered with
  | none => rfl
  | some handshake =>
    have long := length_of_reassemble done
    obtain ⟨kind, rest, rfl⟩ := @List.exists_cons_of_length_pos _ handshake (by omega)
    simp only [List.getElem?_cons_zero, Option.bind_some, List.head?_cons, ne_eq, Option.some.injEq]
    split
    · rfl
    · rw [slice_of_le (by omega) long, Option.map_some, if_pos]
      rw [List.length_take, List.length_drop]
      omega

structure Fragment where
  version : UInt8 × UInt8
  payload : List UInt8
  fits : payload.length < 65536

/-- The bytes of the record, each with whether it belongs to the handshake. -/
def Fragment.marked (fragment : Fragment) : List (Bool × UInt8) :=
  (false, 0x16) :: (false, fragment.version.1) :: (false, fragment.version.2) ::
    (false, UInt8.ofNat (fragment.payload.length / 256)) :: (false, UInt8.ofNat (fragment.payload.length % 256)) ::
    fragment.payload.map (Prod.mk true)

def message (fragments : List Fragment) : List UInt8 := fragments.flatMap Fragment.payload

def received (fragments : List Fragment) (count : Nat) : List UInt8 :=
  ((fragments.flatMap Fragment.marked).take count).map Prod.snd

def carried (fragments : List Fragment) (count : Nat) : List UInt8 :=
  (((fragments.flatMap Fragment.marked).take count).filter Prod.fst).map Prod.snd

variable (fragment : Fragment) (fragments : List Fragment) (count : Nat)

theorem carried_cons : carried (fragment :: fragments) (count + 5) =
    fragment.payload.take count ++ carried fragments (count - fragment.payload.length) := by
  simp [carried, Fragment.marked, List.take_append, ← List.map_take, List.filter_map, Function.comp_def]

theorem received_cons : received (fragment :: fragments) (count + 5) =
    0x16 :: fragment.version.1 :: fragment.version.2 :: UInt8.ofNat (fragment.payload.length / 256) ::
      UInt8.ofNat (fragment.payload.length % 256) ::
      (fragment.payload.take count ++ received fragments (count - fragment.payload.length)) := by
  simp [received, Fragment.marked, List.take_append, ← List.map_take, Function.comp_def]

theorem carried_prefix : carried fragments count <+: message fragments := by
  have whole : message fragments = ((fragments.flatMap Fragment.marked).filter Prod.fst).map Prod.snd := by
    rw [List.filter_flatMap, List.map_flatMap]
    simp [message, Fragment.marked, List.filter_map, Function.comp_def]
  rw [whole]
  exact ((List.take_prefix _ _).filter _).map _

theorem length_bytes {n : Nat} (fits : n < 65536) :
    (UInt8.ofNat (n / 256)).toNat * 256 + (UInt8.ofNat (n % 256)).toNat = n := by
  simp only [UInt8.toNat_ofNat']
  omega

theorem received_short {count : Nat} (few : count < 5) : (received fragments count).length < 5 := by
  rw [received, List.length_map, List.length_take]
  omega

theorem carried_short {count : Nat} (few : count < 5) : carried fragments count = [] := by
  cases fragments with
  | nil => simp [carried]
  | cons first rest =>
    have header : ∀ n < 5, ((first.marked ++ rest.flatMap Fragment.marked).take n).filter Prod.fst = [] := by
      intro n small
      interval_cases n <;> rfl
    rw [carried, List.flatMap_cons, header count few, List.map_nil]

theorem received_payload : (fragment.payload.take count ++ received fragments (count - fragment.payload.length)).take
      fragment.payload.length = fragment.payload.take count ∧
    (fragment.payload.take count ++ received fragments (count - fragment.payload.length)).drop
      fragment.payload.length = received fragments (count - fragment.payload.length) := by
  rcases Nat.lt_or_ge count fragment.payload.length with less | more
  · have none : received fragments (count - fragment.payload.length) = [] := by
      rw [Nat.sub_eq_zero_of_le (Nat.le_of_lt less)]
      rfl
    rw [none, List.append_nil, List.take_take, Nat.min_eq_right (Nat.le_of_lt less), List.drop_eq_nil_iff]
    exact ⟨rfl, by rw [List.length_take]; omega⟩
  · rw [List.take_of_length_le more]
    exact ⟨List.take_left, List.drop_left⟩

/-- The induction is on the records; `handshake` is what the earlier ones carried. -/
theorem reassemble_received (handshake : List UInt8) :
    (reassemble handshake (received fragments count)).map (List.take 38) =
      if 38 ≤ (handshake ++ carried fragments count).length then
        some ((handshake ++ carried fragments count).take 38)
      else none := by
  induction fragments generalizing handshake count with
  | nil =>
    rw [received, carried, List.flatMap_nil, List.take_nil, List.filter_nil, List.map_nil, List.append_nil,
      reassemble.eq_def]
    split
    · rfl
    · rfl
  | cons first rest ih =>
    by_cases enough : 38 ≤ handshake.length
    · rw [reassemble.eq_def, if_pos enough, if_pos (by rw [List.length_append]; omega), Option.map_some,
        List.take_append_of_le_length enough]
    by_cases few : count < 5
    · rw [reassemble_short (by omega) (received_short _ few), carried_short _ few, List.append_nil, if_neg enough,
        Option.map_none]
    obtain ⟨more, rfl⟩ : ∃ more, count = more + 5 := ⟨count - 5, by omega⟩
    obtain ⟨taken, left⟩ := received_payload first rest more
    rw [received_cons, reassemble, if_neg enough, if_neg (by simp), length_bytes first.fits]
    dsimp only
    rw [taken, left, carried_cons, ← List.append_assoc, ← ih]

theorem reassemble_append {handshake rest whole : List UInt8} (extra : List UInt8)
    (done : reassemble handshake rest = some whole) :
    ∃ more, reassemble handshake (rest ++ extra) = some (whole ++ more) := by
  fun_induction reassemble handshake rest with
  | case1 handshake rest enough =>
    cases done
    exact ⟨[], by rw [reassemble.eq_def, if_pos enough, List.append_nil]⟩
  | case2 => cases done
  | case4 => cases done
  | case3 handshake few kind b c high low payload same recordLen ih =>
    rw [List.cons_append, List.cons_append, List.cons_append, List.cons_append, List.cons_append, reassemble,
      if_neg few, if_neg same]
    dsimp only
    rcases Nat.le_or_ge recordLen payload.length with inside | cut
    · rw [List.take_append_of_le_length inside, List.drop_append_of_le_length inside]
      exact ih done
    · -- The record was cut off, so the loop was finished with it.
      rw [List.drop_of_length_le cut, List.take_of_length_le cut, reassemble.eq_def] at done
      split at done
      · next enough =>
        cases done
        rw [List.take_append, List.take_of_length_le cut, ← List.append_assoc, reassemble.eq_def, if_pos]
        · exact ⟨_, rfl⟩
        · rw [List.length_append]
          omega
      · cases done

theorem head?_take (handshake : List UInt8) : (handshake.take 38).head? = handshake.head? := by
  rw [List.head?_take]
  rfl

theorem extractClientRandom_eq (buffered : List UInt8) :
    extractClientRandom buffered = ((reassemble [] buffered).map (List.take 38)).bind fun handshake =>
      if handshake.head? = some 0x01 then some (handshake.drop 6) else none := by
  rw [extractClientRandom, Option.bind_map]
  congr 1
  funext handshake
  rw [Function.comp_apply, head?_take, List.drop_take, ite_not]

theorem extractClientRandom_append {buffered random : List UInt8} (extra : List UInt8)
    (found : extractClientRandom buffered = some random) : extractClientRandom (buffered ++ extra) = some random := by
  rw [extractClientRandom_eq] at found ⊢
  cases done : reassemble [] buffered with
  | none =>
    rw [done] at found
    cases found
  | some handshake =>
    obtain ⟨more, again⟩ := reassemble_append extra done
    rw [done, Option.map_some] at found
    rwa [again, Option.map_some, List.take_append_of_le_length (length_of_reassemble done)]

/-- The positions of the source are never out of range; on every front part of a fragmented handshake the random
is found as soon as its bytes are there; and more bytes, of whatever kind, do not change it. -/
theorem client_random_of_prefix :
    (∀ buffered, extractClientRandomAt buffered = some (extractClientRandom buffered)) ∧
    (∀ fragments count, extractClientRandom (received fragments count) =
      if (message fragments).head? = some 0x01 ∧ 38 ≤ (carried fragments count).length then
        some (((message fragments).drop 6).take 32)
      else none) ∧
    ∀ buffered random, extractClientRandom buffered = some random →
      ∀ extra, extractClientRandom (buffered ++ extra) = some random := by
  refine ⟨extractClientRandomAt_eq, fun fragments count => ?_, fun _ _ found extra =>
    extractClientRandom_append extra found⟩
  rw [extractClientRandom_eq, reassemble_received, List.nil_append]
  by_cases there : 38 ≤ (carried fragments count).length
  · obtain ⟨later, whole⟩ := carried_prefix fragments count
    rw [if_pos there, Option.bind_some, ← List.take_append_of_le_length there, whole, head?_take,
      List.drop_take]
    simp only [there, and_true]
  · rw [if_neg there, if_neg fun both => there both.2]
    rfl

end TlsProxy.Net
