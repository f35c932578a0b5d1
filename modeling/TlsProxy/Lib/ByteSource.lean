import Mathlib.Data.List.Basic

/-! A source is polled with a buffer size under an event chosen by the
environment. What matters to a consumer is the byte sequence still to come: a
lawful source hands out a front part of it at every ready poll, and a live
source hands out at least one byte whenever bytes arrive and something is
still to come. -/
namespace ByteSource

/-- What the environment does at one poll of the underlying stream. -/
inductive Arrival
  | bytes (more : Nat)
  | quiet
  | closed
  | failed
deriving DecidableEq

inductive Poll
  | pending
  | ready (bytes : List UInt8)
  | failed
deriving DecidableEq

abbrev Reader (σ : Type) := σ → Nat → Arrival → σ × Poll

/-- A reliable stream holding the bytes its peer still delivers; it reports the
end of the stream only after the last of them. -/
def wire : Reader (List UInt8)
  | rest, want, .bytes more =>
    if rest = [] then (rest, .pending)
    else (rest.drop (min (more + 1) want), .ready (rest.take (min (more + 1) want)))
  | rest, _, .quiet => (rest, .pending)
  | rest, _, .closed => if rest = [] then (rest, .ready []) else (rest, .pending)
  | rest, _, .failed => (rest, .failed)

/-- At most `limit` further bytes of a source, then the end. -/
def take {σ : Type} (poll : Reader σ) : Reader (Nat × σ)
  | (limit, s), want, arrival =>
    if limit = 0 then ((limit, s), .ready [])
    else
      match poll s (min want limit) arrival with
      | (next, .ready bytes) => ((limit - bytes.length, next), .ready bytes)
      | (next, .pending) => ((limit, next), .pending)
      | (next, .failed) => ((limit, next), .failed)

/-- `content` is the byte sequence the source still hands out. -/
structure Lawful {σ : Type} (poll : Reader σ) (content : σ → List UInt8) : Prop where
  ready : ∀ {s next : σ} {want : Nat} {arrival : Arrival} {bytes : List UInt8},
    poll s want arrival = (next, .ready bytes) → content s = bytes ++ content next
  bounded : ∀ {s next : σ} {want : Nat} {arrival : Arrival} {bytes : List UInt8},
    poll s want arrival = (next, .ready bytes) → bytes.length ≤ want
  pending : ∀ {s next : σ} {want : Nat} {arrival : Arrival},
    poll s want arrival = (next, .pending) → content next = content s

/-- The end of the stream is reported only after its last byte. -/
def EndsLast {σ : Type} (poll : Reader σ) (content : σ → List UInt8) : Prop :=
  ∀ {s next : σ} {want : Nat} {arrival : Arrival}, 0 < want → poll s want arrival = (next, .ready []) → content s = []

/-- While content is left, arriving bytes are handed out and only a failure of
the underlying stream can end the source. -/
structure Live {σ : Type} (poll : Reader σ) (content : σ → List UInt8) : Prop where
  progress : ∀ (s : σ) {want : Nat} (more : Nat), 0 < want → content s ≠ [] →
    ∃ next bytes, poll s want (.bytes more) = (next, .ready bytes) ∧ bytes ≠ []
  alive : ∀ (s : σ) {want : Nat} (arrival : Arrival), 0 < want → content s ≠ [] → arrival ≠ .failed →
    (∃ next, poll s want arrival = (next, .pending)) ∨
      ∃ next bytes, poll s want arrival = (next, .ready bytes) ∧ bytes ≠ []

theorem wire_cases (rest : List UInt8) (want : Nat) (arrival : Arrival) :
    (∃ n, n ≤ want ∧ wire rest want arrival = (rest.drop n, .ready (rest.take n))) ∨
      wire rest want arrival = (rest, .pending) ∨ wire rest want arrival = (rest, .failed) := by
  cases arrival with
  | bytes more =>
    by_cases empty : rest = []
    · exact .inr (.inl (if_pos empty))
    · exact .inl ⟨min (more + 1) want, Nat.min_le_right _ _, if_neg empty⟩
  | quiet => exact .inr (.inl rfl)
  | closed =>
    by_cases empty : rest = []
    · exact .inl ⟨0, Nat.zero_le _, if_pos empty⟩
    · exact .inr (.inl (if_neg empty))
  | failed => exact .inr (.inr rfl)

theorem wire_lawful : Lawful wire id where
  ready := by
    intro s next want arrival bytes h
    rcases wire_cases s want arrival with ⟨n, -, polled⟩ | polled | polled <;>
      simp only [polled, Prod.mk.injEq, Poll.ready.injEq, reduceCtorEq, and_false] at h
    obtain ⟨rfl, rfl⟩ := h
    exact (List.take_append_drop _ _).symm
  bounded := by
    intro s next want arrival bytes h
    rcases wire_cases s want arrival with ⟨n, fits, polled⟩ | polled | polled <;>
      simp only [polled, Prod.mk.injEq, Poll.ready.injEq, reduceCtorEq, and_false] at h
    obtain ⟨-, rfl⟩ := h
    exact Nat.le_trans (List.length_take_le _ _) fits
  pending := by
    intro s next want arrival h
    rcases wire_cases s want arrival with ⟨n, -, polled⟩ | polled | polled <;>
      simp only [polled, Prod.mk.injEq, reduceCtorEq, and_false, and_true] at h
    exact congrArg id h.symm

theorem wire_endsLast : EndsLast wire id := by
  intro s next want arrival positive polled
  by_contra filled
  change s ≠ [] at filled
  cases arrival with
  | bytes more =>
    rw [wire, if_neg filled] at polled
    rcases List.take_eq_nil_iff.mp (Poll.ready.inj (Prod.mk.inj polled).2) with none | empty
    · omega
    · exact filled empty
  | closed =>
    rw [wire, if_neg filled] at polled
    cases polled
  | quiet => cases polled
  | failed => cases polled

theorem wire_progress {s : List UInt8} {want : Nat} (more : Nat) (positive : 0 < want) (filled : s ≠ []) :
    ∃ next bytes, wire s want (.bytes more) = (next, .ready bytes) ∧ bytes ≠ [] := by
  refine ⟨s.drop (min (more + 1) want), s.take (min (more + 1) want), if_neg filled, ?_⟩
  obtain ⟨b, rest, rfl⟩ := List.exists_cons_of_ne_nil filled
  have some : min (more + 1) want ≠ 0 := by omega
  obtain ⟨n, size⟩ := Nat.exists_eq_succ_of_ne_zero some
  rw [size]
  simp

theorem wire_live : Live wire id where
  progress := fun _ _ more positive filled => wire_progress more positive filled
  alive := by
    intro s want arrival positive filled sound
    cases arrival with
    | bytes more => exact .inr (wire_progress more positive filled)
    | quiet => exact .inl ⟨s, rfl⟩
    | closed => exact .inl ⟨s, if_neg filled⟩
    | failed => exact absurd rfl sound

theorem wire_ready_nil {s next : List UInt8} {want : Nat} {arrival : Arrival} (positive : 0 < want)
    (polled : wire s want arrival = (next, .ready [])) : s = [] := by
  by_contra filled
  have sound : arrival ≠ .failed := by
    rintro rfl
    cases polled
  rcases wire_live.alive s arrival positive filled sound with ⟨inner, pending⟩ | ⟨inner, bytes, ready, some⟩
  · rw [pending] at polled
    cases polled
  · grind

theorem wire_failed {s next : List UInt8} {want : Nat} {arrival : Arrival}
    (polled : wire s want arrival = (next, .failed)) : arrival = .failed := by
  cases arrival with
  | failed => rfl
  | quiet => cases polled
  | bytes more => grind [wire]
  | closed => grind [wire]

section Take

variable {σ : Type} {poll : Reader σ} {content : σ → List UInt8}

theorem take_cases (poll : Reader σ) (limit : Nat) (s : σ) (want : Nat) (arrival : Arrival) :
    (limit = 0 ∧ take poll (limit, s) want arrival = ((limit, s), .ready [])) ∨
    (∃ next bytes, poll s (min want limit) arrival = (next, .ready bytes) ∧
      take poll (limit, s) want arrival = ((limit - bytes.length, next), .ready bytes)) ∨
    (∃ next result, poll s (min want limit) arrival = (next, result) ∧ (∀ bytes, result ≠ .ready bytes) ∧
      take poll (limit, s) want arrival = ((limit, next), result)) := by
  by_cases exhausted : limit = 0
  · exact .inl ⟨exhausted, if_pos exhausted⟩
  · cases polled : poll s (min want limit) arrival with
    | mk next result => grind [take]

theorem take_lawful (lawful : Lawful poll content) :
    Lawful (take poll) fun s => (content s.2).take s.1 where
  ready := by
    rintro ⟨limit, s⟩ next want arrival bytes h
    rcases take_cases poll limit s want arrival with
      ⟨rfl, took⟩ | ⟨inner, got, polled, took⟩ | ⟨inner, result, -, other, took⟩
    · grind
    · rw [took, Prod.mk.injEq, Poll.ready.injEq] at h
      obtain ⟨rfl, rfl⟩ := h
      have fits := lawful.bounded polled
      simp only [lawful.ready polled]
      rw [List.take_append, List.take_of_length_le (by omega)]
    · grind
  bounded := by
    rintro ⟨limit, s⟩ next want arrival bytes h
    rcases take_cases poll limit s want arrival with
      ⟨-, took⟩ | ⟨inner, got, polled, took⟩ | ⟨inner, result, -, other, took⟩
    · grind
    · rw [took, Prod.mk.injEq, Poll.ready.injEq] at h
      obtain ⟨-, rfl⟩ := h
      have fits := lawful.bounded polled
      omega
    · grind
  pending := by
    rintro ⟨limit, s⟩ next want arrival h
    rcases take_cases poll limit s want arrival with
      ⟨-, took⟩ | ⟨inner, got, polled, took⟩ | ⟨inner, result, polled, -, took⟩
    · grind
    · grind
    · rw [took, Prod.mk.injEq] at h
      obtain ⟨rfl, rfl⟩ := h
      simp only [lawful.pending polled]

theorem open_of_take_ne_nil {limit : Nat} {bytes : List UInt8} (filled : bytes.take limit ≠ []) :
    limit ≠ 0 ∧ bytes ≠ [] := by
  constructor
  · rintro rfl
    simp at filled
  · rintro rfl
    simp at filled

theorem take_live (live : Live poll content) : Live (take poll) fun s => (content s.2).take s.1 where
  progress := by
    rintro ⟨limit, s⟩ want more positive filled
    obtain ⟨open_, inner⟩ := open_of_take_ne_nil filled
    obtain ⟨next, bytes, polled, some⟩ :=
      live.progress s more (show 0 < min want limit by omega) inner
    exact ⟨(limit - bytes.length, next), bytes, by simp [take, open_, polled], some⟩
  alive := by
    rintro ⟨limit, s⟩ want arrival positive filled sound
    obtain ⟨open_, inner⟩ := open_of_take_ne_nil filled
    rcases live.alive s arrival (show 0 < min want limit by omega) inner sound with
      ⟨next, polled⟩ | ⟨next, bytes, polled, some⟩
    · exact .inl ⟨(limit, next), by simp [take, open_, polled]⟩
    · exact .inr ⟨(limit - bytes.length, next), bytes, by simp [take, open_, polled], some⟩

end Take

end ByteSource
