import PwDart.LabelledRun
import Mathlib

namespace PwDart

open LabelledRun

/-- The template argument of `SpscQueue`, with its two static assertions. -/
structure SpscSize where
  N : Nat
  power : N &&& (N - 1) = 0
  two_le : 2 ≤ N
  fits : N < 2 ^ 64

/-- `(i + 1) & mask_` on `std::size_t`. -/
def SpscSize.advance (size : SpscSize) (i : Nat) : Nat :=
  ((i + 1) % 2 ^ 64) &&& (size.N - 1)

/-- Between which of its atomic operations a call of `try_push` stands. -/
inductive Pushing (T : Type)
  | idle
  | loaded (item : T) (head : Nat)
  | checked (item : T) (head next : Nat)
  | written (item : T) (head next : Nat)

inductive Popping (T : Type)
  | idle
  | loaded (tail : Nat)
  | checked (tail : Nat)
  | read (tail : Nat) (item : T)

structure SpscQueue (T : Type) where
  buffer : Nat → T
  head : Nat := 0
  tail : Nat := 0
  producer : Pushing T := .idle
  consumer : Popping T := .idle
  accepted : List T := []
  popped : List T := []

/-- One step of one of the two threads. A slot that was moved from holds any value afterwards. -/
inductive SpscStep (T : Type)
  | pushLoadHead (item : T)
  | pushLoadTail
  | pushWrite
  | pushStoreHead
  | popLoadTail
  | popLoadHead
  | popRead (movedFrom : T)
  | popStoreTail

/-- The slot a call of `try_push` works on, between its full check and its store. -/
def Pushing.slot {T : Type} : Pushing T → Option Nat
  | checked _ head _ => some head
  | written _ head _ => some head
  | _ => none

/-- The slot a call of `try_pop` works on, between its empty check and its store. -/
def Popping.slot {T : Type} : Popping T → Option Nat
  | checked tail => some tail
  | read tail _ => some tail
  | _ => none

namespace SpscQueue

def next {T : Type} (size : SpscSize) (q : SpscQueue T) : SpscStep T → Option (SpscQueue T)
  | .pushLoadHead item =>
    match q.producer with
    | .idle => some { q with producer := .loaded item q.head }
    | _ => none
  | .pushLoadTail =>
    match q.producer with
    | .loaded item head =>
      if size.advance head = q.tail then some { q with producer := .idle }
      else some { q with producer := .checked item head (size.advance head) }
    | _ => none
  | .pushWrite =>
    match q.producer with
    | .checked item head next =>
      some { q with
        buffer := Function.update q.buffer head item, producer := .written item head next }
    | _ => none
  | .pushStoreHead =>
    match q.producer with
    | .written item _ next =>
      some { q with head := next, producer := .idle, accepted := q.accepted ++ [item] }
    | _ => none
  | .popLoadTail =>
    match q.consumer with
    | .idle => some { q with consumer := .loaded q.tail }
    | _ => none
  | .popLoadHead =>
    match q.consumer with
    | .loaded tail =>
      if tail = q.head then some { q with consumer := .idle }
      else some { q with consumer := .checked tail }
    | _ => none
  | .popRead movedFrom =>
    match q.consumer with
    | .checked tail =>
      some { q with
        buffer := Function.update q.buffer tail movedFrom, consumer := .read tail (q.buffer tail) }
    | _ => none
  | .popStoreTail =>
    match q.consumer with
    | .read tail item =>
      some { q with tail := size.advance tail, consumer := .idle, popped := q.popped ++ [item] }
    | _ => none

end SpscQueue

theorem SpscSize.advance_mod (size : SpscSize) (count : Nat) :
    size.advance (count % size.N) = (count + 1) % size.N := by
  obtain ⟨N, power, two_le, fits⟩ := size
  obtain ⟨k, rfl⟩ := (Nat.and_sub_one_eq_zero_iff_isPowerOfTwo (by omega)).mp power
  have inside : count % 2 ^ k < 2 ^ k := Nat.mod_lt _ (Nat.two_pow_pos k)
  simp only [SpscSize.advance]
  rw [Nat.mod_eq_of_lt (by omega), Nat.and_two_pow_sub_one_eq_mod, Nat.mod_add_mod]

/-- Two positions less than a lap apart lie in different slots. -/
theorem slots_differ {N a b : Nat} (after : b < a) (lap : a < b + N) : a % N ≠ b % N := by
  intro same
  have divides := Nat.dvd_of_mod_eq_zero (Nat.sub_mod_eq_zero_of_mod_eq same)
  have := Nat.le_of_dvd (by omega) divides
  omega

namespace SpscQueue

def ProducerHolds {T : Type} (size : SpscSize) (q : SpscQueue T) : Pushing T → Prop
  | .idle => True
  | .loaded _ head => head = q.head
  | .checked _ head next => head = q.head ∧ next = size.advance head ∧
      q.accepted.length + 1 < q.popped.length + size.N
  | .written item head next => head = q.head ∧ next = size.advance head ∧
      q.accepted.length + 1 < q.popped.length + size.N ∧ q.buffer head = item

def ConsumerHolds {T : Type} (q : SpscQueue T) : Popping T → Prop
  | .idle => True
  | .loaded tail => tail = q.tail
  | .checked tail => tail = q.tail ∧ q.popped.length < q.accepted.length
  | .read tail item => tail = q.tail ∧ q.accepted[q.popped.length]? = some item

/-- The first accepted value whose slot still holds it. -/
def firstStored {T : Type} (q : SpscQueue T) : Nat :=
  match q.consumer with
  | .read _ _ => q.popped.length + 1
  | _ => q.popped.length

structure Consistent {T : Type} (size : SpscSize) (q : SpscQueue T) : Prop where
  head_eq : q.head = q.accepted.length % size.N
  tail_eq : q.tail = q.popped.length % size.N
  room : q.accepted.length < q.popped.length + size.N
  popped_prefix : q.popped <+: q.accepted
  stored : ∀ i item, q.firstStored ≤ i → q.accepted[i]? = some item → q.buffer (i % size.N) = item
  producer : ProducerHolds size q q.producer
  consumer : ConsumerHolds q q.consumer

theorem consistent_start {T : Type} (size : SpscSize) (buffer : Nat → T) :
    Consistent size { buffer := buffer } where
  head_eq := rfl
  tail_eq := rfl
  room := by
    have := size.two_le
    simp only [List.length_nil]
    omega
  popped_prefix := List.nil_prefix
  stored i item _ held := by simp at held
  producer := trivial
  consumer := trivial

theorem popped_le {T : Type} {size : SpscSize} {q : SpscQueue T} (h : Consistent size q) :
    q.popped.length ≤ q.accepted.length :=
  h.popped_prefix.length_le

theorem consistent_pushLoadHead {T : Type} {size : SpscSize} {q t : SpscQueue T} {item : T}
    (h : Consistent size q) (step : q.next size (.pushLoadHead item) = some t) :
    Consistent size t := by
  simp only [next] at step
  split at step
  next => cases Option.some.inj step; exact { h with producer := rfl }
  next => simp at step

theorem consistent_pushLoadTail {T : Type} {size : SpscSize} {q t : SpscQueue T}
    (h : Consistent size q) (step : q.next size .pushLoadTail = some t) : Consistent size t := by
  simp only [next] at step
  split at step
  next item head at_ =>
    have held := h.producer
    rw [at_] at held
    split at step
    next => cases Option.some.inj step; exact { h with producer := trivial }
    next notFull =>
      cases Option.some.inj step
      refine { h with producer := ⟨held, rfl, ?_⟩ }
      have room := h.room
      have behind := popped_le h
      by_contra full
      have last : q.accepted.length + 1 = q.popped.length + size.N := by simp only at full; omega
      refine notFull ?_
      rw [show head = q.accepted.length % size.N from held.trans h.head_eq, size.advance_mod, last,
        Nat.add_mod_right, h.tail_eq]
  next => simp at step

theorem consistent_pushWrite {T : Type} {size : SpscSize} {q t : SpscQueue T}
    (h : Consistent size q) (step : q.next size .pushWrite = some t) : Consistent size t := by
  simp only [next] at step
  split at step
  next item head next at_ =>
    obtain ⟨rfl, hnext, room⟩ : ProducerHolds size q (.checked item head next) := at_ ▸ h.producer
    cases Option.some.inj step
    refine { h with
      stored := fun i value first held => ?_
      producer := ⟨rfl, hnext, room, Function.update_self ..⟩ }
    obtain ⟨bound, _⟩ := List.getElem?_eq_some_iff.mp held
    have notFirst : q.popped.length ≤ i := by
      simp only [firstStored] at first
      split at first <;> omega
    simp only at bound
    have apart : i % size.N ≠ q.head := by
      rw [h.head_eq]
      exact (slots_differ bound (by omega)).symm
    simpa [apart] using h.stored i value first held
  next => simp at step

theorem consistent_pushStoreHead {T : Type} {size : SpscSize} {q t : SpscQueue T}
    (h : Consistent size q) (step : q.next size .pushStoreHead = some t) : Consistent size t := by
  simp only [next] at step
  split at step
  next item head next at_ =>
    obtain ⟨rfl, rfl, room, written⟩ : ProducerHolds size q (.written item head next) :=
      at_ ▸ h.producer
    cases Option.some.inj step
    refine
      { head_eq := by simp [h.head_eq, size.advance_mod]
        tail_eq := h.tail_eq
        room := by simpa using room
        popped_prefix := h.popped_prefix.trans (List.prefix_append ..)
        stored := fun i value first held => ?_
        producer := trivial
        consumer := ?_ }
    · rcases Nat.lt_or_ge i q.accepted.length with bound | bound
      · exact h.stored i value first (by rwa [List.getElem?_append_left bound] at held)
      · rw [List.getElem?_append_right bound, List.getElem?_singleton] at held
        split at held
        next last =>
          cases Option.some.inj held
          rw [show i = q.accepted.length by omega, ← h.head_eq]
          exact written
        next => simp at held
    · have held := h.consumer
      cases hc : q.consumer with
      | idle => trivial
      | loaded tail => rw [hc] at held; exact held
      | checked tail =>
        rw [hc] at held
        exact ⟨held.1, by simpa using Nat.lt_succ_of_lt held.2⟩
      | read tail value =>
        rw [hc] at held
        obtain ⟨bound, _⟩ := List.getElem?_eq_some_iff.mp held.2
        exact ⟨held.1, by rw [List.getElem?_append_left bound]; exact held.2⟩
  next => simp at step

theorem consistent_popLoadTail {T : Type} {size : SpscSize} {q t : SpscQueue T}
    (h : Consistent size q) (step : q.next size .popLoadTail = some t) : Consistent size t := by
  simp only [next] at step
  split at step
  next idle =>
    cases Option.some.inj step
    refine { h with stored := fun i value first held => h.stored i value ?_ held, consumer := rfl }
    simpa [firstStored, idle] using first
  next => simp at step

theorem consistent_popLoadHead {T : Type} {size : SpscSize} {q t : SpscQueue T}
    (h : Consistent size q) (step : q.next size .popLoadHead = some t) : Consistent size t := by
  simp only [next] at step
  split at step
  next tail at_ =>
    have held : tail = q.tail := by
      have := h.consumer
      rwa [at_] at this
    split at step
    next =>
      cases Option.some.inj step
      refine { h with stored := fun i value first held => h.stored i value ?_ held, consumer := trivial }
      simpa [firstStored, at_] using first
    next notEmpty =>
      cases Option.some.inj step
      refine { h with
        stored := fun i value first held => h.stored i value ?_ held
        consumer := ⟨held, ?_⟩ }
      · simpa [firstStored, at_] using first
      · have behind := popped_le h
        refine Nat.lt_of_le_of_ne behind fun same => notEmpty ?_
        rw [held, h.tail_eq, h.head_eq]
        exact congrArg (· % size.N) same
  next => simp at step

theorem consistent_popRead {T : Type} {size : SpscSize} {q t : SpscQueue T} {movedFrom : T}
    (h : Consistent size q) (step : q.next size (.popRead movedFrom) = some t) :
    Consistent size t := by
  simp only [next] at step
  split at step
  next tail at_ =>
    obtain ⟨rfl, behind⟩ : ConsumerHolds q (.checked tail) := at_ ▸ h.consumer
    cases Option.some.inj step
    have room := h.room
    refine { h with
      stored := fun i value first held => ?_
      producer := ?_
      consumer := ⟨rfl, ?_⟩ }
    · obtain ⟨bound, _⟩ := List.getElem?_eq_some_iff.mp held
      simp only [firstStored] at first bound
      have apart : i % size.N ≠ q.tail := by
        rw [h.tail_eq]
        exact slots_differ (by omega) (by omega)
      have before : q.firstStored ≤ i := by simp only [firstStored, at_]; omega
      simpa [apart] using h.stored i value before held
    · have held := h.producer
      cases hp : q.producer with
      | idle => trivial
      | loaded item head => rw [hp] at held; exact held
      | checked item head next => rw [hp] at held; exact held
      | written item head next =>
        rw [hp] at held
        obtain ⟨hhead, hnext, free, written⟩ := held
        refine ⟨hhead, hnext, free, ?_⟩
        have apart : head ≠ q.tail := by
          rw [hhead, h.head_eq, h.tail_eq]
          exact slots_differ behind (by omega)
        simpa [apart] using written
    · obtain ⟨item, held⟩ : ∃ item, q.accepted[q.popped.length]? = some item :=
        ⟨_, List.getElem?_eq_getElem behind⟩
      have stored := h.stored q.popped.length item (by simp [firstStored, at_]) held
      rw [h.tail_eq, stored]
      exact held
  next => simp at step

theorem consistent_popStoreTail {T : Type} {size : SpscSize} {q t : SpscQueue T}
    (h : Consistent size q) (step : q.next size .popStoreTail = some t) : Consistent size t := by
  simp only [next] at step
  split at step
  next tail item at_ =>
    obtain ⟨rfl, held⟩ : ConsumerHolds q (.read tail item) := at_ ▸ h.consumer
    cases Option.some.inj step
    have room := h.room
    refine
      { head_eq := h.head_eq
        tail_eq := by simp [h.tail_eq, size.advance_mod]
        room := by simp only [List.length_append, List.length_singleton]; omega
        popped_prefix := ?_
        stored := fun i value first held => h.stored i value ?_ held
        producer := ?_
        consumer := trivial }
    · obtain ⟨rest, hrest⟩ := h.popped_prefix
      rw [← hrest, List.getElem?_append_right (Nat.le_refl _), Nat.sub_self] at held
      obtain ⟨later, rfl⟩ : ∃ later, rest = item :: later := by
        cases rest with
        | nil => simp at held
        | cons first later => exact ⟨later, by simpa using held⟩
      exact ⟨later, by simp [← hrest]⟩
    · simpa [firstStored, at_] using first
    · have held := h.producer
      cases hp : q.producer with
      | idle => trivial
      | loaded value head => rw [hp] at held; exact held
      | checked value head next =>
        rw [hp] at held
        exact ⟨held.1, held.2.1, by have := held.2.2; simp only [List.length_append, List.length_singleton]; omega⟩
      | written value head next =>
        rw [hp] at held
        exact ⟨held.1, held.2.1, by have := held.2.2.1; simp only [List.length_append, List.length_singleton]; omega, held.2.2.2⟩
  next => simp at step

theorem consistent_step {T : Type} {size : SpscSize} {q t : SpscQueue T} {l : SpscStep T}
    (h : Consistent size q) (step : q.next size l = some t) : Consistent size t := by
  cases l with
  | pushLoadHead item => exact consistent_pushLoadHead h step
  | pushLoadTail => exact consistent_pushLoadTail h step
  | pushWrite => exact consistent_pushWrite h step
  | pushStoreHead => exact consistent_pushStoreHead h step
  | popLoadTail => exact consistent_popLoadTail h step
  | popLoadHead => exact consistent_popLoadHead h step
  | popRead movedFrom => exact consistent_popRead h step
  | popStoreTail => exact consistent_popStoreTail h step

theorem consistent_run {T : Type} {size : SpscSize} {buffer : Nat → T} {ls : List (SpscStep T)}
    {q : SpscQueue T} (run : Run (Takes (next size)) { buffer := buffer } ls q) :
    Consistent size q :=
  run.invariant (consistent_start size buffer) fun _ _ _ h step => consistent_step h step

/-- Each thread works on the slot of its own index, and these are slots of the buffer. -/
theorem slots_of_threads {T : Type} {size : SpscSize} {q : SpscQueue T} (h : Consistent size q) :
    (∀ slot, q.producer.slot = some slot → slot = q.head ∧ slot < size.N ∧
      q.accepted.length + 1 < q.popped.length + size.N) ∧
    ∀ slot, q.consumer.slot = some slot → slot = q.tail ∧ slot < size.N ∧
      q.popped.length < q.accepted.length := by
  have positive : 0 < size.N := Nat.lt_of_lt_of_le Nat.two_pos size.two_le
  constructor
  · intro slot working
    have held := h.producer
    have hslot : slot = q.head ∧ q.accepted.length + 1 < q.popped.length + size.N := by
      cases hp : q.producer with
      | idle | loaded => simp [hp, Pushing.slot] at working
      | checked item head next =>
        rw [hp] at held
        simp only [hp, Pushing.slot, Option.some.injEq] at working
        exact ⟨working ▸ held.1, held.2.2⟩
      | written item head next =>
        rw [hp] at held
        simp only [hp, Pushing.slot, Option.some.injEq] at working
        exact ⟨working ▸ held.1, held.2.2.1⟩
    exact ⟨hslot.1, by rw [hslot.1, h.head_eq]; exact Nat.mod_lt _ positive, hslot.2⟩
  · intro slot working
    have held := h.consumer
    have hslot : slot = q.tail ∧ q.popped.length < q.accepted.length := by
      cases hc : q.consumer with
      | idle | loaded => simp [hc, Popping.slot] at working
      | checked tail =>
        rw [hc] at held
        simp only [hc, Popping.slot, Option.some.injEq] at working
        exact ⟨working ▸ held.1, held.2⟩
      | read tail item =>
        rw [hc] at held
        simp only [hc, Popping.slot, Option.some.injEq] at working
        obtain ⟨bound, _⟩ := List.getElem?_eq_some_iff.mp held.2
        exact ⟨working ▸ held.1, bound⟩
    exact ⟨hslot.1, by rw [hslot.1, h.tail_eq]; exact Nat.mod_lt _ positive, hslot.2⟩

theorem refused_full {T : Type} {size : SpscSize} {q t : SpscQueue T} (h : Consistent size q)
    (step : q.next size .pushLoadTail = some t) (refused : t.producer = .idle) :
    q.accepted.length = q.popped.length + (size.N - 1) := by
  simp only [next] at step
  split at step
  next item head at_ =>
    have held : head = q.head := by
      have := h.producer
      rwa [at_] at this
    split at step
    next full =>
      rw [held, h.head_eq, size.advance_mod, h.tail_eq] at full
      have room := h.room
      have behind := popped_le h
      by_contra other
      exact slots_differ (N := size.N) (b := q.popped.length) (a := q.accepted.length + 1)
        (by omega) (by omega) full
    next => cases Option.some.inj step; cases refused
  next => simp at step

theorem none_empty {T : Type} {size : SpscSize} {q t : SpscQueue T} (h : Consistent size q)
    (step : q.next size .popLoadHead = some t) (none : t.consumer = .idle) : q.accepted = q.popped := by
  simp only [next] at step
  split at step
  next tail at_ =>
    have held : tail = q.tail := by
      have := h.consumer
      rwa [at_] at this
    split at step
    next empty =>
      rw [held, h.head_eq, h.tail_eq] at empty
      have room := h.room
      have behind := popped_le h
      refine (h.popped_prefix.eq_of_length (Nat.le_antisymm behind ?_)).symm
      by_contra ahead
      exact slots_differ (N := size.N) (b := q.popped.length) (a := q.accepted.length) (by omega)
        (by omega) empty.symm
    next => cases Option.some.inj step; cases none
  next => simp at step

end SpscQueue

end PwDart
