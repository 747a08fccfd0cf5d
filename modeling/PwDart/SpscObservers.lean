import PwDart.SpscFifo

namespace PwDart

open LabelledRun

/-- `capacity()`. -/
def SpscSize.capacity (size : SpscSize) : Nat := size.N - 1

/-- `(head - tail) & mask_` on `std::size_t`. -/
def SpscSize.difference (size : SpscSize) (head tail : Nat) : Nat :=
  ((head + 2 ^ 64 - tail) % 2 ^ 64) &&& (size.N - 1)

inductive QueueThread
  | producer
  | consumer
  | other (i : Nat)
deriving DecidableEq

def QueueThread.Owns (t : QueueThread) : Prop := t = .producer ∨ t = .consumer

def SpscStep.thread {T : Type} : SpscStep T → QueueThread
  | pushLoadHead _ | pushLoadTail | pushWrite | pushStoreHead => .producer
  | popLoadTail | popLoadHead | popRead _ | popStoreTail => .consumer

/-- What a call of `size` or `empty` has loaded. The operands of `==` are loaded in either order. -/
inductive Observing
  | idle
  | sizeHead (head : Nat)
  | emptyHead (head : Nat)
  | emptyTail (tail : Nat)
deriving DecidableEq

inductive Observed
  | size (n : Nat)
  | empty (b : Bool)
deriving DecidableEq

/-- A call that has returned, with the states the queue was in from its first load to its last. -/
structure Observation (T : Type) where
  thread : QueueThread
  result : Observed
  states : List (SpscQueue T)

structure ObservedQueue (T : Type) where
  queue : SpscQueue T
  observing : QueueThread → Observing := fun _ => .idle
  states : QueueThread → List (SpscQueue T) := fun _ => []
  returned : List (Observation T) := []

inductive ObserverStep (T : Type)
  | queue (step : SpscStep T)
  | sizeLoadHead (thread : QueueThread)
  | sizeLoadTail (thread : QueueThread)
  | emptyLoadHead (thread : QueueThread)
  | emptyLoadTail (thread : QueueThread)

def Pushing.isIdle {T : Type} : Pushing T → Bool
  | idle => true
  | _ => false

def Popping.isIdle {T : Type} : Popping T → Bool
  | idle => true
  | _ => false

namespace ObservedQueue

variable {T : Type}

/-- The thread is in no call. -/
def isFree (s : ObservedQueue T) (t : QueueThread) : Bool :=
  s.observing t = .idle &&
    match t with
    | .producer => s.queue.producer.isIdle
    | .consumer => s.queue.consumer.isIdle
    | .other _ => true

def first (s : ObservedQueue T) (t : QueueThread) (loaded : Observing) : ObservedQueue T :=
  { s with observing := Function.update s.observing t loaded, states := Function.update s.states t [s.queue] }

def last (s : ObservedQueue T) (t : QueueThread) (result : Observed) : ObservedQueue T :=
  { s with
    observing := Function.update s.observing t .idle
    returned := s.returned ++ [⟨t, result, s.states t⟩] }

def next (size : SpscSize) (s : ObservedQueue T) : ObserverStep T → Option (ObservedQueue T)
  | .queue step =>
    if s.observing step.thread = .idle then
      (s.queue.next size step).map fun q => { s with queue := q, states := fun t => s.states t ++ [q] }
    else none
  | .sizeLoadHead t => if s.isFree t then some (s.first t (.sizeHead s.queue.head)) else none
  | .sizeLoadTail t =>
    match s.observing t with
    | .sizeHead head => some (s.last t (.size (size.difference head s.queue.tail)))
    | _ => none
  | .emptyLoadHead t =>
    match s.observing t with
    | .idle => if s.isFree t then some (s.first t (.emptyHead s.queue.head)) else none
    | .emptyTail tail => some (s.last t (.empty (s.queue.head = tail)))
    | _ => none
  | .emptyLoadTail t =>
    match s.observing t with
    | .idle => if s.isFree t then some (s.first t (.emptyTail s.queue.tail)) else none
    | .emptyHead head => some (s.last t (.empty (head = s.queue.tail)))
    | _ => none

end ObservedQueue

/-- The result is that of a queue that was there during the call. -/
structure Observation.Exact {T : Type} (size : SpscSize) (o : Observation T) : Prop where
  bounded : ∀ n, o.result = .size n → n ≤ size.capacity
  size : o.thread.Owns → ∀ n, o.result = .size n → ∃ q ∈ o.states, q.contents.length = n
  empty : o.thread.Owns → o.result = .empty true → ∃ q ∈ o.states, q.contents = []
  nonempty : o.thread.Owns → o.result = .empty false → ∃ q ∈ o.states, q.contents ≠ []

theorem SpscSize.difference_le (size : SpscSize) (head tail : Nat) : size.difference head tail ≤ size.capacity :=
  Nat.and_le_right

/-- On a ring of `n` slots, in arithmetic that wraps at a multiple of `n`. -/
theorem wrapped_difference {n laps count held : Nat} (wraps : 0 < laps) (lap : held < n) :
    ((count + held) % n + laps * n - count % n) % n = held := by
  obtain ⟨rest, rfl⟩ : ∃ rest, laps = rest + 1 := ⟨laps - 1, by omega⟩
  have inside : count % n < n := Nat.mod_lt _ (by omega)
  have whole : (rest + 1) * n = rest * n + n := Nat.succ_mul rest n
  rw [← Nat.mod_add_mod count n held]
  rcases Nat.lt_or_ge (count % n + held) n with below | above
  · have ahead : count % n + held + (rest + 1) * n - count % n = held + (rest + 1) * n := by omega
    rw [Nat.mod_eq_of_lt below, ahead, Nat.add_mul_mod_self_right, Nat.mod_eq_of_lt lap]
  · have wrapped : (count % n + held) % n = count % n + held - n := by
      rw [Nat.mod_eq_sub_mod above, Nat.mod_eq_of_lt (by omega)]
    have ahead : count % n + held - n + (rest + 1) * n - count % n = held + rest * n := by omega
    rw [wrapped, ahead, Nat.add_mul_mod_self_right, Nat.mod_eq_of_lt lap]

/-- The difference of two positions less than a lap apart, also where `head` has wrapped below `tail`. -/
theorem SpscSize.difference_mod (size : SpscSize) {count held : Nat} (lap : held < size.N) :
    size.difference ((count + held) % size.N) (count % size.N) = held := by
  obtain ⟨N, power, two_le, fits⟩ := size
  obtain ⟨k, rfl⟩ := (Nat.and_sub_one_eq_zero_iff_isPowerOfTwo (by omega)).mp power
  have small : k < 64 := (Nat.pow_lt_pow_iff_right (by decide)).mp fits
  have laps : (2 : Nat) ^ 64 = 2 ^ (64 - k) * 2 ^ k := by
    rw [← Nat.pow_add]
    congr 1
    omega
  simp only [SpscSize.difference, Nat.and_two_pow_sub_one_eq_mod]
  rw [Nat.mod_mod_of_dvd _ ⟨2 ^ (64 - k), laps.trans (Nat.mul_comm ..)⟩, laps]
  exact wrapped_difference (Nat.two_pow_pos _) lap

namespace SpscQueue

variable {T : Type} {size : SpscSize}

theorem difference_contents {q : SpscQueue T} (h : Consistent size q) :
    size.difference q.head q.tail = q.contents.length := by
  have behind := popped_le h
  have room := h.room
  have count : q.accepted.length = q.popped.length + q.contents.length := by
    rw [contents_length]
    omega
  rw [h.head_eq, h.tail_eq, count]
  exact size.difference_mod (by omega)

theorem head_eq_tail_iff {q : SpscQueue T} (h : Consistent size q) : q.head = q.tail ↔ q.contents = [] := by
  have behind := popped_le h
  have room := h.room
  rw [← List.length_eq_zero_iff, contents_length, h.head_eq, h.tail_eq]
  constructor
  · intro same
    by_contra some
    exact slots_differ (by omega) (by omega) same
  · intro none
    have same : q.accepted.length = q.popped.length := by omega
    rw [same]

/-- What only this thread adds to. -/
def counted (q : SpscQueue T) : QueueThread → List T
  | .producer => q.accepted
  | .consumer => q.popped
  | .other _ => []

theorem counted_step {q t : SpscQueue T} {l : SpscStep T} (step : q.next size l = some t) {thread : QueueThread}
    (other : l.thread ≠ thread) : t.counted thread = q.counted thread := by
  cases thread with
  | other i => rfl
  | producer =>
    cases l with
    | pushLoadHead | pushLoadTail | pushWrite | pushStoreHead => exact absurd rfl other
    | popLoadTail | popRead | popStoreTail =>
      simp only [next] at step
      split at step
      next => cases Option.some.inj step; rfl
      next => cases step
    | popLoadHead =>
      simp only [next] at step
      split at step
      next =>
        split at step
        · cases Option.some.inj step; rfl
        · cases Option.some.inj step; rfl
      next => cases step
  | consumer =>
    cases l with
    | popLoadTail | popLoadHead | popRead | popStoreTail => exact absurd rfl other
    | pushLoadHead | pushWrite | pushStoreHead =>
      simp only [next] at step
      split at step
      next => cases Option.some.inj step; rfl
      next => cases step
    | pushLoadTail =>
      simp only [next] at step
      split at step
      next =>
        split at step
        · cases Option.some.inj step; rfl
        · cases Option.some.inj step; rfl
      next => cases step

/-- Two states between which an owner of the queue has done nothing: what it loads in one of them and in
the other is what it loads in the one or the other. -/
theorem loads_agree {q r : SpscQueue T} (hq : Consistent size q) (hr : Consistent size r) {thread : QueueThread}
    (owns : thread.Owns) (same : q.counted thread = r.counted thread) :
    (∃ m, (m = q ∨ m = r) ∧ m.head = q.head ∧ m.tail = r.tail) ∧
      ∃ m, (m = q ∨ m = r) ∧ m.head = r.head ∧ m.tail = q.tail := by
  rcases owns with rfl | rfl
  · have head : q.head = r.head := by
      rw [hq.head_eq, hr.head_eq]
      exact congrArg (fun items => items.length % size.N) same
    exact ⟨⟨r, Or.inr rfl, head.symm, rfl⟩, ⟨q, Or.inl rfl, head, rfl⟩⟩
  · have tail : q.tail = r.tail := by
      rw [hq.tail_eq, hr.tail_eq]
      exact congrArg (fun items => items.length % size.N) same
    exact ⟨⟨q, Or.inl rfl, rfl, tail⟩, ⟨r, Or.inr rfl, rfl, tail.symm⟩⟩

end SpscQueue

namespace ObservedQueue

variable {T : Type} {size : SpscSize}

open SpscQueue

/-- What a call of an owner has loaded is the index of a state it has seen, since when its own count has
not changed. -/
def Loaded (size : SpscSize) (s : ObservedQueue T) (t : QueueThread) : Observing → Prop
  | .idle => True
  | .sizeHead head | .emptyHead head =>
    ∃ q ∈ s.states t, Consistent size q ∧ q.counted t = s.queue.counted t ∧ head = q.head
  | .emptyTail tail =>
    ∃ q ∈ s.states t, Consistent size q ∧ q.counted t = s.queue.counted t ∧ tail = q.tail

structure Watched (size : SpscSize) (s : ObservedQueue T) : Prop where
  consistent : Consistent size s.queue
  current : ∀ t, s.observing t ≠ .idle → s.queue ∈ s.states t
  loaded : ∀ t, Loaded size s t (s.observing t)
  exact_ : ∀ o ∈ s.returned, o.Exact size

theorem watched_start (buffer : Nat → T) : Watched size { queue := { buffer := buffer } } where
  consistent := consistent_start size buffer
  current t observing := absurd rfl observing
  loaded t := trivial
  exact_ o mem := by cases mem

theorem watched_queue {s : ObservedQueue T} (h : s.Watched size) {l : SpscStep T} {q : SpscQueue T}
    (quiet : s.observing l.thread = .idle) (step : s.queue.next size l = some q) :
    Watched size { s with queue := q, states := fun t => s.states t ++ [q] } where
  consistent := consistent_step h.consistent step
  current t _ := by simp
  loaded t := by
    have held := h.loaded t
    by_cases own : l.thread = t
    · subst own
      simp only [quiet]
      trivial
    · have same := counted_step step own
      cases loading : s.observing t with
      | idle => trivial
      | sizeHead head | emptyHead head | emptyTail tail =>
        rw [loading] at held
        obtain ⟨r, mem, consistent, kept, loaded⟩ := held
        exact ⟨r, List.mem_append_left _ mem, consistent, kept.trans same.symm, loaded⟩
  exact_ := h.exact_

theorem watched_first {s : ObservedQueue T} (h : s.Watched size) (t : QueueThread) {loaded : Observing}
    (now : loaded = .sizeHead s.queue.head ∨ loaded = .emptyHead s.queue.head ∨
      loaded = .emptyTail s.queue.tail) : (s.first t loaded).Watched size where
  consistent := h.consistent
  current u observing := by
    by_cases own : u = t
    · subst own
      simp [first]
    · simp only [first, Function.update_of_ne own] at observing ⊢
      exact h.current u observing
  loaded u := by
    by_cases own : u = t
    · subst own
      have here : s.queue ∈ (s.first u loaded).states u := by simp [first]
      have observing : (s.first u loaded).observing u = loaded := Function.update_self ..
      rw [observing]
      rcases now with rfl | rfl | rfl
      · exact ⟨s.queue, here, h.consistent, rfl, rfl⟩
      · exact ⟨s.queue, here, h.consistent, rfl, rfl⟩
      · exact ⟨s.queue, here, h.consistent, rfl, rfl⟩
    · have held := h.loaded u
      have states : (s.first t loaded).states u = s.states u := Function.update_of_ne own ..
      have observing : (s.first t loaded).observing u = s.observing u := Function.update_of_ne own ..
      rw [observing]
      cases loading : s.observing u with
      | idle => trivial
      | sizeHead head | emptyHead head | emptyTail tail =>
        rw [loading] at held
        obtain ⟨r, mem, rest⟩ := held
        exact ⟨r, states ▸ mem, rest⟩
  exact_ := h.exact_

theorem watched_last {s : ObservedQueue T} (h : s.Watched size) (t : QueueThread) {result : Observed}
    (exact_ : Observation.Exact size ⟨t, result, s.states t⟩) : (s.last t result).Watched size where
  consistent := h.consistent
  current u observing := by
    by_cases own : u = t
    · subst own
      simp [last] at observing
    · simp only [last, Function.update_of_ne own] at observing
      exact h.current u observing
  loaded u := by
    by_cases own : u = t
    · subst own
      have observing : (s.last u result).observing u = .idle := Function.update_self ..
      rw [observing]
      trivial
    · have observing : (s.last t result).observing u = s.observing u := Function.update_of_ne own ..
      rw [observing]
      exact h.loaded u
  exact_ o mem := by
    rcases List.mem_append.mp mem with before | new
    · exact h.exact_ o before
    · rw [List.mem_singleton.mp new]
      exact exact_

/-- The two indices are those of one state that the call has seen. -/
def SeenTogether (size : SpscSize) (states : List (SpscQueue T)) (head tail : Nat) : Prop :=
  ∃ q ∈ states, Consistent size q ∧ q.head = head ∧ q.tail = tail

theorem exact_size {t : QueueThread} {states : List (SpscQueue T)} {head tail : Nat}
    (seen : t.Owns → SeenTogether size states head tail) :
    Observation.Exact size ⟨t, .size (size.difference head tail), states⟩ where
  bounded n same := by
    cases same
    exact size.difference_le head tail
  size owns n same := by
    obtain ⟨q, mem, consistent, rfl, rfl⟩ := seen owns
    cases same
    exact ⟨q, mem, (difference_contents consistent).symm⟩
  empty _ same := by cases same
  nonempty _ same := by cases same

theorem exact_empty {t : QueueThread} {states : List (SpscQueue T)} {head tail : Nat}
    (seen : t.Owns → SeenTogether size states head tail) :
    Observation.Exact size ⟨t, .empty (head = tail), states⟩ where
  bounded n same := by cases same
  size _ n same := by cases same
  empty owns same := by
    obtain ⟨q, mem, consistent, rfl, rfl⟩ := seen owns
    have equal : q.head = q.tail := of_decide_eq_true (Observed.empty.inj same)
    exact ⟨q, mem, (head_eq_tail_iff consistent).mp equal⟩
  nonempty owns same := by
    obtain ⟨q, mem, consistent, rfl, rfl⟩ := seen owns
    have apart : q.head ≠ q.tail := of_decide_eq_false (Observed.empty.inj same)
    exact ⟨q, mem, fun empty => apart ((head_eq_tail_iff consistent).mpr empty)⟩

theorem seen_head {s : ObservedQueue T} (h : s.Watched size) {t : QueueThread} {head : Nat}
    (loading : s.observing t = .sizeHead head ∨ s.observing t = .emptyHead head) (owns : t.Owns) :
    SeenTogether size (s.states t) head s.queue.tail := by
  have held := h.loaded t
  have current : s.queue ∈ s.states t := h.current t (by rcases loading with here | here <;> simp [here])
  obtain ⟨q, mem, consistent, kept, rfl⟩ : Loaded size s t (.sizeHead head) := by
    rcases loading with here | here
    · exact here ▸ held
    · rw [here] at held
      exact held
  obtain ⟨⟨m, rfl | rfl, head, tail⟩, _⟩ := loads_agree consistent h.consistent owns kept
  · exact ⟨m, mem, consistent, head, tail⟩
  · exact ⟨_, current, h.consistent, head, tail⟩

theorem seen_tail {s : ObservedQueue T} (h : s.Watched size) {t : QueueThread} {tail : Nat}
    (loading : s.observing t = .emptyTail tail) (owns : t.Owns) :
    SeenTogether size (s.states t) s.queue.head tail := by
  have held := h.loaded t
  have current : s.queue ∈ s.states t := h.current t (by simp [loading])
  rw [loading] at held
  obtain ⟨q, mem, consistent, kept, rfl⟩ := held
  obtain ⟨_, m, rfl | rfl, head, tail⟩ := loads_agree consistent h.consistent owns kept
  · exact ⟨m, mem, consistent, head, tail⟩
  · exact ⟨_, current, h.consistent, head, tail⟩

theorem watched_step {s t : ObservedQueue T} {l : ObserverStep T} (h : s.Watched size)
    (step : s.next size l = some t) : t.Watched size := by
  cases l with
  | queue l =>
    obtain ⟨quiet, moves⟩ := Option.ite_none_right_eq_some.mp step
    obtain ⟨q, moved, rfl⟩ := Option.map_eq_some_iff.mp moves
    exact watched_queue h quiet moved
  | sizeLoadHead thread =>
    obtain ⟨_, same⟩ := Option.ite_none_right_eq_some.mp step
    cases Option.some.inj same
    exact watched_first h thread (Or.inl rfl)
  | sizeLoadTail thread =>
    simp only [next] at step
    split at step
    next head loading =>
      cases Option.some.inj step
      exact watched_last h thread (exact_size (seen_head h (Or.inl loading)))
    next => cases step
  | emptyLoadHead thread =>
    simp only [next] at step
    split at step
    next =>
      obtain ⟨_, same⟩ := Option.ite_none_right_eq_some.mp step
      cases Option.some.inj same
      exact watched_first h thread (Or.inr (Or.inl rfl))
    next tail loading =>
      cases Option.some.inj step
      exact watched_last h thread (exact_empty (seen_tail h loading))
    next => cases step
  | emptyLoadTail thread =>
    simp only [next] at step
    split at step
    next =>
      obtain ⟨_, same⟩ := Option.ite_none_right_eq_some.mp step
      cases Option.some.inj same
      exact watched_first h thread (Or.inr (Or.inr rfl))
    next head loading =>
      cases Option.some.inj step
      exact watched_last h thread (exact_empty (seen_head h (Or.inr loading)))
    next => cases step

/-- In every interleaving of the producer, the consumer and the observers, `size` and `empty` return to an
owner of the queue what was so at some moment of the call; and `size` never exceeds the capacity. -/
theorem observers_exact {buffer : Nat → T} {ls : List (ObserverStep T)} {s : ObservedQueue T}
    (run : Run (Takes (next size)) { queue := { buffer := buffer } } ls s) : ∀ o ∈ s.returned, o.Exact size :=
  (run.invariant (watched_start buffer) fun _ _ _ h step => watched_step h step).exact_

end ObservedQueue

/-- The slots of `SpscQueue<T, 2>`. -/
def twoSlots : SpscSize := ⟨2, by decide, by decide, by decide⟩

namespace ObservedQueue

/-- The second value is pushed into the first slot again, so that `head` is 0 and `tail` is 1. -/
def wrapped : List (ObserverStep Nat) :=
  [.queue (.pushLoadHead 5), .queue .pushLoadTail, .queue .pushWrite, .queue .pushStoreHead, .queue .popLoadTail,
    .queue .popLoadHead, .queue (.popRead 0), .queue .popStoreTail, .queue (.pushLoadHead 6), .queue .pushLoadTail,
    .queue .pushWrite, .queue .pushStoreHead, .sizeLoadHead .producer, .sizeLoadTail .producer]

theorem observers_exact_wrapped : ∃ (s : ObservedQueue Nat) (o : Observation Nat),
    Run (Takes (next twoSlots)) { queue := { buffer := fun _ => 0 } } wrapped s ∧ o ∈ s.returned ∧
      o.thread = .producer ∧ o.result = .size 1 ∧ ∃ q ∈ o.states, q.contents.length = 1 := by
  have outcome : ((wrapped.foldlM (next twoSlots) { queue := { buffer := fun _ => 0 } }).map fun s =>
      s.returned.map fun o => (o.thread, o.result)) = some [(.producer, .size 1)] := by decide
  obtain ⟨s, found, results⟩ := Option.map_eq_some_iff.mp outcome
  have run := run_takes_iff.mpr found
  obtain ⟨o, only⟩ : ∃ o, s.returned = [o] := by
    apply List.length_eq_one_iff.mp
    simpa using congrArg List.length results
  have mem : o ∈ s.returned := by simp [only]
  rw [only] at results
  obtain ⟨thread, result⟩ := Prod.mk.inj (List.singleton_inj.mp results)
  exact ⟨s, o, run, mem, thread, result, (observers_exact run o mem).size (Or.inl thread) 1 result⟩

end ObservedQueue

end PwDart
