import PwDart.BoundedFifo
import PwDart.SpscQueue

namespace PwDart

open LabelledRun

namespace SpscQueue

/-- The values accepted and not yet popped. -/
def contents {T : Type} (q : SpscQueue T) : List T := q.accepted.drop q.popped.length

/-- The operation a step completes: a call takes effect at its store, or at the load that makes it
return without one. -/
def linearized {T : Type} (size : SpscSize) (q : SpscQueue T) : SpscStep T → List (BoundedFifo.Op T)
  | .pushLoadTail =>
    match q.producer with
    | .loaded _ head => if size.advance head = q.tail then [.full] else []
    | _ => []
  | .pushStoreHead =>
    match q.producer with
    | .written item _ _ => [.push item]
    | _ => []
  | .popLoadHead =>
    match q.consumer with
    | .loaded tail => if tail = q.head then [.empty] else []
    | _ => []
  | .popStoreTail =>
    match q.consumer with
    | .read _ item => [.pop item]
    | _ => []
  | _ => []

theorem contents_length {T : Type} (q : SpscQueue T) :
    q.contents.length = q.accepted.length - q.popped.length :=
  List.length_drop

theorem step_linearizes {T : Type} {size : SpscSize} {q t : SpscQueue T} {l : SpscStep T}
    (h : Consistent size q) (step : q.next size l = some t) :
    Run (BoundedFifo.Step (size.N - 1)) q.contents (linearized size q l) t.contents ∧
      t.accepted = q.accepted ++ BoundedFifo.pushed (linearized size q l) ∧
      t.popped = q.popped ++ BoundedFifo.popped (linearized size q l) := by
  have behind := popped_le h
  cases l with
  | pushLoadHead | pushWrite | popLoadTail | popRead =>
    simp only [next] at step
    split at step
    next =>
      cases Option.some.inj step
      exact ⟨Run.start, (List.append_nil _).symm, (List.append_nil _).symm⟩
    next => simp at step
  | pushLoadTail =>
    have full := refused_full h step
    simp only [next] at step
    split at step
    next item head at_ =>
      split at step
      next stop =>
        cases Option.some.inj step
        simp only [linearized, at_, if_pos stop]
        refine ⟨Run.single (BoundedFifo.Step.full ?_), by simp [BoundedFifo.pushed],
          by simp [BoundedFifo.popped]⟩
        rw [contents_length, full rfl]
        omega
      next go =>
        cases Option.some.inj step
        simp only [linearized, at_, if_neg go]
        exact ⟨Run.start, by simp [BoundedFifo.pushed], by simp [BoundedFifo.popped]⟩
    next => simp at step
  | popLoadHead =>
    have nothing := none_empty h step
    simp only [next] at step
    split at step
    next tail at_ =>
      split at step
      next stop =>
        cases Option.some.inj step
        have empty : q.contents = [] := by simp [contents, nothing rfl]
        simp only [linearized, at_, if_pos stop]
        refine ⟨?_, by simp [BoundedFifo.pushed], by simp [BoundedFifo.popped]⟩
        change Run _ q.contents _ q.contents
        rw [empty]
        exact Run.single BoundedFifo.Step.empty
      next go =>
        cases Option.some.inj step
        simp only [linearized, at_, if_neg go]
        exact ⟨Run.start, by simp [BoundedFifo.pushed], by simp [BoundedFifo.popped]⟩
    next => simp at step
  | pushStoreHead =>
    simp only [next] at step
    split at step
    next item head next at_ =>
      obtain ⟨_, _, room, _⟩ : ProducerHolds size q (.written item head next) := at_ ▸ h.producer
      cases Option.some.inj step
      simp only [linearized, at_]
      refine ⟨?_, by simp [BoundedFifo.pushed], by simp [BoundedFifo.popped]⟩
      have appended : (q.accepted ++ [item]).drop q.popped.length = q.contents ++ [item] :=
        List.drop_append_of_le_length behind
      change Run _ q.contents _ ((q.accepted ++ [item]).drop q.popped.length)
      rw [appended]
      refine Run.single (BoundedFifo.Step.push ?_)
      rw [contents_length]
      omega
    next => simp at step
  | popStoreTail =>
    simp only [next] at step
    split at step
    next tail item at_ =>
      obtain ⟨_, held⟩ : ConsumerHolds q (.read tail item) := at_ ▸ h.consumer
      obtain ⟨bound, first⟩ := List.getElem?_eq_some_iff.mp held
      cases Option.some.inj step
      simp only [linearized, at_]
      refine ⟨?_, by simp [BoundedFifo.pushed], by simp [BoundedFifo.popped]⟩
      have split : q.contents = item :: q.accepted.drop (q.popped.length + 1) := by
        rw [contents, List.drop_eq_getElem_cons bound, first]
      rw [split]
      simp only [contents, List.length_append, List.length_singleton]
      exact Run.single BoundedFifo.Step.pop
    next => simp at step

/-- The queue is a bounded first-in first-out queue of `N - 1` values, seen at these instants. -/
theorem run_linearizes {T : Type} {size : SpscSize} {buffer : Nat → T} {ls : List (SpscStep T)}
    {q : SpscQueue T} (run : Run (Takes (next size)) { buffer := buffer } ls q) :
    ∃ ops, Run (BoundedFifo.Step (size.N - 1)) [] ops q.contents ∧
      BoundedFifo.pushed ops = q.accepted ∧ BoundedFifo.popped ops = q.popped := by
  induction run with
  | start => exact ⟨[], Run.start, rfl, rfl⟩
  | next run step ih =>
    obtain ⟨ops, first, pushed, popped⟩ := ih
    obtain ⟨second, more, gone⟩ := step_linearizes (consistent_run run) step
    refine ⟨_, first.trans second, ?_, ?_⟩
    · rw [more, ← pushed]; simp [BoundedFifo.pushed]
    · rw [gone, ← popped]; simp [BoundedFifo.popped]

/-- In every interleaving of one producer with one consumer: values leave in the order they were
accepted, at most `N - 1` wait, a push is refused only when that many do and a pop finds nothing
only when none does, and the two threads never work on one slot. -/
theorem spscQueue_fifo {T : Type} {size : SpscSize} {buffer : Nat → T} {ls : List (SpscStep T)}
    {q : SpscQueue T} (run : Run (Takes (next size)) { buffer := buffer } ls q) :
    q.popped <+: q.accepted ∧
    q.accepted.length - q.popped.length ≤ size.N - 1 ∧
    (∀ t, q.next size .pushLoadTail = some t → t.producer = .idle →
      q.accepted.length = q.popped.length + (size.N - 1)) ∧
    (∀ t, q.next size .popLoadHead = some t → t.consumer = .idle → q.accepted = q.popped) ∧
    ∀ a b, q.producer.slot = some a → q.consumer.slot = some b → a ≠ b := by
  have h := consistent_run run
  obtain ⟨ops, fifo, pushed, popped⟩ := run_linearizes run
  obtain ⟨conserved, bounded⟩ := BoundedFifo.run_conserves fifo
  rw [pushed, popped] at conserved
  rw [contents_length] at bounded
  refine ⟨⟨_, conserved.symm⟩, bounded, fun t => refused_full h, fun t => none_empty h, ?_⟩
  · intro a b pushing popping same
    obtain ⟨rfl, _, room⟩ := (slots_of_threads h).1 a pushing
    obtain ⟨rfl, _, behind⟩ := (slots_of_threads h).2 b popping
    rw [h.head_eq, h.tail_eq] at same
    exact slots_differ behind (by omega) same

end SpscQueue

/-- The slots of `SpscQueue<T, 4>`. -/
def fourSlots : SpscSize := ⟨4, by decide, by decide, by decide⟩

namespace SpscQueue

/-- A push and a pop that overlap step by step, as far as the read of the slot. -/
theorem spscQueue_fifo_overlap :
    ∃ q : SpscQueue Nat, Run (Takes (next fourSlots)) { buffer := fun _ => 0 }
        [.pushLoadHead 5, .popLoadTail, .pushLoadTail, .pushWrite, .pushStoreHead, .pushLoadHead 6,
          .popLoadHead, .pushLoadTail, .popRead 0] q ∧
      ∀ a b, q.producer.slot = some a → q.consumer.slot = some b → a ≠ b := by
  have outcome : ([.pushLoadHead 5, .popLoadTail, .pushLoadTail, .pushWrite, .pushStoreHead,
      .pushLoadHead 6, .popLoadHead, .pushLoadTail, .popRead 0].foldlM (next fourSlots)
        ({ buffer := fun _ => 0 } : SpscQueue Nat)).isSome := by decide
  obtain ⟨q, found⟩ := Option.isSome_iff_exists.mp outcome
  have run := run_takes_iff.mpr found
  exact ⟨q, run, (spscQueue_fifo run).2.2.2.2⟩

end SpscQueue

end PwDart
