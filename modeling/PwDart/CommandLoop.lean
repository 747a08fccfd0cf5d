import PwDart.SpscFifo

namespace PwDart

open LabelledRun

inductive Command
  | createLink (outputPortId inputPortId : UInt32) (requestId : Int64)
  | destroyLink (linkId : UInt32) (requestId : Int64)
  | setParam (nodeId : UInt32) (paramJson : String) (requestId : Int64)
  | enumParams (nodeId : UInt32) (requestId : Int64)
  | getSnapshot (requestId : Int64)
  | disconnect
deriving DecidableEq

/-- The calls the Dart thread makes; the parameter text may be a null pointer. -/
inductive CommandCall
  | createLink (outputPortId inputPortId : UInt32)
  | destroyLink (linkId : UInt32)
  | setNodeParam (nodeId : UInt32) (paramJson : Option String)

/-- What a call on a connected client pushes; without one it returns -1 at once. -/
def CommandCall.command : CommandCall → Option Command
  | createLink outputPortId inputPortId => some (.createLink outputPortId inputPortId 0)
  | destroyLink linkId => some (.destroyLink linkId 0)
  | setNodeParam nodeId paramJson => paramJson.map fun json => .setParam nodeId json 0

/-- The size of `CommandQueue`. -/
def commandSlots : SpscSize := ⟨256, by decide, by decide, by decide⟩

/-- Where the loop thread is: in its poll, in a callback of another source or in `on_loop_event`. -/
inductive LoopAt
  | polling
  | inCallback
  | draining
deriving DecidableEq

/-- A connected client. `signalled` is the state of `loop_event_source_`, `taken` the commands whose
call returned 0 and `processed` those handed to `process_command`. -/
structure CommandLoop where
  queue : SpscQueue Command := { buffer := fun _ => .createLink 0 0 0 }
  loop : LoopAt := .polling
  signalled : Bool := false
  taken : List Command := []
  processed : List Command := []

/-- One step of the Dart thread (`call`, `push`) or of the loop thread. -/
inductive CommandStep
  | call (c : CommandCall)
  | push
  | wake
  | finish
  | event
  | drain (movedFrom : Command)

namespace CommandLoop

/-- The Dart thread goes on with the `try_push` of its call. -/
def push (s : CommandLoop) : Option CommandLoop :=
  match s.queue.producer with
  | .idle => none
  | .loaded _ _ => (s.queue.next commandSlots .pushLoadTail).map fun q => { s with queue := q }
  | .checked _ _ _ => (s.queue.next commandSlots .pushWrite).map fun q => { s with queue := q }
  | .written item _ _ =>
    (s.queue.next commandSlots .pushStoreHead).map fun q =>
      { s with queue := q, taken := s.taken ++ [item] }

/-- The loop thread goes on with `drain_commands`. -/
def drain (s : CommandLoop) (movedFrom : Command) : Option CommandLoop :=
  match s.queue.consumer with
  | .idle => (s.queue.next commandSlots .popLoadTail).map fun q => { s with queue := q }
  | .loaded tail =>
    (s.queue.next commandSlots .popLoadHead).map fun q =>
      { s with queue := q, loop := if tail = s.queue.head then .polling else .draining }
  | .checked _ =>
    (s.queue.next commandSlots (.popRead movedFrom)).map fun q => { s with queue := q }
  | .read _ item =>
    (s.queue.next commandSlots .popStoreTail).map fun q =>
      { s with queue := q, processed := s.processed ++ [item] }

/-- Nothing in the program calls `pw_loop_signal_event`, so no step sets `signalled`. -/
def next (s : CommandLoop) : CommandStep → Option CommandLoop
  | .call c =>
    match s.queue.producer, c.command with
    | .idle, none => some s
    | .idle, some cmd =>
      (s.queue.next commandSlots (.pushLoadHead cmd)).map fun q => { s with queue := q }
    | _, _ => none
  | .push => s.push
  | .wake => if s.loop = .polling then some { s with loop := .inCallback } else none
  | .finish => if s.loop = .inCallback then some { s with loop := .polling } else none
  | .event =>
    if s.loop = .polling ∧ s.signalled then some { s with loop := .draining, signalled := false }
    else none
  | .drain movedFrom => if s.loop = .draining then s.drain movedFrom else none

/-- What the missing signal comes to: nothing has ever left the queue. -/
structure Undrained (s : CommandLoop) : Prop where
  consistent : SpscQueue.Consistent commandSlots s.queue
  quiet : s.signalled = false
  elsewhere : s.loop ≠ .draining
  popped : s.queue.popped = []
  processed : s.processed = []
  taken : s.taken = s.queue.accepted

theorem undrained_start : Undrained {} :=
  ⟨SpscQueue.consistent_start commandSlots _, rfl, by decide, rfl, rfl, rfl⟩

/-- A step of the Dart thread is one of its steps on the queue, or changes nothing. -/
theorem next_cases {s t : CommandLoop} {l : CommandStep} (h : Undrained s)
    (step : s.next l = some t) :
    (∃ c cmd q, l = .call c ∧ c.command = some cmd ∧
      s.queue.next commandSlots (.pushLoadHead cmd) = some q ∧ t = { s with queue := q }) ∨
    (∃ item head next, l = .push ∧ s.queue.producer = .written item head next ∧
      s.queue.next commandSlots .pushStoreHead = some t.queue ∧
      t = { s with queue := t.queue, taken := s.taken ++ [item] }) ∨
    (∃ m, (m = .pushLoadTail ∨ m = .pushWrite) ∧ l = .push ∧
      s.queue.next commandSlots m = some t.queue ∧ t = { s with queue := t.queue }) ∨
    ((∀ c, l = .call c → c.command = none) ∧ ∃ loop, loop ≠ .draining ∧ t = { s with loop := loop }) := by
  cases l with
  | call c =>
    simp only [next] at step
    split at step
    next none =>
      cases Option.some.inj step
      exact Or.inr (Or.inr (Or.inr ⟨by rintro _ ⟨⟩; exact none, s.loop, h.elsewhere, rfl⟩))
    next cmd _ hcmd =>
      obtain ⟨q, hq, rfl⟩ := Option.map_eq_some_iff.mp step
      exact Or.inl ⟨c, cmd, q, rfl, hcmd, hq, rfl⟩
    next => simp at step
  | push =>
    simp only [next, push] at step
    split at step
    next => simp at step
    next =>
      obtain ⟨q, hq, rfl⟩ := Option.map_eq_some_iff.mp step
      exact Or.inr (Or.inr (Or.inl ⟨_, Or.inl rfl, rfl, hq, rfl⟩))
    next =>
      obtain ⟨q, hq, rfl⟩ := Option.map_eq_some_iff.mp step
      exact Or.inr (Or.inr (Or.inl ⟨_, Or.inr rfl, rfl, hq, rfl⟩))
    next item head next at_ =>
      obtain ⟨q, hq, rfl⟩ := Option.map_eq_some_iff.mp step
      exact Or.inr (Or.inl ⟨item, head, next, rfl, at_, hq, rfl⟩)
  | wake =>
    obtain ⟨_, same⟩ := Option.ite_none_right_eq_some.mp step
    cases Option.some.inj same
    exact Or.inr (Or.inr (Or.inr ⟨by simp, .inCallback, by decide, rfl⟩))
  | finish =>
    obtain ⟨_, same⟩ := Option.ite_none_right_eq_some.mp step
    cases Option.some.inj same
    exact Or.inr (Or.inr (Or.inr ⟨by simp, .polling, by decide, rfl⟩))
  | event =>
    obtain ⟨⟨_, signalled⟩, _⟩ := Option.ite_none_right_eq_some.mp step
    simp [h.quiet] at signalled
  | drain movedFrom =>
    obtain ⟨draining, _⟩ := Option.ite_none_right_eq_some.mp step
    exact absurd draining h.elsewhere

/-- A step of the producer other than its store moves no value. -/
theorem lists_of_push {q r : SpscQueue Command} {m : SpscStep Command}
    (h : SpscQueue.Consistent commandSlots q) (step : q.next commandSlots m = some r)
    (kind : (∃ cmd, m = .pushLoadHead cmd) ∨ m = .pushLoadTail ∨ m = .pushWrite) :
    r.accepted = q.accepted ∧ r.popped = q.popped := by
  obtain ⟨_, accepted, popped⟩ := SpscQueue.step_linearizes h step
  have none : BoundedFifo.pushed (SpscQueue.linearized commandSlots q m) = [] ∧
      BoundedFifo.popped (SpscQueue.linearized commandSlots q m) = [] := by
    rcases kind with ⟨cmd, rfl⟩ | rfl | rfl
    · exact ⟨rfl, rfl⟩
    · simp only [SpscQueue.linearized]
      split
      next => split <;> exact ⟨rfl, rfl⟩
      next => exact ⟨rfl, rfl⟩
    · exact ⟨rfl, rfl⟩
  rw [none.1] at accepted
  rw [none.2] at popped
  exact ⟨by simpa using accepted, by simpa using popped⟩

theorem lists_of_store {q r : SpscQueue Command} {item : Command} {head next : Nat}
    (h : SpscQueue.Consistent commandSlots q) (step : q.next commandSlots .pushStoreHead = some r)
    (at_ : q.producer = .written item head next) :
    r.accepted = q.accepted ++ [item] ∧ r.popped = q.popped := by
  obtain ⟨_, accepted, popped⟩ := SpscQueue.step_linearizes h step
  simp only [SpscQueue.linearized, at_] at accepted popped
  exact ⟨by simpa [BoundedFifo.pushed] using accepted, by simpa [BoundedFifo.popped] using popped⟩

theorem undrained_step {s t : CommandLoop} {l : CommandStep} (h : Undrained s)
    (step : s.next l = some t) : Undrained t := by
  rcases next_cases h step with ⟨c, cmd, q, _, _, hq, rfl⟩ | ⟨item, head, _, _, at_, hq, same⟩ |
    ⟨m, kind, _, hq, same⟩ | ⟨_, loop, elsewhere, rfl⟩
  · obtain ⟨accepted, popped⟩ := lists_of_push h.consistent hq (Or.inl ⟨cmd, rfl⟩)
    exact { h with
      consistent := SpscQueue.consistent_step h.consistent hq
      popped := popped.trans h.popped
      taken := h.taken.trans accepted.symm }
  · obtain ⟨accepted, popped⟩ := lists_of_store h.consistent hq at_
    rw [same]
    exact { h with
      consistent := SpscQueue.consistent_step h.consistent hq
      popped := popped.trans h.popped
      taken := by rw [accepted, h.taken] }
  · obtain ⟨accepted, popped⟩ := lists_of_push h.consistent hq (Or.inr kind)
    rw [same]
    exact { h with
      consistent := SpscQueue.consistent_step h.consistent hq
      popped := popped.trans h.popped
      taken := h.taken.trans accepted.symm }
  · exact { h with elsewhere := elsewhere }

theorem undrained_run {ls : List CommandStep} {s : CommandLoop} (run : Run (Takes next) {} ls s) :
    Undrained s :=
  run.invariant undrained_start fun _ _ _ => undrained_step

/-- A call of `create_link`, `destroy_link` or `set_node_param` that has a command to push. -/
def Commands (ls : List CommandStep) : Prop := ∃ c, .call c ∈ ls ∧ c.command ≠ none

theorem commands_append_singleton (ls : List CommandStep) (l : CommandStep) :
    Commands (ls ++ [l]) ↔ Commands ls ∨ ∃ c, l = .call c ∧ c.command ≠ none := by
  constructor
  · rintro ⟨c, hmem, hcmd⟩
    rcases List.mem_append.mp hmem with hmem | hmem
    · exact Or.inl ⟨c, hmem, hcmd⟩
    · exact Or.inr ⟨c, (List.mem_singleton.mp hmem).symm, hcmd⟩
  · rintro (⟨c, hmem, hcmd⟩ | ⟨c, rfl, hcmd⟩)
    · exact ⟨c, List.mem_append_left _ hmem, hcmd⟩
    · exact ⟨c, by simp, hcmd⟩

theorem producer_of_push {q r : SpscQueue Command} {m : SpscStep Command}
    (h : SpscQueue.Consistent commandSlots q) (step : q.next commandSlots m = some r)
    (kind : m = .pushLoadTail ∨ m = .pushWrite) :
    q.producer ≠ .idle ∧ (r.producer ≠ .idle ∨ r.accepted ≠ []) := by
  have accepted := (lists_of_push h step (Or.inr kind)).1
  rcases kind with rfl | rfl
  · refine ⟨fun idle => by simp [SpscQueue.next, idle] at step, ?_⟩
    by_contra quiet
    obtain ⟨idle, nothing⟩ := not_or.mp quiet
    have full := SpscQueue.refused_full h step (not_not.mp idle)
    rw [accepted, not_not] at nothing
    simp [nothing, commandSlots] at full
  · simp only [SpscQueue.next] at step
    split at step
    next item head next at_ => cases Option.some.inj step; simp [at_]
    next => simp at step

/-- Whether a command has been called for shows in the queue or in the call that is under way. -/
theorem commands_iff_pending {ls : List CommandStep} {s : CommandLoop}
    (run : Run (Takes next) {} ls s) :
    Commands ls ↔ s.queue.producer ≠ .idle ∨ s.queue.accepted ≠ [] := by
  induction run with
  | start => simp [Commands]
  | @next ls l s t run step ih =>
    have h := undrained_run run
    rw [commands_append_singleton, ih]
    rcases next_cases h step with ⟨c, cmd, q, rfl, hcmd, hq, rfl⟩ | ⟨item, head, _, rfl, at_, hq, _⟩ |
      ⟨m, kind, rfl, hq, _⟩ | ⟨silent, loop, _, rfl⟩
    · have called : q.producer ≠ .idle := by
        simp only [SpscQueue.next] at hq
        split at hq
        next => cases Option.some.inj hq; simp
        next => simp at hq
      simp [called, hcmd]
    · simp [at_, (lists_of_store h.consistent hq at_).1]
    · obtain ⟨before, after⟩ := producer_of_push h.consistent hq kind
      simp [before, after]
    · have none : ¬∃ c, l = .call c ∧ c.command ≠ none := by
        rintro ⟨c, hl, hcmd⟩
        exact hcmd (silent c hl)
      simp only [none, or_false]

/-- What has been processed is always a prefix of what was accepted; and while the loop thread waits
in its poll, unsignalled, and the Dart thread is between calls, it is the whole of it exactly when
no command has been called for. -/
theorem commands_drained_iff {ls : List CommandStep} {s : CommandLoop}
    (run : Run (Takes next) {} ls s) :
    s.processed <+: s.taken ∧
    (¬Commands ls → s.processed = s.taken ∧ s.queue.contents = []) ∧
    (s.loop = .polling → s.signalled = false → s.queue.producer = .idle →
      (s.processed = s.taken ∧ s.queue.contents = [] ↔ ¬Commands ls)) := by
  have h := undrained_run run
  have pending := commands_iff_pending run
  have settled (none : ¬Commands ls) : s.processed = s.taken ∧ s.queue.contents = [] := by
    rw [pending, not_or, not_not, not_not] at none
    exact ⟨by rw [h.processed, h.taken, none.2], by simp [SpscQueue.contents, none.2]⟩
  refine ⟨by rw [h.processed]; exact List.nil_prefix, settled, fun _ _ idle => ⟨?_, settled⟩⟩
  rintro ⟨whole, _⟩ commands
  rcases pending.mp commands with busy | waiting
  · exact busy idle
  · rw [h.processed, h.taken] at whole
    exact waiting whole.symm

/-- A link that is asked for is accepted, and then the loop thread waits for a signal that nobody
sends. -/
theorem created_link_stranded :
    ∃ s : CommandLoop, Run (Takes next) {} [.call (.createLink 1 2), .push, .push, .push] s ∧
      s.loop = .polling ∧ s.signalled = false ∧ s.queue.producer = .idle ∧
      s.taken = [.createLink 1 2 0] ∧ s.processed = [] ∧ s.queue.contents = [.createLink 1 2 0] := by
  have outcome : (([.call (.createLink 1 2), .push, .push, .push] : List CommandStep).foldlM next
      {}).map (fun s => (s.loop, s.signalled, s.queue.producer, s.taken, s.processed,
        s.queue.contents)) = some (.polling, false, .idle, [.createLink 1 2 0], [],
          [.createLink 1 2 0]) := rfl
  obtain ⟨s, found, same⟩ := Option.map_eq_some_iff.mp outcome
  simp only [Prod.mk.injEq] at same
  exact ⟨s, run_takes_iff.mpr found, same⟩

/-- A call without a parameter text and a callback of another source leave nothing waiting. -/
theorem commands_drained_nullParam :
    ∃ s : CommandLoop, Run (Takes next) {} [.wake, .call (.setNodeParam 3 none), .finish] s ∧
      s.processed = s.taken ∧ s.queue.contents = [] := by
  have outcome : (([.wake, .call (.setNodeParam 3 none), .finish] : List CommandStep).foldlM next
      {}).isSome := by decide
  obtain ⟨s, found⟩ := Option.isSome_iff_exists.mp outcome
  have run := run_takes_iff.mpr found
  exact ⟨s, run, (commands_drained_iff run).2.1 (by simp [Commands, CommandCall.command])⟩

end CommandLoop

end PwDart
