import Mathlib.Data.List.Basic

namespace PwDart

def PW_ID_CORE : UInt32 := 0

/-- The core events the client listens to. -/
inductive CoreEvent
  | done (id : UInt32) (seq : Int)
  | error (id : UInt32) (seq : Int) (res : Int) (message : Option String)
deriving DecidableEq

/-- What `connect` keeps of the round it is in. -/
structure SyncState where
  syncDone : Bool := false
  syncSeq : Int := 0
deriving DecidableEq

/-- `on_core_done_event`. -/
def SyncState.onCoreDone (s : SyncState) (id : UInt32) (seq : Int) : SyncState :=
  if id = PW_ID_CORE ∧ seq = s.syncSeq then { s with syncDone := true } else s

/-- An error is posted to Dart and changes nothing here. -/
def SyncState.onCoreEvent (s : SyncState) : CoreEvent → SyncState
  | .done id seq => s.onCoreDone id seq
  | .error _ _ _ _ => s

/-- One call of `pw_loop_iterate`: the core callbacks it made and what it returned. -/
structure Iteration where
  callbacks : List CoreEvent
  result : Int
deriving DecidableEq

/-- Which of the client's pointers are set. -/
structure PwDartClient where
  connected : Bool := false
  loop : Bool := false
  context : Bool := false
  core : Bool := false
  coreListener : Bool := false
  registryPw : Bool := false
  registry : Bool := false
  params : Bool := false
  links : Bool := false
  loopEventSource : Bool := false
  loopThread : Bool := false
  sync : SyncState := {}
deriving DecidableEq

/-- What PipeWire answers in one call of `connect`: which constructors succeed, what the two calls
of `pw_core_sync` return, and the iterations of the loop. -/
structure ConnectScript where
  mainLoopNew : Bool := true
  contextNew : Bool := true
  contextConnect : Bool := true
  getRegistry : Bool := true
  firstSeq : Int
  secondSeq : Int
  iterations : List Iteration

/-- A round of the handshake: its sync number, the iterations it took and whether it was left. -/
structure SyncRound where
  seq : Int
  iterations : List Iteration
  left : Bool
deriving DecidableEq

/-- The wait loop of a round: its client, the iterations it took, those that remain, and whether it
was left. -/
structure Waited where
  sync : SyncState
  taken : List Iteration
  rest : List Iteration
  left : Bool

def waitForDone (sync : SyncState) (script : List Iteration) : Waited :=
  if sync.syncDone then ⟨sync, [], script, true⟩
  else
    match script with
    | [] => ⟨sync, [], [], false⟩
    | iteration :: rest =>
      if iteration.result < 0 then
        ⟨iteration.callbacks.foldl SyncState.onCoreEvent sync, [iteration], rest, true⟩
      else
        let waited := waitForDone (iteration.callbacks.foldl SyncState.onCoreEvent sync) rest
        { waited with taken := iteration :: waited.taken }

/-- The rounds that were begun, the state they left and whether the last was left. -/
structure RoundsOutcome where
  sync : SyncState
  rounds : List SyncRound
  finished : Bool

def syncRounds (sync : SyncState) : List Int → List Iteration → RoundsOutcome
  | [], _ => ⟨sync, [], true⟩
  | seq :: seqs, script =>
    let waited := waitForDone ⟨false, seq⟩ script
    if waited.left then
      let later := syncRounds waited.sync seqs waited.rest
      { later with rounds := ⟨seq, waited.taken, true⟩ :: later.rounds }
    else ⟨waited.sync, [⟨seq, waited.taken, false⟩], false⟩

/-- What became of a call: what it returned, if it has, and the rounds it went through. -/
structure Connecting where
  returned : Option Bool
  client : PwDartClient
  rounds : List SyncRound

namespace PwDartClient

/-- `connect` from the point where everything it talks through is there: the two rounds, then the
loop thread. -/
def settle (client : PwDartClient) (script : ConnectScript) : Connecting :=
  let handshake := syncRounds client.sync [script.firstSeq, script.secondSeq] script.iterations
  let client := { client with
    registry := true, params := true, links := true, loopEventSource := true, sync := handshake.sync }
  if handshake.finished then
    ⟨some true, { client with connected := true, loopThread := true }, handshake.rounds⟩
  else ⟨none, client, handshake.rounds⟩

def connect (client : PwDartClient) (script : ConnectScript) : Connecting :=
  if client.connected then ⟨some true, client, []⟩
  else if !script.mainLoopNew then ⟨some false, { client with loop := false }, []⟩
  else if !script.contextNew then ⟨some false, { client with loop := false, context := false }, []⟩
  else if !script.contextConnect then
    ⟨some false, { client with loop := false, context := false, core := false }, []⟩
  else if !script.getRegistry then
    ⟨some false, { client with
      loop := false, context := false, core := false, coreListener := true, registryPw := false }, []⟩
  else
    settle { client with
      loop := true, context := true, core := true, coreListener := true, registryPw := true } script

/-- `loop_`, `context_`, `core_`, `registry_pw_` and the sub-components are released and reset. -/
def Released (client : PwDartClient) : Prop :=
  client.loop = false ∧ client.context = false ∧ client.core = false ∧ client.registryPw = false ∧
    client.registry = false ∧ client.params = false ∧ client.links = false

end PwDartClient

def Iteration.hasDone (iteration : Iteration) (seq : Int) : Bool :=
  iteration.callbacks.any fun
    | .done id s => id = PW_ID_CORE ∧ s = seq
    | .error _ _ _ _ => false

def Iteration.hasCoreError (iteration : Iteration) : Bool :=
  iteration.callbacks.any fun
    | .done _ _ => false
    | .error id _ _ _ => id = PW_ID_CORE

/-- The round's own done event arrived in it. -/
def SyncRound.Done (round : SyncRound) : Prop := ∃ i ∈ round.iterations, i.hasDone round.seq

/-- A fatal error on the core object arrived in it. -/
def SyncRound.Failed (round : SyncRound) : Prop := ∃ i ∈ round.iterations, i.hasCoreError

/-- What `connect` is to keep to, in whatever it has done so far. -/
structure Settles (call : Connecting) : Prop where
  left_done : ∀ round ∈ call.rounds, round.left → round.Done ∨ round.Failed
  success : call.returned = some true ∨ call.client.connected → call.rounds.length = 2 ∧
    ∀ round ∈ call.rounds, round.left ∧ round.Done
  failure : ∀ round ∈ call.rounds, round.Failed →
    call.returned = some false ∧ call.client.Released

/-- In the rounds with these sync numbers no error on the core object arrives, and no iteration
before the done event of its round returns a negative result. -/
def Undisturbed : List Iteration → List Int → Prop
  | [], _ => True
  | _ :: _, [] => True
  | iteration :: rest, seq :: seqs =>
    iteration.hasCoreError = false ∧
      if iteration.hasDone seq then Undisturbed rest seqs
      else 0 ≤ iteration.result ∧ Undisturbed rest (seq :: seqs)

theorem undisturbed_nil_right (script : List Iteration) : Undisturbed script [] := by
  cases script <;> trivial

/-- The core callbacks of an iteration set the flag when the round's own done event is among them. -/
theorem foldl_onCoreEvent (callbacks : List CoreEvent) (sync : SyncState) :
    callbacks.foldl SyncState.onCoreEvent sync =
      ⟨sync.syncDone || Iteration.hasDone ⟨callbacks, 0⟩ sync.syncSeq, sync.syncSeq⟩ := by
  induction callbacks generalizing sync with
  | nil => simp [Iteration.hasDone]
  | cons event callbacks ih =>
    rw [List.foldl_cons, ih]
    cases event with
    | done id seq =>
      by_cases own : id = PW_ID_CORE ∧ seq = sync.syncSeq
      · simp [SyncState.onCoreEvent, SyncState.onCoreDone, own, Iteration.hasDone]
      · have other : (decide (id = PW_ID_CORE) && decide (seq = sync.syncSeq)) = false := by
          simpa using own
        simp [SyncState.onCoreEvent, SyncState.onCoreDone, own, Iteration.hasDone, other]
    | error => rfl

theorem waitForDone_of_done {sync : SyncState} (done : sync.syncDone = true) (script : List Iteration) :
    waitForDone sync script = ⟨sync, [], script, true⟩ := by
  unfold waitForDone
  simp [done]

theorem undisturbed_cons_iff (script : List Iteration) (seq : Int) (seqs : List Int) :
    Undisturbed script (seq :: seqs) ↔
      (∀ i ∈ (waitForDone ⟨false, seq⟩ script).taken, i.hasCoreError = false) ∧
      ((waitForDone ⟨false, seq⟩ script).left →
        (∃ i ∈ (waitForDone ⟨false, seq⟩ script).taken, i.hasDone seq) ∧
          Undisturbed (waitForDone ⟨false, seq⟩ script).rest seqs) := by
  induction script with
  | nil => simp [Undisturbed, waitForDone]
  | cons iteration rest ih =>
    have after := foldl_onCoreEvent iteration.callbacks ⟨false, seq⟩
    have same : Iteration.hasDone ⟨iteration.callbacks, 0⟩ seq = iteration.hasDone seq := rfl
    simp only [Bool.false_or, same] at after
    unfold waitForDone
    simp only [Bool.false_eq_true, if_false, Undisturbed, after]
    by_cases negative : iteration.result < 0
    · by_cases done : iteration.hasDone seq <;> simp [negative, done, Int.not_le.mpr negative]
    · by_cases done : iteration.hasDone seq
      · simp [negative, done, waitForDone_of_done]
      · simp only [negative, if_false, done, Int.not_lt.mp negative, true_and, ih, Bool.false_eq_true,
          List.mem_cons, forall_eq_or_imp, exists_eq_or_imp, false_or, and_assoc]

theorem undisturbed_iff (sync : SyncState) (seqs : List Int) (script : List Iteration) :
    Undisturbed script seqs ↔ ∀ round ∈ (syncRounds sync seqs script).rounds,
      ¬round.Failed ∧ (round.left → round.Done) := by
  induction seqs generalizing sync script with
  | nil => simp [undisturbed_nil_right, syncRounds]
  | cons seq seqs ih =>
    rw [undisturbed_cons_iff]
    simp only [syncRounds]
    by_cases left : (waitForDone ⟨false, seq⟩ script).left
    · rw [ih (waitForDone ⟨false, seq⟩ script).sync]
      simp [left, SyncRound.Failed, SyncRound.Done, and_assoc]
    · simp [left, SyncRound.Failed]

theorem syncRounds_finished {sync : SyncState} {seqs : List Int} {script : List Iteration}
    (finished : (syncRounds sync seqs script).finished) :
    (syncRounds sync seqs script).rounds.length = seqs.length ∧
      ∀ round ∈ (syncRounds sync seqs script).rounds, round.left := by
  induction seqs generalizing sync script with
  | nil => simp [syncRounds]
  | cons seq seqs ih =>
    simp only [syncRounds] at finished ⊢
    split at finished
    next left =>
      obtain ⟨length, all⟩ := ih finished
      simp [left, length]
      exact all
    next => simp at finished

namespace PwDartClient

/-- Whether the constructors of `connect` all succeed, so that it comes to its rounds. -/
def Opens (script : ConnectScript) : Prop :=
  script.mainLoopNew ∧ script.contextNew ∧ script.contextConnect ∧ script.getRegistry

theorem connect_of_unopened {client : PwDartClient} (fresh : client.connected = false)
    {script : ConnectScript} (unopened : ¬Opens script) :
    ∃ client', client.connect script = ⟨some false, client', []⟩ ∧ client'.connected = false := by
  cases hl : script.mainLoopNew <;> cases hc : script.contextNew <;>
    cases hcc : script.contextConnect <;> cases hr : script.getRegistry <;>
    simp_all [connect, Opens]

theorem connect_of_opened {client : PwDartClient} (fresh : client.connected = false)
    {script : ConnectScript} (opens : Opens script) :
    client.connect script = settle { client with
      loop := true, context := true, core := true, coreListener := true, registryPw := true } script := by
  obtain ⟨hl, hc, hcc, hr⟩ := opens
  simp [connect, fresh, hl, hc, hcc, hr]

theorem rounds_settle (client : PwDartClient) (script : ConnectScript) :
    (client.settle script).rounds =
      (syncRounds client.sync [script.firstSeq, script.secondSeq] script.iterations).rounds := by
  simp only [settle]
  split <;> rfl

/-- The rounds never make `settle` give up, so it keeps to the contract when none of them fails and
each that was left was done. -/
theorem settle_settles_iff {client : PwDartClient} (fresh : client.connected = false)
    (script : ConnectScript) :
    Settles (client.settle script) ↔ ∀ round ∈ (client.settle script).rounds,
      ¬round.Failed ∧ (round.left → round.Done) := by
  have outcome : (client.settle script).returned ≠ some false ∧
      ((client.settle script).returned = some true ∨ (client.settle script).client.connected →
        (client.settle script).rounds.length = 2 ∧
          ∀ round ∈ (client.settle script).rounds, round.left) := by
    simp only [settle]
    split
    next finished => exact ⟨by simp, fun _ => syncRounds_finished finished⟩
    next => simp [fresh]
  constructor
  · intro settles round hround
    have unfailed : ¬round.Failed := fun failed => outcome.1 (settles.failure round hround failed).1
    exact ⟨unfailed, fun left => (settles.left_done round hround left).resolve_right unfailed⟩
  · intro quiet
    refine ⟨fun round hround left => Or.inl ((quiet round hround).2 left), fun returned => ?_,
      fun round hround failed => absurd failed (quiet round hround).1⟩
    obtain ⟨two, left⟩ := outcome.2 returned
    exact ⟨two, fun round hround =>
      ⟨left round hround, (quiet round hround).2 (left round hround)⟩⟩

/-- `connect` keeps to its contract exactly when no core error arrives in its rounds and no negative
result interrupts one before its done event. -/
theorem connect_settles_iff {client : PwDartClient} (fresh : client.connected = false)
    (script : ConnectScript) :
    Settles (client.connect script) ↔
      (Opens script → Undisturbed script.iterations [script.firstSeq, script.secondSeq]) := by
  by_cases opens : Opens script
  · rw [connect_of_opened fresh opens, settle_settles_iff (by exact fresh), rounds_settle, undisturbed_iff client.sync]
    exact ⟨fun quiet _ => quiet, fun quiet => quiet opens⟩
  · obtain ⟨client', stopped, unset⟩ := connect_of_unopened fresh opens
    rw [stopped]
    exact ⟨fun _ opened => absurd opened opens, fun _ => ⟨by simp, by simp [unset], by simp⟩⟩

/-- Two interrupted iterations, and `connect` reports success without a single done event. -/
theorem connect_interrupted :
    ¬Settles (connect {} ⟨true, true, true, true, 1, 2, [⟨[], -4⟩, ⟨[], -4⟩]⟩) := by
  intro settles
  obtain ⟨_, i, hi, done⟩ := (settles.success (Or.inl (by decide))).2 ⟨1, [⟨[], -4⟩], true⟩ (by decide)
  cases List.mem_singleton.mp hi
  exact absurd done (by decide)

/-- A handshake with a stale done event, an error on another object and an interruption that comes
with the last done event. -/
theorem connect_settles_stale :
    Settles (connect {} ⟨true, true, true, true, 1, 2,
      [⟨[.done 0 1, .error 5 0 (-2) none], 1⟩, ⟨[.done 0 1], 1⟩, ⟨[.done 0 2], -4⟩]⟩) := by
  refine (connect_settles_iff rfl _).mpr fun _ => ?_
  simp [Undisturbed, Iteration.hasDone, Iteration.hasCoreError, PW_ID_CORE]

end PwDartClient

end PwDart
