import PwDart.LabelledRun
import PwDart.EventSerializer

namespace PwDart

open Json LabelledRun

/-- `Pointer<Void>`: null, or the native client that a call of `PwClient.connect` obtained. -/
inductive Pointer
  | nullptr
  | client (connection : Nat)
deriving DecidableEq

/-- What `pw_dart_connect` answers, if it can be called. -/
inductive NativeConnect
  | throws
  | returnsNull
  | returnsClient
deriving DecidableEq

/-- What `pw_dart_get_graph_snapshot` answers; a text is given without its terminating zero. -/
inductive NativeSnapshot
  | throws
  | returnsNull
  | returnsText (bytes : ByteArray)

inductive BridgeError
  | stateError
  | native
  | decoding (error : DartError)

/-- `toDartString` of a native text; `utf8.decode` drops a byte order mark. -/
def toDartString (bytes : ByteArray) : DartResult Text :=
  match String.fromUTF8? bytes with
  | none => .error .formatException
  | some text =>
    match text.toList with
    | '\uFEFF' :: cs => .ok (utf16Chars cs)
    | cs => .ok (utf16Chars cs)

structure PwNativeBridge where
  clientHandle : Option Pointer := none
deriving DecidableEq

namespace PwNativeBridge

def isConnected (bridge : PwNativeBridge) : Bool :=
  bridge.clientHandle ≠ none ∧ bridge.clientHandle ≠ some .nullptr

/-- The bridge after `connect`, and what is thrown. -/
def connect (bridge : PwNativeBridge) (answer : NativeConnect) (client : Nat) :
    PwNativeBridge × Except BridgeError Unit :=
  match answer with
  | .throws => (bridge, .error .native)
  | .returnsNull => ({ clientHandle := some .nullptr }, .error .stateError)
  | .returnsClient => ({ clientHandle := some (.client client) }, .ok ())

/-- The bridge after `disconnect`, and what is passed to `pw_dart_disconnect`. -/
def disconnect (bridge : PwNativeBridge) : PwNativeBridge × Option Pointer :=
  match bridge.clientHandle with
  | some pointer => ({ clientHandle := none }, some pointer)
  | none => (bridge, none)

def pwDartGetGraphSnapshot : NativeSnapshot → Except BridgeError Text
  | .throws => .error .native
  | .returnsNull => .ok (utf16 "\x7b\"nodes\":[],\"ports\":[],\"links\":[],\"devices\":[]\x7d")
  | .returnsText bytes => (toDartString bytes).mapError .decoding

def getGraphSnapshot (bridge : PwNativeBridge) (answer : NativeSnapshot) : Except BridgeError PwGraph := do
  if bridge.isConnected then
    let json ← pwDartGetGraphSnapshot answer
    (PwGraph.fromJsonString json).mapError .decoding
  else
    throw .stateError

end PwNativeBridge

/-- What has become of a call of `PwClient.connect`. -/
inductive ConnectPhase
  | failed
  | connected
  | disposing
  | disposed
deriving DecidableEq

/-- A call of `PwClient.connect` that has opened its port. `disconnects` counts how often the handle it
obtained, if it did, was passed to `pw_dart_disconnect`. -/
structure Connection where
  bridge : Nat
  portOpen : Bool
  disconnects : Option Nat
  phase : ConnectPhase
deriving DecidableEq

/-- What the native side answers in one call of `PwClient.connect`; `opens` is whether the library can be
loaded, when a bridge is to be made. -/
structure BridgeAnswers where
  opens : Bool
  connect : NativeConnect
  snapshot : NativeSnapshot

/-- Both native calls succeed, and the text of the snapshot is that of a graph. -/
def BridgeAnswers.Succeed (answers : BridgeAnswers) : Prop :=
  answers.connect = .returnsClient ∧
    ∃ json graph, PwNativeBridge.pwDartGetGraphSnapshot answers.snapshot = .ok json ∧
      PwGraph.fromJsonString json = .ok graph

/-- The bridges of an isolate and the clients that use them, some of them the same one. -/
structure SharedBridges where
  created : Nat := 0
  bridges : Nat → PwNativeBridge := fun _ => {}
  connections : List Connection := []

/-- `finishDispose` is what is left of `dispose` when the controller has closed. -/
inductive BridgeStep
  | connect (bridge : Option Nat) (answers : BridgeAnswers)
  | dispose (client : Nat)
  | finishDispose (client : Nat)

namespace SharedBridges

/-- `connect` from the opening of its port on. -/
def connect (s : SharedBridges) (k : Nat) (answers : BridgeAnswers) : SharedBridges :=
  let i := s.connections.length
  let (bridge, result) := (s.bridges k).connect answers.connect i
  let obtained := if answers.connect = .returnsClient then some 0 else none
  let phase : ConnectPhase :=
    match result, bridge.getGraphSnapshot answers.snapshot with
    | .ok (), .ok _ => .connected
    | _, _ => .failed
  { s with
    bridges := Function.update s.bridges k bridge
    connections := s.connections ++ [⟨k, true, obtained, phase⟩] }

/-- `dispose` up to its `await`. -/
def startDispose (s : SharedBridges) (i : Nat) (c : Connection) : SharedBridges :=
  { s with connections := s.connections.set i { c with portOpen := false, phase := .disposing } }

/-- A call of `pw_dart_disconnect`, which ignores null. -/
def pwDartDisconnect (connections : List Connection) : Option Pointer → List Connection
  | some (.client j) => connections.modify j fun c => { c with disconnects := c.disconnects.map (· + 1) }
  | _ => connections

def finishDispose (s : SharedBridges) (i k : Nat) : SharedBridges :=
  let (bridge, passed) := (s.bridges k).disconnect
  { s with
    bridges := Function.update s.bridges k bridge
    connections := (pwDartDisconnect s.connections passed).modify i fun c => { c with phase := .disposed } }

def next (s : SharedBridges) : BridgeStep → Option SharedBridges
  | .connect none answers =>
    if answers.opens then some ({ s with created := s.created + 1 }.connect s.created answers) else some s
  | .connect (some k) answers => if k < s.created then some (s.connect k answers) else none
  | .dispose i =>
    match s.connections[i]? with
    | some c =>
      match c.phase with
      | .failed => none
      | .connected => some (s.startDispose i c)
      | _ => some s
    | none => none
  | .finishDispose i =>
    match s.connections[i]? with
    | some c => if c.phase = .disposing then some (s.finishDispose i c.bridge) else none
    | none => none

/-- A call that failed has closed its port and given back its handle. A handle is given back once at most,
and once when its client has been disposed; until then its bridge holds it. -/
structure ConnectionReleased (i : Nat) (c : Connection) (bridge : PwNativeBridge) : Prop where
  failed : c.phase = .failed → c.portOpen = false ∧ c.disconnects ≠ some 0
  once : ∀ n, c.disconnects = some n → n ≤ 1
  kept : c.disconnects = some 0 → bridge.clientHandle = some (.client i)
  disposed : c.phase = .disposed → c.disconnects = some 1

def Released (s : SharedBridges) : Prop :=
  ∀ i c, s.connections[i]? = some c → ConnectionReleased i c (s.bridges c.bridge)

/-- The library cannot be loaded, or the call succeeds on a bridge that is not connected. -/
def Clean (s : SharedBridges) : BridgeStep → Prop
  | .connect bridge answers =>
    bridge = none ∧ answers.opens = false ∨
      answers.Succeed ∧ ∀ k, bridge = some k → (s.bridges k).isConnected = false
  | _ => True

structure Held (s : SharedBridges) : Prop where
  unmade : ∀ k, s.created ≤ k → (s.bridges k).isConnected = false
  owned : ∀ k j, (s.bridges k).clientHandle = some (.client j) →
    ∃ c, s.connections[j]? = some c ∧ c.bridge = k ∧ c.disconnects = some 0 ∧ c.phase ≠ .disposed
  opened : ∀ (i : Nat) (c : Connection), s.connections[i]? = some c → c.phase = .failed → c.portOpen = true
  live : s.Released → ∀ (i : Nat) (c : Connection), s.connections[i]? = some c →
    c.phase = .connected ∨ c.phase = .disposing → c.disconnects = some 0

theorem released_start : Released {} := by
  intro i c here
  simp at here

theorem held_start : Held {} where
  unmade k _ := rfl
  owned k j held := by cases held
  opened i c here := by simp at here
  live _ i c here := by simp at here

/-- A handle that a bridge holds after `connect` is the new one or was held before. -/
theorem held_connect {bridge : PwNativeBridge} {answer : NativeConnect} {client j : Nat}
    (held : (bridge.connect answer client).1.clientHandle = some (.client j)) :
    answer = .returnsClient ∧ j = client ∨ bridge.clientHandle = some (.client j) := by
  cases answer with
  | throws => exact Or.inr held
  | returnsNull => simp [PwNativeBridge.connect] at held
  | returnsClient =>
    have same : client = j := by simpa [PwNativeBridge.connect] using held
    exact Or.inl ⟨rfl, same.symm⟩

theorem getGraphSnapshot_isOk (client : Nat) (answer : NativeSnapshot) :
    (∃ graph, PwNativeBridge.getGraphSnapshot ⟨some (.client client)⟩ answer = .ok graph) ↔
      ∃ json graph, PwNativeBridge.pwDartGetGraphSnapshot answer = .ok json ∧
        PwGraph.fromJsonString json = .ok graph := by
  have shown : PwNativeBridge.getGraphSnapshot ⟨some (.client client)⟩ answer =
      PwNativeBridge.pwDartGetGraphSnapshot answer >>= fun json =>
        (PwGraph.fromJsonString json).mapError .decoding := rfl
  rw [shown]
  cases read : PwNativeBridge.pwDartGetGraphSnapshot answer with
  | error e => simp [Except.bind, Bind.bind]
  | ok json =>
    cases decoded : PwGraph.fromJsonString json with
    | error e => simp [Except.bind, Bind.bind, decoded, Except.mapError]
    | ok graph => simp [Except.bind, Bind.bind, decoded, Except.mapError]

theorem connections_connect (s : SharedBridges) (k : Nat) (answers : BridgeAnswers) :
    ∃ phase, (s.connect k answers).connections = s.connections ++
        [⟨k, true, if answers.connect = .returnsClient then some 0 else none, phase⟩] ∧
      (phase = .connected ∧ answers.Succeed ∨ phase = .failed ∧ ¬answers.Succeed) := by
  refine ⟨_, rfl, ?_⟩
  unfold BridgeAnswers.Succeed
  cases answers.connect with
  | throws => exact Or.inr ⟨rfl, by simp⟩
  | returnsNull => exact Or.inr ⟨rfl, by simp⟩
  | returnsClient =>
    rw [← getGraphSnapshot_isOk s.connections.length]
    simp only
    cases PwNativeBridge.getGraphSnapshot ⟨some (.client s.connections.length)⟩ answers.snapshot with
    | error e => exact Or.inr ⟨rfl, by simp⟩
    | ok graph => exact Or.inl ⟨rfl, by simp⟩

theorem bridges_connect (s : SharedBridges) (k : Nat) (answers : BridgeAnswers) (j : Nat) :
    (s.connect k answers).bridges j =
      if j = k then ((s.bridges k).connect answers.connect s.connections.length).1 else s.bridges j := by
  simp only [connect, Function.update_apply]

/-- What a bridge holds after a call of `connect`. -/
theorem clientHandle_connect {s : SharedBridges} {k j b : Nat} {answers : BridgeAnswers}
    (held : ((s.connect k answers).bridges b).clientHandle = some (.client j)) :
    b = k ∧ answers.connect = .returnsClient ∧ j = s.connections.length ∨
      (s.bridges b).clientHandle = some (.client j) := by
  rw [bridges_connect] at held
  split at held
  next here =>
    rcases held_connect held with ⟨obtained, new⟩ | old
    · exact Or.inl ⟨here, obtained, new⟩
    · exact Or.inr (here ▸ old)
  next => exact Or.inr held

theorem connection_before {s : SharedBridges} {i : Nat} {c : Connection} (here : s.connections[i]? = some c)
    (k : Nat) (answers : BridgeAnswers) : (s.connect k answers).connections[i]? = some c := by
  obtain ⟨phase, connections, _⟩ := connections_connect s k answers
  have bound := (List.getElem?_eq_some_iff.mp here).1
  rw [connections, List.getElem?_append_left bound, here]

theorem released_of_connect {s : SharedBridges} {k : Nat} {answers : BridgeAnswers}
    (after : (s.connect k answers).Released) : s.Released := by
  intro i c here
  have bound := (List.getElem?_eq_some_iff.mp here).1
  obtain ⟨failed, once, kept, disposed⟩ := after i c (connection_before here k answers)
  refine ⟨failed, once, fun live => ?_, disposed⟩
  rcases clientHandle_connect (kept live) with ⟨_, _, rfl⟩ | old
  · exact absurd bound (Nat.lt_irrefl _)
  · exact old

theorem held_after_connect {s : SharedBridges} (h : s.Held) {k : Nat} (made : k < s.created)
    (answers : BridgeAnswers) : (s.connect k answers).Held := by
  obtain ⟨phase, connections, outcome⟩ := connections_connect s k answers
  have split {i : Nat} {c : Connection} (here : (s.connect k answers).connections[i]? = some c) :
      s.connections[i]? = some c ∨
        c = ⟨k, true, if answers.connect = .returnsClient then some 0 else none, phase⟩ := by
    rw [connections] at here
    rcases Nat.lt_or_ge i s.connections.length with bound | bound
    · rw [List.getElem?_append_left bound] at here
      exact Or.inl here
    · rw [List.getElem?_append_right bound] at here
      exact Or.inr (List.mem_singleton.mp (List.mem_of_getElem? here))
  constructor
  · intro b above
    have other : b ≠ k := Nat.ne_of_gt (Nat.lt_of_lt_of_le made above)
    rw [bridges_connect, if_neg other]
    exact h.unmade b above
  · intro b j held
    rcases clientHandle_connect held with ⟨rfl, obtained, rfl⟩ | old
    · refine ⟨⟨b, true, some 0, phase⟩, ?_, rfl, rfl, ?_⟩
      · rw [connections, if_pos obtained, List.getElem?_concat_length]
      · rcases outcome with ⟨rfl, _⟩ | ⟨rfl, _⟩ <;> simp
    · obtain ⟨c, here, own, live⟩ := h.owned b j old
      exact ⟨c, connection_before here k answers, own, live⟩
  · intro i c here failed
    rcases split here with old | rfl
    · exact h.opened i c old failed
    · rfl
  · intro after i c here open_
    rcases split here with old | rfl
    · exact h.live (released_of_connect after) i c old open_
    · rcases outcome with ⟨_, succeed⟩ | ⟨failed, _⟩
      · exact if_pos succeed.1
      · simp [failed] at open_

theorem released_connect {s : SharedBridges} (released : s.Released) {k : Nat} {answers : BridgeAnswers}
    (succeed : answers.Succeed) (free : (s.bridges k).isConnected = false) : (s.connect k answers).Released := by
  intro i c here
  obtain ⟨phase, connections, outcome⟩ := connections_connect s k answers
  have connected : phase = .connected := by
    rcases outcome with ⟨same, _⟩ | ⟨_, fails⟩
    · exact same
    · exact absurd succeed fails
  rw [connections] at here
  rcases Nat.lt_or_ge i s.connections.length with bound | bound
  · rw [List.getElem?_append_left bound] at here
    obtain ⟨failed, once, kept, disposed⟩ := released i c here
    refine ⟨failed, once, fun live => ?_, disposed⟩
    have before := kept live
    have other : c.bridge ≠ k := by
      rintro rfl
      simp [PwNativeBridge.isConnected, before] at free
    rw [bridges_connect, if_neg other]
    exact before
  · rw [List.getElem?_append_right bound, List.getElem?_singleton] at here
    split at here
    next last =>
      have new : i = s.connections.length := by omega
      cases Option.some.inj here
      refine ⟨fun failed => ?_, fun n count => ?_, fun _ => ?_, fun disposed => ?_⟩
      · simp [connected] at failed
      · rw [if_pos succeed.1] at count
        cases count
        exact Nat.zero_le 1
      · simp [bridges_connect, succeed.1, PwNativeBridge.connect, new]
      · simp [connected] at disposed
    next => cases here

/-- A call that succeeds on a bridge that is not connected keeps everything released; any other does not. -/
theorem released_connect_iff {s : SharedBridges} (h : s.Held) (released : s.Released) (k : Nat)
    (answers : BridgeAnswers) :
    (s.connect k answers).Released ↔ answers.Succeed ∧ (s.bridges k).isConnected = false := by
  constructor
  · intro after
    obtain ⟨phase, connections, outcome⟩ := connections_connect s k answers
    have last := after s.connections.length _ (by rw [connections, List.getElem?_concat_length])
    have succeed : answers.Succeed := by
      rcases outcome with ⟨_, succeed⟩ | ⟨failed, _⟩
      · exact succeed
      · have closed := (last.failed failed).1
        cases closed
    refine ⟨succeed, ?_⟩
    by_contra connected
    obtain ⟨j, held⟩ : ∃ j, (s.bridges k).clientHandle = some (.client j) := by
      cases handle : (s.bridges k).clientHandle with
      | none => simp [PwNativeBridge.isConnected, handle] at connected
      | some pointer =>
        cases pointer with
        | nullptr => simp [PwNativeBridge.isConnected, handle] at connected
        | client j => exact ⟨j, rfl⟩
    obtain ⟨c, here, own, live, _⟩ := h.owned k j held
    have bound := (List.getElem?_eq_some_iff.mp here).1
    have overwritten := (after j c (connection_before here k answers)).kept live
    rw [own, bridges_connect, if_pos rfl, succeed.1] at overwritten
    have same : s.connections.length = j := by simpa [PwNativeBridge.connect] using overwritten
    omega
  · rintro ⟨succeed, free⟩
    exact released_connect released succeed free

theorem connection_startDispose {s : SharedBridges} {i : Nat} {c : Connection} (here : s.connections[i]? = some c)
    (j : Nat) : (s.startDispose i c).connections[j]? =
      if j = i then some { c with portOpen := false, phase := .disposing } else s.connections[j]? := by
  have bound := (List.getElem?_eq_some_iff.mp here).1
  unfold startDispose
  by_cases same : j = i
  · rw [if_pos same, same]
    exact List.getElem?_set_self bound
  · rw [if_neg same]
    exact List.getElem?_set_ne (Ne.symm same)

theorem released_startDispose_iff {s : SharedBridges} {i : Nat} {c : Connection}
    (here : s.connections[i]? = some c) (connected : c.phase = .connected) :
    (s.startDispose i c).Released ↔ s.Released := by
  constructor
  · intro after j d there
    by_cases same : j = i
    · subst same
      cases Option.some.inj (there.symm.trans here)
      obtain ⟨_, once, kept, _⟩ := after j _ ((connection_startDispose here j).trans (if_pos rfl))
      exact ⟨by simp [connected], once, kept, by simp [connected]⟩
    · exact after j d ((connection_startDispose here j).trans ((if_neg same).trans there))
  · intro before j d there
    rw [connection_startDispose here] at there
    split at there
    next same =>
      subst same
      cases Option.some.inj there
      obtain ⟨_, once, kept, _⟩ := before j c here
      exact ⟨by simp, once, kept, by simp⟩
    next => exact before j d there

theorem held_startDispose {s : SharedBridges} (h : s.Held) {i : Nat} {c : Connection}
    (here : s.connections[i]? = some c) (connected : c.phase = .connected) : (s.startDispose i c).Held := by
  constructor
  · exact h.unmade
  · intro k j held
    obtain ⟨d, there, own, live, going⟩ := h.owned k j held
    by_cases same : j = i
    · subst same
      cases Option.some.inj (there.symm.trans here)
      exact ⟨_, (connection_startDispose here j).trans (if_pos rfl), own, live, by simp⟩
    · exact ⟨d, (connection_startDispose here j).trans ((if_neg same).trans there), own, live, going⟩
  · intro j d there failed
    rw [connection_startDispose here] at there
    split at there
    next =>
      cases Option.some.inj there
      cases failed
    next => exact h.opened j d there failed
  · intro after j d there open_
    have before := (released_startDispose_iff here connected).mp after
    rw [connection_startDispose here] at there
    split at there
    next same =>
      cases Option.some.inj there
      exact h.live before i c here (Or.inl connected)
    next => exact h.live before j d there open_

/-- `disconnect` gives up the handle, whatever it is. -/
theorem disconnect_eq (bridge : PwNativeBridge) : bridge.disconnect = ({}, bridge.clientHandle) := by
  cases bridge with
  | mk handle =>
    cases handle with
    | none => rfl
    | some pointer => rfl

theorem bridges_finishDispose (s : SharedBridges) (i k b : Nat) :
    (s.finishDispose i k).bridges b = if b = k then {} else s.bridges b := by
  simp only [finishDispose, disconnect_eq, Function.update_apply]

theorem getElem?_pwDartDisconnect (connections : List Connection) (handle : Option Pointer) (j : Nat) :
    (pwDartDisconnect connections handle)[j]? = connections[j]?.map fun c =>
      { c with disconnects := if handle = some (.client j) then c.disconnects.map (· + 1) else c.disconnects } := by
  cases handle with
  | none => simp [pwDartDisconnect]
  | some pointer =>
    cases pointer with
    | nullptr => simp [pwDartDisconnect]
    | client m =>
      rw [pwDartDisconnect, List.getElem?_modify]
      cases connections[j]? with
      | none => rfl
      | some c => by_cases same : m = j <;> simp [same]

/-- A connection after the rest of a `dispose` on bridge `k`. -/
def finishConnection (s : SharedBridges) (i k j : Nat) (c : Connection) : Connection :=
  { c with
    disconnects :=
      if (s.bridges k).clientHandle = some (.client j) then c.disconnects.map (· + 1) else c.disconnects
    phase := if j = i then .disposed else c.phase }

theorem connection_finishDispose (s : SharedBridges) (i k j : Nat) :
    (s.finishDispose i k).connections[j]? = s.connections[j]?.map (s.finishConnection i k j) := by
  simp only [finishDispose, disconnect_eq, List.getElem?_modify, getElem?_pwDartDisconnect]
  cases s.connections[j]? with
  | none => rfl
  | some c => by_cases same : i = j <;> simp [finishConnection, same, eq_comm]

section

variable {s : SharedBridges} {i : Nat} {c : Connection} (h : s.Held) (here : s.connections[i]? = some c)
  (disposing : c.phase = .disposing)

include h here disposing

theorem released_of_finishDispose (after : (s.finishDispose i c.bridge).Released) : s.Released := by
  intro j d there
  have finished := after j _ ((connection_finishDispose s i c.bridge j).trans (congrArg _ there))
  obtain ⟨failed, once, kept, disposed⟩ := finished
  simp only [finishConnection, bridges_finishDispose] at failed once kept disposed
  have notSame : d.phase ≠ .disposing → j ≠ i := by
    rintro other rfl
    cases Option.some.inj (there.symm.trans here)
    exact other disposing
  by_cases held : (s.bridges c.bridge).clientHandle = some (.client j)
  · obtain ⟨e, there', own, live, going⟩ := h.owned c.bridge j held
    cases Option.some.inj (there'.symm.trans there)
    refine ⟨fun lost => ?_, fun n count => ?_, fun _ => own ▸ held, fun gone => absurd gone going⟩
    · have closed := (failed (by rw [if_neg (notSame (by simp [lost])), lost])).1
      rw [h.opened j d there lost] at closed
      cases closed
    · rw [live] at count
      cases count
      exact Nat.zero_le 1
  · simp only [if_neg held] at failed once kept disposed
    refine ⟨fun lost => failed ?_, once, fun live => ?_, fun gone => disposed ?_⟩
    · rw [if_neg (notSame (by simp [lost])), lost]
    · have still := kept live
      split at still
      next => cases still
      next => exact still
    · rw [gone, ite_self]

theorem released_finishDispose (released : s.Released) : (s.finishDispose i c.bridge).Released := by
  have held : (s.bridges c.bridge).clientHandle = some (.client i) :=
    (released i c here).kept (h.live released i c here (Or.inr disposing))
  intro j d' there
  rw [connection_finishDispose] at there
  obtain ⟨d, found, rfl⟩ := Option.map_eq_some_iff.mp there
  by_cases same : j = i
  · subst same
    cases Option.some.inj (found.symm.trans here)
    have live := h.live released j c here (Or.inr disposing)
    have done : (s.finishConnection j c.bridge j c).disconnects = some 1 := by
      simp [finishConnection, held, live]
    refine ⟨fun lost => ?_, fun n count => ?_, fun live => ?_, fun _ => done⟩
    · simp [finishConnection] at lost
    · rw [done] at count
      exact le_of_eq (Option.some.inj count).symm
    · rw [done] at live
      cases live
  · have other : ¬(s.bridges c.bridge).clientHandle = some (.client j) := by
      rw [held]
      simpa using Ne.symm same
    obtain ⟨failed, once, kept, disposed⟩ := released j d found
    simp only [finishConnection, if_neg other, if_neg same, bridges_finishDispose]
    refine ⟨failed, once, fun live => ?_, disposed⟩
    rw [if_neg]
    · exact kept live
    · intro shared
      exact other (shared ▸ kept live)

theorem held_finishDispose : (s.finishDispose i c.bridge).Held := by
  constructor
  · intro b above
    rw [bridges_finishDispose]
    split
    · rfl
    · exact h.unmade b above
  · intro b j held
    rw [bridges_finishDispose] at held
    split at held
    next => cases held
    next apart =>
      obtain ⟨d, there, own, live, going⟩ := h.owned b j held
      have other : ¬(s.bridges c.bridge).clientHandle = some (.client j) := by
        intro twice
        obtain ⟨e, there', own', _⟩ := h.owned c.bridge j twice
        cases Option.some.inj (there'.symm.trans there)
        exact apart (own.symm.trans own')
      have notSame : j ≠ i := by
        rintro rfl
        cases Option.some.inj (there.symm.trans here)
        exact apart own.symm
      refine ⟨_, (connection_finishDispose s i c.bridge j).trans (congrArg _ there), own, ?_, ?_⟩
      · simpa [finishConnection, other] using live
      · simpa [finishConnection, notSame] using going
  · intro j d' there failed
    rw [connection_finishDispose] at there
    obtain ⟨d, found, rfl⟩ := Option.map_eq_some_iff.mp there
    by_cases same : j = i
    · simp [finishConnection, same] at failed
    · exact h.opened j d found (by simpa [finishConnection, same] using failed)
  · intro after j d' there open_
    have released := released_of_finishDispose h here disposing after
    have held : (s.bridges c.bridge).clientHandle = some (.client i) :=
      (released i c here).kept (h.live released i c here (Or.inr disposing))
    rw [connection_finishDispose] at there
    obtain ⟨d, found, rfl⟩ := Option.map_eq_some_iff.mp there
    have same : j ≠ i := by
      rintro rfl
      simp [finishConnection] at open_
    have live := h.live released j d found (by simpa [finishConnection, same] using open_)
    simpa [finishConnection, held, Ne.symm same] using live

end

theorem step_cases {s t : SharedBridges} {l : BridgeStep} (step : s.next l = some t) :
    t = s ∧ s.Clean l ∨
      (∃ k answers, (l = .connect (some k) answers ∧ t = s.connect k answers ∨
        l = .connect none answers ∧ answers.opens = true ∧
          t = { s with created := s.created + 1 }.connect s.created answers)) ∨
      (∃ i c, l = .dispose i ∧ s.connections[i]? = some c ∧ c.phase = .connected ∧ t = s.startDispose i c) ∨
      ∃ i c, l = .finishDispose i ∧ s.connections[i]? = some c ∧ c.phase = .disposing ∧
        t = s.finishDispose i c.bridge := by
  cases l with
  | connect bridge answers =>
    cases bridge with
    | none =>
      simp only [next] at step
      split at step
      next opens => exact Or.inr (Or.inl ⟨0, answers, Or.inr ⟨rfl, opens, (Option.some.inj step).symm⟩⟩)
      next closed => exact Or.inl ⟨(Option.some.inj step).symm, Or.inl ⟨rfl, by simpa using closed⟩⟩
    | some k =>
      obtain ⟨_, same⟩ := Option.ite_none_right_eq_some.mp step
      exact Or.inr (Or.inl ⟨k, answers, Or.inl ⟨rfl, (Option.some.inj same).symm⟩⟩)
  | dispose i =>
    simp only [next] at step
    split at step
    next c here =>
      split at step
      next => cases step
      next connected =>
        exact Or.inr (Or.inr (Or.inl ⟨i, c, rfl, here, connected, (Option.some.inj step).symm⟩))
      next => exact Or.inl ⟨(Option.some.inj step).symm, trivial⟩
    next => cases step
  | finishDispose i =>
    simp only [next] at step
    split at step
    next c here =>
      obtain ⟨disposing, same⟩ := Option.ite_none_right_eq_some.mp step
      exact Or.inr (Or.inr (Or.inr ⟨i, c, rfl, here, disposing, (Option.some.inj same).symm⟩))
    next => cases step

theorem held_made {s : SharedBridges} (h : s.Held) :
    ({ s with created := s.created + 1 } : SharedBridges).Held where
  unmade k above := h.unmade k (Nat.le_of_succ_le above)
  owned := h.owned
  opened := h.opened
  live := h.live

theorem held_step {s t : SharedBridges} {l : BridgeStep} (h : s.Held) (step : s.next l = some t) : t.Held := by
  rcases step_cases step with ⟨rfl, _⟩ | ⟨k, answers, ⟨rfl, rfl⟩ | ⟨rfl, _, rfl⟩⟩ |
    ⟨i, c, rfl, here, connected, rfl⟩ | ⟨i, c, rfl, here, disposing, rfl⟩
  · exact h
  · obtain ⟨made, _⟩ := Option.ite_none_right_eq_some.mp step
    exact held_after_connect h made answers
  · exact held_after_connect (held_made h) (Nat.lt_succ_self _) answers
  · exact held_startDispose h here connected
  · exact held_finishDispose h here disposing

/-- A step keeps everything released exactly if it is clean. -/
theorem released_step_iff {s t : SharedBridges} {l : BridgeStep} (h : s.Held) (released : s.Released)
    (step : s.next l = some t) : t.Released ↔ s.Clean l := by
  rcases step_cases step with ⟨rfl, clean⟩ | ⟨k, answers, ⟨rfl, rfl⟩ | ⟨rfl, opens, rfl⟩⟩ |
    ⟨i, c, rfl, here, connected, rfl⟩ | ⟨i, c, rfl, here, disposing, rfl⟩
  · exact ⟨fun _ => clean, fun _ => released⟩
  · rw [released_connect_iff h released]
    simp [Clean]
  · have free := h.unmade s.created (Nat.le_refl _)
    rw [released_connect_iff (held_made h) released]
    simp [Clean, opens, free]
  · exact ⟨fun _ => trivial, fun _ => (released_startDispose_iff here connected).mpr released⟩
  · exact ⟨fun _ => trivial, fun _ => released_finishDispose h here disposing released⟩

/-- Everything is released in all states of a run exactly if no call of `connect` fails once its port is
open, and none is made on a bridge that is connected. -/
theorem connect_releases_iff {s : SharedBridges} {ls : List BridgeStep} (run : Run (Takes next) {} ls s) :
    (∀ pre u, pre <+: ls → Run (Takes next) {} pre u → u.Released) ↔ Run (Guarded next Clean) {} ls s :=
  always_iff_guarded held_start (fun _ _ _ h step => held_step h step) released_start
    (fun _ _ _ h released step => released_step_iff h released step) run

theorem snapshot_returnsNull : ∃ json graph,
    PwNativeBridge.pwDartGetGraphSnapshot .returnsNull = .ok json ∧ PwGraph.fromJsonString json = .ok graph :=
  ⟨_, {}, rfl, rfl⟩

def bridgeAgain : List BridgeStep :=
  [.connect none ⟨true, .returnsClient, .returnsNull⟩, .dispose 0, .finishDispose 0,
    .connect (some 0) ⟨true, .returnsClient, .returnsNull⟩]

/-- A bridge is used again when its client has been disposed. -/
theorem connect_releases_iff_bridgeAgain :
    ∃ s, Run (Takes next) {} bridgeAgain s ∧ s.Released := by
  obtain ⟨s, clean⟩ : ∃ s, Run (Guarded next Clean) {} bridgeAgain s := by
    refine ⟨_, Run.next (Run.next (Run.next (Run.single ⟨?_, rfl⟩) ⟨trivial, rfl⟩) ⟨trivial, rfl⟩)
      ⟨?_, rfl⟩⟩
    · refine Or.inr ⟨⟨rfl, snapshot_returnsNull⟩, fun k same => ?_⟩
      cases same
      rfl
    · exact Or.inr ⟨⟨rfl, snapshot_returnsNull⟩, by simp⟩
  have run := clean.imp fun _ _ _ step => step.2
  exact ⟨s, run, (connect_releases_iff run).mpr clean _ s (List.prefix_refl _) run⟩

def notUtf8 : BridgeAnswers := ⟨true, .returnsClient, .returnsText ⟨#[0x7B, 0xFF, 0x7D]⟩⟩

/-- The snapshot holds a text of another client that is no UTF-8: the port stays open and the native client
runs on. -/
theorem failed_connect_leaks : ∃ s, Run (Takes next) {} [.connect none notUtf8] s ∧
    s.connections = [⟨0, true, some 0, .failed⟩] ∧ ¬s.Released := by
  have failed : (connect { created := 1 } 0 notUtf8).connections = [⟨0, true, some 0, .failed⟩] := by
    decide +kernel
  refine ⟨_, Run.single rfl, failed, fun released => ?_⟩
  have closed := ((released 0 ⟨0, true, some 0, .failed⟩ (congrArg (fun cs => cs[0]?) failed)).failed rfl).1
  cases closed

end SharedBridges

end PwDart
