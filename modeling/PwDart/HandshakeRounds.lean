import PwDart.HandshakeView
import PwDart.HandshakeReplay

namespace PwDart

open LabelledRun MarkedQueue RegistryMonitor

inductive InFlight
  | event (event : ServerEvent)
  | request (request : Request)

/-- The sync with this number, or the done event that answers it. -/
def InFlight.ends (seq : Int) : InFlight → Bool
  | event (.done _ n) => n = seq
  | request (.sync n) => n = seq
  | _ => false

def ServerEvent.ends (seq : Int) : ServerEvent → Bool
  | done _ n => n = seq
  | _ => false

namespace Handshake

/-- What is on its way to the client, followed by what is on its way to the server: the answers to
the latter arrive after all of the former. -/
def pipeline (s : Handshake) : List InFlight :=
  s.toClient.map .event ++ s.toServer.map .request

/-- A message that will bring the info of an object, or that it was removed. -/
def Answers (object : ServerObject) (proxy : PwProxy) (kind : Kind) (m : InFlight) : Prop :=
  m = .request (.bind object.id proxy) ∨
    (∃ report : InfoReport, m = .event (.info proxy report) ∧ report.kind = kind) ∨
    m = .event (.globalRemove object)

/-- Such a message is on its way in front of the end of the second round. -/
def Pending (seqs : SyncSeqs) (s : Handshake) (object : ServerObject) (proxy : PwProxy) (kind : Kind) :
    Prop :=
  ∃ m ∈ ahead (InFlight.ends seqs.second) s.pipeline, Answers object proxy kind m

structure Shaken (seqs : SyncSeqs) (s : Handshake) : Prop where
  tracks : Tracks s.monitor s.view s.nextProxy
  ids : (s.objects.map ServerObject.id).Nodup
  unregistered : s.registered = false → s.toServer = [.getRegistry, .sync seqs.first] ∧
    s.toClient = [] ∧ s.view = [] ∧ s.stage = .first ∧ s.sync.syncDone = false ∧ s.atFirstSync = none
  registry_once : s.registered = true → .getRegistry ∉ s.toServer
  replayed : s.registered = true → replayEvents (s.view.map Prod.fst) s.toClient = some s.objects
  own_seq : s.sync.syncSeq = if s.stage = .first then seqs.first else seqs.second
  done_by_core : ∀ id seq, .done id seq ∈ s.toClient → id = PW_ID_CORE
  first_unhandled : s.atFirstSync = none → s.stage = .first ∧ s.sync.syncDone = false ∧
    ∀ id, .done id seqs.first ∉ s.toClient
  second_unsent : s.stage = .first → .sync seqs.second ∉ s.toServer ∧
    ∀ id, .done id seqs.second ∉ s.toClient
  bound_le : s.stage ≠ .first → s.bound ≤ s.nextProxy
  found : ∀ present, s.atFirstSync = some present → ∀ object ∈ present,
    object ∈ s.deleted ∨
    (∃ proxy, (object, proxy) ∈ s.view ∧ (s.stage ≠ .first → proxy < s.bound)) ∨
    (s.stage = .first ∧ s.sync.syncDone = false ∧
      .global object ∈ ahead (ServerEvent.ends seqs.first) s.toClient)
  pending : ∀ object proxy, (object, proxy) ∈ s.view → s.stage = .first ∨ proxy < s.bound →
    ∀ kind, object.kind = some kind →
      informed kind object.id s.calls ∨ Pending seqs s object proxy kind
  complete : s.stage = .second ∧ s.sync.syncDone ∨ s.stage = .settled →
    ∀ object proxy, (object, proxy) ∈ s.view → proxy < s.bound →
      ∀ kind, object.kind = some kind → informed kind object.id s.calls

theorem shaken_start (seqs : SyncSeqs) {objects : List ServerObject} (nextSerial : Nat)
    (ids : (objects.map ServerObject.id).Nodup) : Shaken seqs (start seqs objects nextSerial) where
  tracks := tracks_empty _
  ids := ids
  unregistered _ := ⟨rfl, rfl, rfl, rfl, rfl, rfl⟩
  registry_once h := by cases h
  replayed h := by cases h
  own_seq := rfl
  done_by_core id seq h := by cases h
  first_unhandled _ := ⟨rfl, rfl, fun id h => by cases h⟩
  second_unsent _ := ⟨by simpa [start] using seqs.distinct.symm, fun id h => by cases h⟩
  bound_le h := absurd rfl h
  found present h := by cases h
  pending object proxy h := by cases h
  complete h := by rcases h with ⟨h, _⟩ | h <;> cases h

theorem pending_emit {seqs : SyncSeqs} {s : Handshake} {object : ServerObject} {proxy : PwProxy}
    {kind : Kind} (h : Pending seqs s object proxy kind) {events : List ServerEvent}
    (unmarked : ∀ e ∈ events, ∀ id n, e ≠ .done id n) (objects : List ServerObject) (serial : Nat) :
    Pending seqs { s with
      objects := objects, nextSerial := serial, toClient := s.toClient ++ events } object proxy kind := by
  obtain ⟨m, hm, answers⟩ := h
  refine ⟨m, ?_, answers⟩
  simp only [pipeline, List.map_append, List.append_assoc]
  refine mem_ahead_insert hm fun y hy => ?_
  obtain ⟨e, he, rfl⟩ := List.mem_map.mp hy
  cases e with
  | done id n => exact absurd rfl (unmarked _ he id n)
  | global | globalRemove | info => rfl

/-- The server changes its objects and tells the client, if it has asked. -/
theorem shaken_emit {seqs : SyncSeqs} {s : Handshake} (h : Shaken seqs s)
    {objects : List ServerObject} {events : List ServerEvent} (serial : Nat)
    (ids : (objects.map ServerObject.id).Nodup)
    (replayed : s.registered = true → replayEvents s.objects events = some objects)
    (silent : s.registered = false → events = [])
    (unmarked : ∀ e ∈ events, ∀ id n, e ≠ .done id n) :
    Shaken seqs { s with
      objects := objects, nextSerial := serial, toClient := s.toClient ++ events } where
  tracks := h.tracks
  ids := ids
  unregistered unasked := by
    obtain ⟨toServer, toClient, rest⟩ := h.unregistered unasked
    exact ⟨toServer, by simp [toClient, silent unasked], rest⟩
  registry_once := h.registry_once
  replayed asked := by
    rw [replayEvents_append, h.replayed asked]
    exact replayed asked
  own_seq := h.own_seq
  done_by_core id seq hmem := by
    rcases List.mem_append.mp hmem with hmem | hmem
    · exact h.done_by_core id seq hmem
    · exact absurd rfl (unmarked _ hmem id seq)
  first_unhandled none := by
    obtain ⟨stage, undone, absent⟩ := h.first_unhandled none
    refine ⟨stage, undone, fun id hmem => ?_⟩
    rcases List.mem_append.mp hmem with hmem | hmem
    · exact absent id hmem
    · exact absurd rfl (unmarked _ hmem id _)
  second_unsent stage := by
    obtain ⟨unsent, absent⟩ := h.second_unsent stage
    refine ⟨unsent, fun id hmem => ?_⟩
    rcases List.mem_append.mp hmem with hmem | hmem
    · exact absent id hmem
    · exact absurd rfl (unmarked _ hmem id _)
  bound_le := h.bound_le
  found present at_ object hobject :=
    (h.found present at_ object hobject).imp_right fun rest =>
      rest.imp_right fun ⟨stage, undone, hmem⟩ => ⟨stage, undone, mem_ahead_append hmem _⟩
  pending object proxy hmem early kind known :=
    (h.pending object proxy hmem early kind known).imp_right fun pending =>
      pending_emit pending unmarked objects serial
  complete := h.complete

theorem shaken_add {seqs : SyncSeqs} {s t : Handshake} (h : Shaken seqs s) {object : ServerObject}
    (step : s.next seqs (.add object) = some t) : Shaken seqs t := by
  obtain ⟨⟨_, free⟩, same⟩ := Option.ite_none_right_eq_some.mp step
  cases Option.some.inj same
  refine shaken_emit h _ ?_ (fun asked => ?_) (fun unasked => by simp [unasked]) ?_
  · rw [List.map_append, List.map_singleton, List.nodup_append]
    refine ⟨h.ids, List.nodup_singleton _, ?_⟩
    rintro id hid _ hsingle rfl
    obtain ⟨other, hother, same⟩ := List.mem_map.mp hid
    exact free other hother (same.trans (List.mem_singleton.mp hsingle))
  · rw [if_pos asked, replayEvents, if_pos free]
    rfl
  · intro e he id n
    split at he
    · cases List.mem_singleton.mp he; simp
    · cases he

theorem shaken_remove {seqs : SyncSeqs} {s t : Handshake} (h : Shaken seqs s) {object : ServerObject}
    (step : s.next seqs (.remove object) = some t) : Shaken seqs t := by
  obtain ⟨present, same⟩ := Option.ite_none_right_eq_some.mp step
  cases Option.some.inj same
  refine shaken_emit h s.nextSerial (h.ids.sublist (List.filter_sublist.map _)) (fun asked => ?_)
    (fun unasked => by simp [unasked]) ?_
  · rw [if_pos asked, replayEvents, if_pos present]
    rfl
  · intro e he id n
    split at he
    · cases List.mem_singleton.mp he; simp
    · cases he

end Handshake

end PwDart
