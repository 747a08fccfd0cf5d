import PwDart.KeyedWrites
import PwDart.Mirror

namespace PwDart

open Json

namespace PwGraph

/-- `applyEvent` as writes to the objects of the graph. -/
def writes : KeyedWrites PwGraph PwGraphEvent (Kind × Int) (Option DartObject) where
  apply := applyEvent
  read g key := g.entry key.1 key.2
  write event key := if event.touched = some key then some event.object else none
  read_apply g event key := by
    rw [entry_apply]
    split <;> rfl

def applyEvents (g : PwGraph) (events : List PwGraphEvent) : PwGraph := events.foldl applyEvent g

/-- The same objects under the same ids, in whatever order. -/
structure SameObjects (g h : PwGraph) : Prop where
  nodes : ∀ id, g.nodes.lookup id = h.nodes.lookup id
  ports : ∀ id, g.ports.lookup id = h.ports.lookup id
  links : ∀ id, g.links.lookup id = h.links.lookup id
  devices : ∀ id, g.devices.lookup id = h.devices.lookup id

theorem sameObjects_of_entry {g h : PwGraph} (same : ∀ kind id, g.entry kind id = h.entry kind id) :
    SameObjects g h where
  nodes id := Option.map_injective (fun _ _ => DartObject.node.inj) (same .node id)
  ports id := Option.map_injective (fun _ _ => DartObject.port.inj) (same .port id)
  links id := Option.map_injective (fun _ _ => DartObject.link.inj) (same .link id)
  devices id := Option.map_injective (fun _ _ => DartObject.device.inj) (same .device id)

def Touched (events : List PwGraphEvent) (key : Kind × Int) : Prop :=
  ∃ event ∈ events, event.touched = some key

/-- A reordering that keeps the events about each object in their order. -/
structure Reordering (events events' : List PwGraphEvent) : Prop where
  perm : events.Perm events'
  order : ∀ key, (events.filter fun event => event.touched = some key) =
    events'.filter fun event => event.touched = some key

theorem written_iff_touched {events : List PwGraphEvent} {key : Kind × Int} :
    writes.Written events key ↔ Touched events key := by
  unfold KeyedWrites.Written Touched writes
  simp

theorem writers_eq_filter (events : List PwGraphEvent) (key : Kind × Int) :
    writes.writers events key = events.filter fun event => event.touched = some key := by
  apply List.filter_congr
  intro event _
  by_cases about : event.touched = some key <;> simp [writes, about]

theorem sameObjects_of_read {g h : PwGraph} (same : ∀ key, writes.read g key = writes.read h key) :
    SameObjects g h :=
  sameObjects_of_entry fun kind id => same (kind, id)

theorem absorb {pre events : List PwGraphEvent} (covers : ∀ key, Touched pre key → Touched events key)
    (g : PwGraph) : SameObjects (g.applyEvents (pre ++ events)) (g.applyEvents events) := by
  apply sameObjects_of_read
  intro key
  apply writes.read_absorb
  intro key written
  exact written_iff_touched.mpr (covers key (written_iff_touched.mp written))

theorem reorder {events events' : List PwGraphEvent} (moved : Reordering events events') (g : PwGraph) :
    SameObjects (g.applyEvents events) (g.applyEvents events') := by
  apply sameObjects_of_read
  intro key
  apply writes.read_reorder
  rw [writers_eq_filter, writers_eq_filter]
  exact moved.order key

/-- Events are absorbed by later ones about the same objects, and those about different objects commute. -/
theorem replay_absorbs_and_commutes (g : PwGraph) :
    (∀ pre events, (∀ key, Touched pre key → Touched events key) →
      SameObjects ((g.applyEvents pre).applyEvents events) (g.applyEvents events)) ∧
    (∀ events, SameObjects ((g.applyEvents events).applyEvents events) (g.applyEvents events)) ∧
    (∀ pre events, pre <+: events →
      SameObjects ((g.applyEvents pre).applyEvents events) (g.applyEvents events)) ∧
    ∀ events events', Reordering events events' →
      SameObjects (g.applyEvents events) (g.applyEvents events') := by
  have twice (pre events : List PwGraphEvent) :
      (g.applyEvents pre).applyEvents events = g.applyEvents (pre ++ events) := List.foldl_append.symm
  refine ⟨fun pre events covers => ?_, fun events => ?_, fun pre events initial => ?_,
    fun _ _ moved => reorder moved g⟩
  · rw [twice]
    exact absorb covers g
  · rw [twice]
    exact absorb (fun _ touched => touched) g
  · rw [twice]
    apply absorb
    rintro key ⟨event, mem, about⟩
    exact ⟨event, initial.subset mem, about⟩

/-- A node that comes and goes is absorbed by its removal, which commutes with that of a link. -/
theorem replay_absorbs_and_commutes_removals :
    SameObjects
      (applyEvents (applyEvents {} [.nodeAdded ⟨7, [], [], .idle, ∅⟩]) [.nodeRemoved 7, .linkRemoved 40])
      (applyEvents {} [.nodeRemoved 7, .linkRemoved 40]) ∧
    SameObjects (applyEvents {} [.nodeRemoved 7, .linkRemoved 40])
      (applyEvents {} [.linkRemoved 40, .nodeRemoved 7]) := by
  obtain ⟨absorbs, _, _, commutes⟩ := replay_absorbs_and_commutes {}
  constructor
  · apply absorbs
    rintro key ⟨event, mem, about⟩
    cases List.mem_singleton.mp mem
    exact ⟨.nodeRemoved 7, by simp, about⟩
  · apply commutes
    refine ⟨List.Perm.swap _ _ _, fun key => ?_⟩
    by_cases node : some (Kind.node, (7 : Int)) = some key
    · cases Option.some.inj node
      rfl
    · simp [PwGraphEvent.touched, List.filter_cons, node]

end PwGraph

end PwDart
