import PwDart.RegistryEffects

namespace PwDart

/-- A fold that starts at `fresh` has left it after every proper prefix but the empty one exactly
when no item but the last leads back to it and the first of several leads away. -/
theorem foldl_fresh_iff {ι σ : Type*} {f : σ → ι → σ} {fresh : σ} {renews keeps : ι → Prop}
    (step : ∀ a i, f a i = fresh ↔ renews i ∨ (keeps i ∧ a = fresh)) (items : List ι) :
    (∀ x i y, items = x ++ i :: y → (x.foldl f fresh = fresh ↔ x = [])) ↔
      ∀ x i y, items = x ++ i :: y → y ≠ [] → ¬renews i ∧ (x = [] → ¬keeps i) := by
  constructor
  · intro left x i y split more
    obtain ⟨j, rest, rfl⟩ := List.exists_cons_of_ne_nil more
    have after := left (x ++ [i]) j rest (by simp [split])
    rw [List.foldl_append, List.foldl_cons, List.foldl_nil, step] at after
    refine ⟨fun renewed => by simpa using after.mp (Or.inl renewed), ?_⟩
    rintro rfl kept
    simpa using after.mp (Or.inr ⟨kept, rfl⟩)
  · intro settles x
    induction x using List.reverseRecOn with
    | nil => simp
    | append_singleton x i ih =>
      intro j y split
      rw [List.append_assoc, List.singleton_append] at split
      obtain ⟨renews, keeps⟩ := settles x i (j :: y) split (by simp)
      rw [List.foldl_append, List.foldl_cons, List.foldl_nil, step, ih i (j :: y) split]
      simp only [List.append_eq_nil_iff, List.cons_ne_self, and_false, iff_false]
      rintro (renewed | ⟨kept, rfl⟩)
      · exact renews renewed
      · exact keeps rfl kept

open RegistryMonitor

/-- What an info reports of the state of a node or a link. -/
def Callback.state : Callback → Option Int
  | nodeInfo _ (some info) => some info.state
  | linkInfo _ (some info) => some info.state
  | _ => none

def statesOf (kind : Kind) (id : UInt32) (infos : List Callback) : List Int :=
  infos.filterMap fun c => if c.infoTarget = some (kind, id) then c.state else none

/-- The states of `pw_node_state` and `pw_link_state` that the switches name. -/
def KnownState : Kind → Int → Prop
  | .node, state => PW_NODE_STATE_ERROR ≤ state ∧ state ≤ PW_NODE_STATE_RUNNING
  | _, state => PW_LINK_STATE_ERROR ≤ state ∧ state ≤ PW_LINK_STATE_ACTIVE

/-- The state that names an object which has reported nothing yet. -/
def initialState : Kind → Int
  | .node => PW_NODE_STATE_CREATING
  | _ => PW_LINK_STATE_INIT

def initialText : Kind → String
  | .node => "creating"
  | _ => "init"

def stateText : Kind → String → Int → String
  | .node, old, state => nodeStateText state old
  | _, old, state => linkStateText state old

theorem stateText_eq_initial_iff (kind : Kind) (old : String) (state : Int) :
    stateText kind old state = initialText kind ↔
      state = initialState kind ∨ (¬KnownState kind state ∧ old = initialText kind) := by
  cases kind with
  | node =>
    simp only [stateText, nodeStateText, initialText, initialState, KnownState, PW_NODE_STATE_ERROR,
      PW_NODE_STATE_CREATING, PW_NODE_STATE_SUSPENDED, PW_NODE_STATE_IDLE, PW_NODE_STATE_RUNNING]
    grind
  | port | link | device =>
    simp only [stateText, linkStateText, initialText, initialState, KnownState, PW_LINK_STATE_ERROR,
      PW_LINK_STATE_UNLINKED, PW_LINK_STATE_INIT, PW_LINK_STATE_NEGOTIATING,
      PW_LINK_STATE_ALLOCATING, PW_LINK_STATE_PAUSED, PW_LINK_STATE_ACTIVE]
    grind

def ObjectInfo.state : ObjectInfo → String
  | node info => info.state
  | link info => info.state
  | _ => ""

/-- Nodes and links report states; ports and devices do not. -/
def Kind.Stateful (kind : Kind) : Prop := kind = .node ∨ kind = .link

theorem announced_state {id : UInt32} {type : Option String} {props : Option SpaDict}
    {made : ObjectInfo} (announces : announced id type props = some made)
    (stateful : made.kind.Stateful) : made.state = initialText made.kind := by
  rcases announced_cases announces with rfl | ⟨info, _, rfl⟩ | ⟨info, parsed, rfl⟩ | rfl
  · rfl
  · rcases stateful with h | h <;> cases h
  · exact (newLinkInfo_ok parsed).2
  · rcases stateful with h | h <;> cases h

theorem update_state {old new : ObjectInfo} {c : Callback} {id : UInt32}
    (updated : old.update c = some new) (about : c.infoTarget = some (old.kind, id))
    (stateful : old.kind.Stateful) :
    ∃ state, c.state = some state ∧ new.state = stateText old.kind old.state state := by
  unfold ObjectInfo.update at updated
  split at updated
  next old _ info =>
    cases Option.some.inj updated
    refine ⟨info.state, rfl, ?_⟩
    cases props : info.props <;>
      simp [ObjectInfo.state, NodeInfo.update, NodeInfo.mergeProps, props, stateText, ObjectInfo.kind]
  next => rcases stateful with h | h <;> cases h
  next old _ info => cases Option.some.inj updated; exact ⟨info.state, rfl, rfl⟩
  next => rcases stateful with h | h <;> cases h
  next => simp at updated

def GraphEvent.announces : GraphEvent → Bool
  | nodeAdded _ => true
  | linkAdded _ => true
  | _ => false

theorem infoEvent_announces {old new : ObjectInfo} (same : new.kind = old.kind)
    (stateful : old.kind.Stateful) :
    ∃ event, old.infoEvent new = [event] ∧ event.news = some ((old.kind, new.id), some new) ∧
      (event.announces ↔ old.state = initialText old.kind) := by
  cases old with
  | node old =>
    cases new with
    | node new =>
      refine ⟨_, rfl, ?_⟩
      by_cases fresh : old.state = "creating" <;>
        simp [fresh, GraphEvent.news, GraphEvent.announces, ObjectInfo.state, initialText,
          ObjectInfo.kind, ObjectInfo.id]
    | port | link | device => cases same
  | link old =>
    cases new with
    | link new =>
      refine ⟨_, rfl, ?_⟩
      by_cases fresh : old.state = "init" <;>
        simp [fresh, GraphEvent.news, GraphEvent.announces, ObjectInfo.state, initialText,
          ObjectInfo.kind, ObjectInfo.id]
    | node | port | device => cases same
  | port | device => rcases stateful with h | h <;> cases h

/-- Among the callbacks of a lifetime the infos post one event each, the first of them the only one
that announces the object, and the others none about it. -/
def AnnouncedOnce (before : List Callback) (kind : Kind) (id : UInt32) (infos : List Callback) : Prop :=
  ∀ x c y, infos = x ++ c :: y →
    (c.infoTarget = some (kind, id) → ∃ event object, ((replay (before ++ x)).call c).2 = [event] ∧
      event.news = some ((kind, id), some object) ∧
        (event.announces ↔ ∀ d ∈ x, d.infoTarget ≠ some (kind, id))) ∧
    (c.infoTarget ≠ some (kind, id) → ∀ event ∈ ((replay (before ++ x)).call c).2,
      ∀ v, event.news ≠ some ((kind, id), v))

/-- No info but the last reports the initial state, and the first of several a state that is known. -/
def LeavesInitial (kind : Kind) (states : List Int) : Prop :=
  ∀ x state y, states = x ++ state :: y → y ≠ [] →
    state ≠ initialState kind ∧ (x = [] → KnownState kind state)

/-- After the infos so far the stored state is the fold of what they reported. -/
theorem state_of_lifetime {before x : List Callback} {kind : Kind} {id : UInt32} {made : ObjectInfo}
    (start : (replay before).record kind id = some made) (initial : made.state = initialText kind)
    (stateful : kind.Stateful) (live : ∀ c ∈ x, c.lifetimeOf ≠ some id) :
    ∃ object, (replay (before ++ x)).record kind id = some object ∧
      object.state = (statesOf kind id x).foldl (stateText kind) (initialText kind) := by
  induction x using List.reverseRecOn with
  | nil => exact ⟨made, by simpa using start, initial⟩
  | append_singleton x c ih =>
    obtain ⟨object, held, state⟩ := ih fun d hd => live d (List.mem_append_left _ hd)
    rw [replay_append_append_singleton]
    by_cases about : c.infoTarget = some (kind, id)
    · obtain ⟨new, updated, _, _, _, records⟩ := call_info_some about held
      have sameKind : object.kind = kind := record_kind held
      obtain ⟨reported, hreported, hnew⟩ := update_state updated
        (show c.infoTarget = some (object.kind, id) by rw [sameKind]; exact about)
        (by rw [sameKind]; exact stateful)
      refine ⟨new, by simp [records], ?_⟩
      simp [statesOf, about, hreported, hnew, state, sameKind]
    · rw [record_unrelated (wellFormed_replay _) about (live c (by simp))]
      exact ⟨object, held, by simpa [statesOf, about] using state⟩

theorem state_isSome {c : Callback} {kind : Kind} {id : UInt32} (stateful : kind.Stateful)
    (about : c.infoTarget = some (kind, id)) : ∃ state, c.state = some state := by
  cases c with
  | global | globalRemove => simp [Callback.infoTarget] at about
  | nodeInfo i info | linkInfo i info =>
    cases info with
    | none => simp [Callback.infoTarget] at about
    | some info => exact ⟨info.state, rfl⟩
  | portInfo i info | deviceInfo i info =>
    cases info with
    | none => simp [Callback.infoTarget] at about
    | some info => rcases stateful with rfl | rfl <;> simp [Callback.infoTarget] at about

theorem statesOf_eq_nil_iff {kind : Kind} {id : UInt32} (stateful : kind.Stateful) (x : List Callback) :
    statesOf kind id x = [] ↔ ∀ d ∈ x, d.infoTarget ≠ some (kind, id) := by
  simp only [statesOf, List.filterMap_eq_nil_iff]
  refine forall₂_congr fun d _ => ?_
  by_cases about : d.infoTarget = some (kind, id)
  · obtain ⟨state, hstate⟩ := state_isSome stateful about
    simp [about, hstate]
  · simp [about]

theorem posted_of_lifetime {before x : List Callback} {c : Callback} {kind : Kind} {id : UInt32}
    {made : ObjectInfo} (start : (replay before).record kind id = some made)
    (initial : made.state = initialText kind) (stateful : kind.Stateful)
    (live : ∀ d ∈ x, d.lifetimeOf ≠ some id) (about : c.infoTarget = some (kind, id)) :
    ∃ event object, ((replay (before ++ x)).call c).2 = [event] ∧
      event.news = some ((kind, id), some object) ∧
      (event.announces ↔
        (statesOf kind id x).foldl (stateText kind) (initialText kind) = initialText kind) := by
  obtain ⟨old, held, state⟩ := state_of_lifetime start initial stateful live
  obtain ⟨new, updated, posted, _⟩ := call_info_some about held
  obtain ⟨sameId, sameKind⟩ := update_id_kind updated
  have hkind : old.kind = kind := record_kind held
  have hid : new.id = id := sameId.trans ((wellFormed_replay _).keyed kind id old held)
  obtain ⟨event, one, news, announces⟩ := infoEvent_announces sameKind (by rw [hkind]; exact stateful)
  rw [hkind] at news announces
  rw [hid] at news
  exact ⟨event, new, posted.trans one, news, by rw [announces, state]⟩

theorem posted_unrelated {m : RegistryMonitor} (wf : m.WellFormed) {c : Callback} {kind : Kind}
    {id : UInt32} (notInfo : c.infoTarget ≠ some (kind, id)) (sameLife : c.lifetimeOf ≠ some id) :
    ∀ event ∈ (m.call c).2, ∀ v, event.news ≠ some ((kind, id), v) := by
  intro event posted v news
  rcases call_effect wf c with ⟨_, none, _⟩ | ⟨k, i, key, _, ⟨none, _⟩ | ⟨one, hone, hnews⟩⟩
  · rw [none] at posted; cases posted
  · rw [none] at posted; cases posted
  · rw [hone] at posted
    cases List.mem_singleton.mp posted
    rw [news] at hnews
    cases hnews
    exact (target_about key).elim notInfo sameLife

theorem statesOf_split {kind : Kind} {id : UInt32} {infos : List Callback} {a b : List Int}
    {state : Int} (split : statesOf kind id infos = a ++ state :: b) :
    ∃ x c y, infos = x ++ c :: y ∧ c.infoTarget = some (kind, id) ∧ statesOf kind id x = a := by
  obtain ⟨x, rest, rfl, ha, hrest⟩ := List.filterMap_eq_append_iff.mp split
  obtain ⟨skipped, c, y, rfl, hskipped, hc, _⟩ := List.filterMap_eq_cons_iff.mp hrest
  refine ⟨x ++ skipped, c, y, by simp, ?_, ?_⟩
  · by_contra other
    simp [other] at hc
  · simpa [statesOf, ha] using hskipped

theorem leavesInitial_iff {kind : Kind} (states : List Int) :
    LeavesInitial kind states ↔ ∀ a state b, states = a ++ state :: b →
      (a.foldl (stateText kind) (initialText kind) = initialText kind ↔ a = []) := by
  rw [foldl_fresh_iff (stateText_eq_initial_iff kind)]
  simp only [LeavesInitial, not_not]

/-- A node or a link is announced once in its lifetime exactly when the states reported for it leave
the initial one at the first info and come back to it at the last one only. -/
theorem announcedOnce_iff {pre infos : List Callback} {id : UInt32} {type : Option String}
    {props : Option SpaDict} {bound : Option PwProxy} {made : ObjectInfo}
    (announces : announced id type props = some made) (stateful : made.kind.Stateful)
    (live : ∀ c ∈ infos, c.lifetimeOf ≠ some id) :
    AnnouncedOnce (pre ++ [.global id type props bound]) made.kind id infos ↔
      LeavesInitial made.kind (statesOf made.kind id infos) := by
  have start := record_after_global pre announces bound
  have initial := announced_state announces stateful
  have posted (x y : List Callback) (c : Callback) (split : infos = x ++ c :: y)
      (about : c.infoTarget = some (made.kind, id)) :=
    posted_of_lifetime (x := x) start initial stateful (fun d hd => live d (by simp [split, hd])) about
  rw [leavesInitial_iff]
  constructor
  · intro once a state b split
    obtain ⟨x, c, y, rfl, about, rfl⟩ := statesOf_split split
    obtain ⟨event, _, hevent, _, first⟩ := (once x c y rfl).1 about
    obtain ⟨event', _, hevent', _, fresh⟩ := posted x y c rfl about
    rw [hevent] at hevent'
    cases hevent'
    rw [← fresh, first, statesOf_eq_nil_iff stateful]
  · intro leaves x c y split
    refine ⟨fun about => ?_, fun other =>
      posted_unrelated (wellFormed_replay _) other (live c (by simp [split]))⟩
    obtain ⟨event, object, hevent, news, fresh⟩ := posted x y c split about
    obtain ⟨state, hstate⟩ := state_isSome stateful about
    refine ⟨event, object, hevent, news, ?_⟩
    rw [fresh, leaves (statesOf made.kind id x) state (statesOf made.kind id y) ?_,
      statesOf_eq_nil_iff stateful]
    simp [split, statesOf, about, hstate]

/-- Two infos that report CREATING add the node twice. -/
theorem node_added_twice :
    ¬AnnouncedOnce [.global 7 (some interfaceNode) none none] .node 7
      [.nodeInfo 7 (some ⟨0, PW_NODE_STATE_CREATING, none⟩),
        .nodeInfo 7 (some ⟨0, PW_NODE_STATE_CREATING, none⟩)] := by
  intro once
  obtain ⟨event, _, posted, _, first⟩ := (once [_] _ [] rfl).1 rfl
  have again : ((replay ([.global 7 (some interfaceNode) none none] ++
      [.nodeInfo 7 (some ⟨0, PW_NODE_STATE_CREATING, none⟩)])).call
        (.nodeInfo 7 (some ⟨0, PW_NODE_STATE_CREATING, none⟩))).2.all GraphEvent.announces := by decide
  rw [posted] at again
  have := first.mp (by simpa using again) _ (List.mem_singleton_self _)
  exact this rfl

/-- A link that is negotiated, becomes active and goes back to its initial state in the end. -/
theorem announcedOnce_link :
    AnnouncedOnce ([] ++ [.global 9 (some interfaceLink) none none]) .link 9
      [.linkInfo 9 (some ⟨1, 2, 3, 4, PW_LINK_STATE_ACTIVE, none⟩),
        .linkInfo 9 (some ⟨1, 2, 3, 4, PW_LINK_STATE_INIT, none⟩)] := by
  have announces : announced 9 (some interfaceLink) none =
      some (.link { id := 9, state := "init" }) := by decide
  refine (announcedOnce_iff announces (Or.inr rfl) (by decide)).mpr ?_
  intro x state y split more
  change [PW_LINK_STATE_ACTIVE, PW_LINK_STATE_INIT] = _ at split
  cases x with
  | nil =>
    obtain ⟨rfl, _⟩ := List.cons.inj split
    exact ⟨by decide, fun _ => ⟨by decide, by decide⟩⟩
  | cons first x =>
    cases x with
    | nil => exact absurd (List.cons.inj (List.cons.inj split).2).2.symm more
    | cons second x => simp at split

end PwDart
