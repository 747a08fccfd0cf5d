import PwDart.SessionEffects

namespace PwDart

open RegistryMonitor

/-- What the server sees to. -/
structure Served (objects : List ServerObject) (nextSerial : Nat) : Prop where
  ids : (objects.map ServerObject.id).Nodup
  numbered : ∀ o ∈ objects, o.serial < nextSerial
  older : ∀ o ∈ objects, ∀ n ∈ objects, n.id ∈ o.names → n.serial < o.serial
  supports : ∀ o ∈ objects, supported objects o

theorem mem_names {objects : List ServerObject} (supports : ∀ o ∈ objects, supported objects o)
    {object : ServerObject} (its : supported objects object) {id : UInt32} (named : id ∈ object.names) :
    ∃ n ∈ objects, n.id = id := by
  unfold supported at its
  unfold ServerObject.names at named
  split at named
  next port record =>
    rw [record] at its
    obtain ⟨n, hn, same, _⟩ := of_decide_eq_true its
    exact ⟨n, hn, same.trans (List.mem_singleton.mp named).symm⟩
  next link record =>
    rw [record] at its
    simp only [Bool.and_eq_true, decide_eq_true_eq] at its
    have node {id nodeId : UInt32} (there : HasPort objects id nodeId) : ∃ n ∈ objects, n.id = nodeId := by
      obtain ⟨n, hn, same, _⟩ := hasNode_of_hasPort there supports
      exact ⟨n, hn, same⟩
    have port {id nodeId : UInt32} (there : HasPort objects id nodeId) : ∃ n ∈ objects, n.id = id := by
      obtain ⟨n, hn, same, _⟩ := there
      exact ⟨n, hn, same⟩
    simp only [List.mem_cons, List.not_mem_nil, or_false] at named
    rcases named with rfl | rfl | rfl | rfl
    · exact port its.1
    · exact node its.1
    · exact port its.2
    · exact node its.2
  next => cases named

theorem supported_mono {objects more : List ServerObject} (sub : objects ⊆ more) {object : ServerObject}
    (h : supported objects object) : supported more object := by
  have node {id : UInt32} : HasNode objects id → HasNode more id := by
    rintro ⟨n, hn, rest⟩
    exact ⟨n, sub hn, rest⟩
  have port {id nodeId : UInt32} : HasPort objects id nodeId → HasPort more id nodeId := by
    rintro ⟨n, hn, rest⟩
    exact ⟨n, sub hn, rest⟩
  unfold supported at h ⊢
  split at h
  next info record =>
    exact decide_eq_true (node (of_decide_eq_true h))
  next link record =>
    simp only [Bool.and_eq_true, decide_eq_true_eq] at h ⊢
    exact ⟨port h.1, port h.2⟩
  next => rfl

theorem served_empty : Served [] 1 where
  ids := List.nodup_nil
  numbered o ho := by cases ho
  older o ho := by cases ho
  supports o ho := by cases ho

theorem served_announce {objects : List ServerObject} {nextSerial : Nat} (h : Served objects nextSerial)
    {object : ServerObject} (serial : object.serial = nextSerial) (fresh : ∀ o ∈ objects, o.id ≠ object.id)
    (its : supported objects object) : Served (objects ++ [object]) (nextSerial + 1) := by
  have grown : objects ⊆ objects ++ [object] := List.subset_append_left _ _
  have supports : ∀ o ∈ objects ++ [object], supported (objects ++ [object]) o := by
    intro o ho
    rcases List.mem_append.mp ho with ho | ho
    · exact supported_mono grown (h.supports o ho)
    · cases List.mem_singleton.mp ho
      exact supported_mono grown its
  refine ⟨?_, ?_, ?_, supports⟩
  · rw [List.map_append, List.map_singleton, List.nodup_append]
    refine ⟨h.ids, List.nodup_singleton _, ?_⟩
    rintro id hid _ hsingle rfl
    obtain ⟨o, ho, same⟩ := List.mem_map.mp hid
    exact fresh o ho (same.trans (List.mem_singleton.mp hsingle))
  · intro o ho
    rcases List.mem_append.mp ho with ho | ho
    · exact Nat.lt_succ_of_lt (h.numbered o ho)
    · cases List.mem_singleton.mp ho
      omega
  · intro o ho n hn named
    rcases List.mem_append.mp ho with ho | ho
    · rcases List.mem_append.mp hn with hn | hn
      · exact h.older o ho n hn named
      · cases List.mem_singleton.mp hn
        obtain ⟨m, hm, same⟩ := mem_names h.supports (h.supports o ho) named
        exact absurd same (fresh m hm)
    · cases List.mem_singleton.mp ho
      obtain ⟨m, hm, same⟩ := mem_names h.supports its named
      rcases List.mem_append.mp hn with hn | hn
      · rw [serial]
        exact h.numbered n hn
      · cases List.mem_singleton.mp hn
        exact absurd same (fresh m hm)

theorem served_remove {objects : List ServerObject} {nextSerial : Nat} (h : Served objects nextSerial)
    {object : ServerObject}
    (supports : ∀ o ∈ objects.filter fun o => o ≠ object, supported (objects.filter fun o => o ≠ object) o) :
    Served (objects.filter fun o => o ≠ object) nextSerial where
  ids := h.ids.sublist (List.filter_sublist.map _)
  numbered o ho := h.numbered o (List.mem_filter.mp ho).1
  older o ho n hn named := h.older o (List.mem_filter.mp ho).1 n (List.mem_filter.mp hn).1 named
  supports := supports

/-- The bind the client sends for an object. -/
def ServerObject.bind (object : ServerObject) : Bind := ⟨object.id, object.type, object.serial⟩

/-- A client that has taken everything sent to it, where the server has handled `handled` binds. -/
structure Settled (objects : List ServerObject) (nextSerial handled : Nat) (c : SessionClient) : Prop where
  next : c.nextProxy = nextSerial
  tracks : Tracks c.monitor (viewOf objects) nextSerial
  owned : Owned objects c.monitor
  kept : KeepsNodes objects c.monitor
  ordered : c.sent.Pairwise fun a b => a.proxy < b.proxy
  numbered : ∀ bind ∈ c.sent, bind.proxy < nextSerial
  sent : ∀ o ∈ objects, o.kind ≠ none → o.bind ∈ c.sent
  handled_le : handled ≤ c.sent.length
  answered : ∀ o ∈ objects, o.kind ≠ none → o.bind ∈ c.sent.take handled → InGraph (graphOf c.posted) o
  pictures : Pictures objects (graphOf c.posted)

theorem settled_start : Settled [] 1 0 {} where
  next := rfl
  tracks := tracks_empty 1
  owned := owned_empty
  kept o ho := by cases ho
  ordered := List.Pairwise.nil
  numbered bind h := by cases h
  sent o ho := by cases ho
  handled_le := Nat.le_refl _
  answered o ho := by cases ho
  pictures := pictures_empty

theorem bind_unique {sent : List Bind} (ordered : sent.Pairwise fun a b => a.proxy < b.proxy) {a b : Bind}
    (ha : a ∈ sent) (hb : b ∈ sent) (same : a.proxy = b.proxy) : a = b := by
  have distinct : (sent.map Bind.proxy).Nodup :=
    List.pairwise_map.mpr (ordered.imp fun lt => Nat.ne_of_lt lt)
  exact List.inj_on_of_nodup_map distinct ha hb same

theorem mem_take_of_lt {sent : List Bind} (ordered : sent.Pairwise fun a b => a.proxy < b.proxy) {k : Nat}
    {a b : Bind} (next : sent[k]? = some a) (hb : b ∈ sent) (lt : b.proxy < a.proxy) : b ∈ sent.take k := by
  obtain ⟨bounded, here⟩ := List.getElem?_eq_some_iff.mp next
  rw [← List.take_append_drop k sent] at hb ordered
  rcases List.mem_append.mp hb with before | after
  · exact before
  · rw [List.drop_eq_getElem_cons bounded, here] at after ordered
    have later := (List.pairwise_append.mp ordered).2.1
    rcases List.mem_cons.mp after with same | after
    · rw [same] at lt
      exact absurd lt (Nat.lt_irrefl _)
    · exact absurd lt (Nat.lt_asymm ((List.pairwise_cons.mp later).1 b after))

/-- A port or link shown is one of the objects. -/
theorem unseen_of_fresh {objects : List ServerObject} {g : PwGraph} (h : Pictures objects g) {object : ServerObject}
    (fresh : ∀ o ∈ objects, o.id ≠ object.id) :
    ¬InGraph g object ∨ ∀ n ∈ objects, n.id ∈ object.names → InGraph g n := by
  cases record : object.record with
  | none =>
    refine Or.inr fun n _ hn => ?_
    simp [ServerObject.names, record] at hn
  | some made =>
    cases made with
    | node | device =>
      refine Or.inr fun n _ hn => ?_
      simp [ServerObject.names, record] at hn
    | port info =>
      refine Or.inl fun shown => ?_
      simp only [InGraph, record] at shown
      obtain ⟨port, found⟩ := Option.isSome_iff_exists.mp (AList.lookup_isSome.mpr shown)
      obtain ⟨o, ho, _, _, same, _⟩ := h.ports _ _ found
      exact fresh o ho (dartId_inj.mp same)
    | link info =>
      refine Or.inl fun shown => ?_
      simp only [InGraph, record] at shown
      obtain ⟨link, found⟩ := Option.isSome_iff_exists.mp (AList.lookup_isSome.mpr shown)
      obtain ⟨o, ho, _, _, same, _⟩ := h.links _ _ found
      exact fresh o ho (dartId_inj.mp same)

theorem settled_announce {objects : List ServerObject} {nextSerial handled : Nat} {c : SessionClient}
    (served : Served objects nextSerial) (h : Settled objects nextSerial handled c) {object : ServerObject}
    (serial : object.serial = nextSerial) (fresh : ∀ o ∈ objects, o.id ≠ object.id)
    (its : supported objects object) :
    Settled (objects ++ [object]) (nextSerial + 1) handled (c.receive (.global object)) := by
  have proxy : c.nextProxy = object.serial := h.next.trans serial.symm
  have sent : (c.receive (.global object)).sent =
      c.sent ++ if object.kind = none then [] else [object.bind] := by
    simp only [SessionClient.receive, ServerObject.bind, proxy]
  have taken : (c.receive (.global object)).sent.take handled = c.sent.take handled := by
    rw [sent]
    exact List.take_append_of_le_length h.handled_le
  have free : ∀ entry ∈ viewOf objects, entry.1.id ≠ object.id := by
    rintro ⟨o, p⟩ ho
    exact fresh o (mem_viewOf.mp ho).1
  have tracks := tracks_global h.tracks free
  have named {id : UInt32} (hid : id ∈ object.names) : ∃ n ∈ objects, n.id = id :=
    mem_names served.supports its hid
  refine ⟨?_, ?_, ?_, ?_, ?_, ?_, ?_, ?_, ?_, ?_⟩
  · exact congrArg (· + 1) h.next
  · rw [viewOf_append_singleton]
    simpa only [SessionClient.receive, proxy, serial] using tracks
  · have owned := owned_global h.owned object
    simpa only [SessionClient.receive, proxy] using owned
  · exact keepsNodes_global h.kept fresh (some c.nextProxy)
  · rw [sent]
    split
    next => simpa using h.ordered
    next =>
      refine List.pairwise_append.mpr ⟨h.ordered, List.pairwise_singleton _ _, ?_⟩
      intro a ha b hb
      cases List.mem_singleton.mp hb
      have below := h.numbered a ha
      rw [ServerObject.bind, serial]
      exact below
  · intro bind hbind
    rw [sent] at hbind
    rcases List.mem_append.mp hbind with hbind | hbind
    · exact Nat.lt_succ_of_lt (h.numbered bind hbind)
    · split at hbind
      next => cases hbind
      next =>
        cases List.mem_singleton.mp hbind
        rw [ServerObject.bind, serial]
        exact Nat.lt_succ_self nextSerial
  · intro o ho known
    rw [sent]
    rcases List.mem_append.mp ho with ho | ho
    · exact List.mem_append_left _ (h.sent o ho known)
    · cases List.mem_singleton.mp ho
      rw [if_neg known]
      exact List.mem_append_right _ (List.mem_singleton_self _)
  · rw [sent, List.length_append]
    have le := h.handled_le
    omega
  · intro o ho known hbind
    rw [taken] at hbind
    rcases List.mem_append.mp ho with ho | ho
    · exact h.answered o ho known hbind
    · cases List.mem_singleton.mp ho
      have below := h.numbered _ (List.mem_of_mem_take hbind)
      rw [ServerObject.bind, serial] at below
      exact absurd below (Nat.lt_irrefl _)
  · refine pictures_announce h.pictures (unseen_of_fresh h.pictures fresh) ?_ ?_
    · intro o ho hid
      obtain ⟨n, hn, same⟩ := mem_names served.supports (served.supports o ho) hid
      exact fresh n hn same
    · intro hid
      obtain ⟨n, hn, same⟩ := named hid
      exact fresh n hn same

theorem settled_remove {objects : List ServerObject} {nextSerial handled : Nat} {c : SessionClient}
    (served : Served objects nextSerial) (h : Settled objects nextSerial handled c) {object : ServerObject}
    (here : object ∈ objects) :
    Settled (objects.filter fun o => o ≠ object) nextSerial handled (c.receive (.globalRemove object)) := by
  have inView : (object, object.serial) ∈ viewOf objects := mem_viewOf.mpr ⟨here, rfl⟩
  have typed : ∀ kind, object.kind = some kind → c.monitor.idTypes[object.id]? = some kind.text :=
    fun kind known => (h.tracks.held object object.serial inView kind known).1
  have loses := loses_remove h.owned here served.ids typed c.posted
  refine ⟨h.next, ?_, ?_, ?_, h.ordered, h.numbered, ?_, h.handled_le, ?_, ?_⟩
  · rw [viewOf_filter]
    exact tracks_remove h.tracks inView
  · refine owned_remove h.owned here served.ids fun known => ?_
    obtain ⟨kind, known⟩ := Option.ne_none_iff_exists'.mp known
    simp [typed kind known]
  · exact keepsNodes_remove h.kept here served.ids
  · intro o ho known
    exact h.sent o (List.mem_filter.mp ho).1 known
  · intro o ho known hbind
    obtain ⟨ho, other⟩ := List.mem_filter.mp ho
    have apart : o.id ≠ object.id := by
      intro same
      cases List.inj_on_of_nodup_map served.ids ho here same
      simp at other
    exact (inGraph_loses_other loses apart).mpr (h.answered o ho known hbind)
  · exact pictures_loses h.pictures loses here served.ids

theorem kind_of_truthful {object : ServerObject} {report : InfoReport} (truth : truthful object report) :
    ∃ kind, object.kind = some kind := by
  unfold truthful at truth
  split at truth
  next record => exact ⟨_, kind_of_record record⟩
  next record => exact ⟨_, kind_of_record record⟩
  next record => exact ⟨_, kind_of_record record⟩
  next record => exact ⟨_, kind_of_record record⟩
  next => cases truth

theorem inGraph_unknown {object : ServerObject} (unknown : object.kind = none) (g : PwGraph) :
    InGraph g object := by
  cases record : object.record with
  | none => simp [InGraph, record]
  | some made => cases unknown.symm.trans (kind_of_record record)

/-- An info on the proxy of a live object, when what the object names is in the graph. -/
theorem settled_info {objects : List ServerObject} {nextSerial handled handled' : Nat} {c : SessionClient}
    (served : Served objects nextSerial) (h : Settled objects nextSerial handled c) {object : ServerObject}
    (here : object ∈ objects) {report : InfoReport} (truth : truthful object report)
    (known : ∀ n ∈ objects, n.id ∈ object.names → InGraph (graphOf c.posted) n)
    (bounded : handled' ≤ c.sent.length)
    (answered : ∀ o ∈ objects, o.kind ≠ none → o.bind ∈ c.sent.take handled' → o ≠ object →
      o.bind ∈ c.sent.take handled) :
    Settled objects nextSerial handled' (c.receive (.info object.serial report)) := by
  obtain ⟨kind, ofKind⟩ := kind_of_truthful truth
  have inView : (object, object.serial) ∈ viewOf objects := mem_viewOf.mpr ⟨here, rfl⟩
  obtain ⟨_, present, _⟩ := h.tracks.held object object.serial inView kind ofKind
  have reached : c.receive (.info object.serial report) =
      { c with
        monitor := (c.monitor.call (report.callback object.id)).1
        posted := c.posted ++ (c.monitor.call (report.callback object.id)).2 } := by
    simp only [SessionClient.receive, proxyId_eq h.tracks inView ofKind]
  obtain ⟨target, about⟩ : ∃ target, (report.callback object.id).infoTarget = some target := by
    cases report <;> exact ⟨_, rfl⟩
  have gains := gains_info h.tracks.wellFormed h.kept here truth ofKind present c.posted
  rw [reached]
  refine ⟨h.next, tracks_info h.tracks about, owned_info h.owned about, keepsNodes_info h.kept about, h.ordered,
    h.numbered, h.sent, bounded, ?_, pictures_gains h.pictures gains here served.ids known⟩
  intro o ho isKnown hbind
  by_cases same : o.id = object.id
  · cases List.inj_on_of_nodup_map served.ids ho here same
    exact inGraph_gains gains
  · have other : o ≠ object := fun eq => same (by rw [eq])
    have shown := h.answered o ho isKnown (answered o ho isKnown hbind other)
    exact (inGraph_gains_other gains same).mpr shown

/-- An info on the proxy of an object that is gone is dropped. -/
theorem receive_info_gone {objects : List ServerObject} {nextSerial handled : Nat} {c : SessionClient}
    (h : Settled objects nextSerial handled c) {proxy : PwProxy} (gone : ∀ o ∈ objects, o.kind ≠ none → o.serial ≠ proxy)
    (report : InfoReport) : c.receive (.info proxy report) = c := by
  have unbound : c.monitor.proxyId proxy = none := by
    unfold proxyId
    rw [Option.map_eq_none_iff, List.find?_eq_none]
    rintro ⟨id, data⟩ held bound
    obtain ⟨o, ho, _, known, same⟩ :=
      h.owned.proxies id data (Std.ExtTreeMap.mem_toList_iff_getElem?_eq_some.mp held)
    have eq : data.proxy = some proxy := of_decide_eq_true bound
    rw [same] at eq
    exact gone o ho known (Option.some.inj eq)
  simp only [SessionClient.receive, unbound]

theorem Settled.raise {objects : List ServerObject} {nextSerial handled handled' : Nat} {c : SessionClient}
    (h : Settled objects nextSerial handled c) (bounded : handled' ≤ c.sent.length)
    (answered : ∀ o ∈ objects, o.kind ≠ none → o.bind ∈ c.sent.take handled' → o.bind ∈ c.sent.take handled) :
    Settled objects nextSerial handled' c :=
  { h with
    handled_le := bounded
    answered := fun o ho known hbind => h.answered o ho known (answered o ho known hbind) }

/-- A proxy bound to a live object is its own, or that of an object which is gone. -/
theorem Settled.gone {objects : List ServerObject} {nextSerial handled : Nat} {c : SessionClient}
    (served : Served objects nextSerial) (h : Settled objects nextSerial handled c) {object : ServerObject}
    (here : object ∈ objects) {proxy : PwProxy} (bound : ⟨object.id, object.type, proxy⟩ ∈ c.sent)
    (other : proxy ≠ object.serial) : ∀ o ∈ objects, o.kind ≠ none → o.serial ≠ proxy := by
  intro o ho known same
  have eq : o.bind = ⟨object.id, object.type, proxy⟩ :=
    bind_unique h.ordered (h.sent o ho known) bound same
  have sameId : o.id = object.id := congrArg Bind.id eq
  cases List.inj_on_of_nodup_map served.ids ho here sameId
  exact other same.symm

end PwDart
