import PwDart.LabelledRun
import PwDart.RegistryWellFormed
import PwDart.SessionGraph

namespace PwDart

open LabelledRun Json

/-- An error text is there only in the error state. -/
def LinkInfo.ErrorsInError (link : LinkInfo) : Prop := link.error ≠ "" → link.state = "error"

def PwLink.ErrorsInError (link : PwLink) : Prop := link.error ≠ [] → link.state = .error

/-- The link an event carries. -/
def GraphEvent.link? : GraphEvent → Option LinkInfo
  | linkAdded link => some link
  | linkStateChanged link => some link
  | _ => none

/-- The monitor and what it has posted. -/
structure LinkErrors where
  monitor : RegistryMonitor := {}
  posted : List GraphEvent := []

namespace LinkErrors

/-- PipeWire gives an error text only in an info whose state is error. -/
def givesErrors : Callback → Bool
  | .linkInfo _ (some info) => info.error = none || info.state = PW_LINK_STATE_ERROR
  | _ => true

def next (s : LinkErrors) (c : Callback) : Option LinkErrors :=
  if givesErrors c then some ⟨(s.monitor.call c).1, s.posted ++ (s.monitor.call c).2⟩ else none

/-- In the records, in the events and in the graphs that are built from the events. -/
structure ErrorsInError (s : LinkErrors) : Prop where
  stored : ∀ (id : UInt32) (link : LinkInfo), s.monitor.links[id]? = some link → link.ErrorsInError
  posted : ∀ event ∈ s.posted, ∀ link, event.link? = some link → link.ErrorsInError
  shown : ∀ events : List GraphEvent, (∀ event ∈ events, event ∈ s.posted) →
    ∀ key link, (graphOf events).links.lookup key = some link → link.ErrorsInError

/-- A link with an error text is not taken out of the error state. -/
def Stays (s : LinkErrors) : Callback → Prop
  | .linkInfo id (some info) => info.error = none → ∀ old : LinkInfo, s.monitor.links[id]? = some old →
      old.error ≠ "" → linkStateText info.state "error" = "error"
  | _ => True

end LinkErrors

theorem errorsInError_image {link : LinkInfo} (h : link.ErrorsInError) : link.image.ErrorsInError := by
  intro filled
  have text : link.error ≠ "" := by
    intro empty
    apply filled
    rw [LinkInfo.image, empty]
    rfl
  have state : link.image.state = PwLinkState.fromString (utf16 link.state) := rfl
  rw [state, h text]
  rfl

theorem errorsInError_graphOf {events : List GraphEvent}
    (carried : ∀ event ∈ events, ∀ link, event.link? = some link → link.ErrorsInError) :
    ∀ key link, (graphOf events).links.lookup key = some link → link.ErrorsInError := by
  induction events using List.reverseRecOn with
  | nil =>
    intro key link found
    simp [graphOf] at found
  | append_singleton events event ih =>
    intro key link found
    have before := ih fun e mem => carried e (List.mem_append_left _ mem)
    have last := carried event (by simp)
    have stored (info : LinkInfo) (carries : event.link? = some info)
        (put : (LinkedMap.put (graphOf events).links info.image.id info.image).lookup key = some link) :
        link.ErrorsInError := by
      rw [LinkedMap.lookup_put] at put
      split at put
      next =>
        cases put
        exact errorsInError_image (last info carries)
      next => exact before key link put
    rw [graphOf_append_singleton] at found
    cases event with
    | linkAdded info => exact stored info rfl found
    | linkStateChanged info => exact stored info rfl found
    | linkRemoved id =>
      change ((graphOf events).links.erase (dartId id)).lookup key = some link at found
      rw [LinkedMap.lookup_erase] at found
      split at found
      next => cases found
      next => exact before key link found
    | nodeAdded | nodeRemoved | nodeInfoChanged | portAdded | portRemoved | paramChanged =>
      exact before key link found

theorem newLinkInfo_error {id : UInt32} {props : Option SpaDict} {info : LinkInfo}
    (parsed : newLinkInfo id props = .ok info) : info.error = "" := by
  obtain ⟨_, _, _, _, _, _, _, _, rfl⟩ := newLinkInfo_eq_ok.mp parsed
  rfl

namespace RegistryMonitor

theorem record_link {m : RegistryMonitor} {id : UInt32} {link : LinkInfo} :
    m.record .link id = some (.link link) ↔ m.links[id]? = some link := by
  simp [record]

/-- A stored link is an old one, a new one or what an info made of an old one. -/
theorem links_call {m : RegistryMonitor} {c : Callback} {id : UInt32} {link : LinkInfo}
    (found : (m.call c).1.links[id]? = some link) :
    m.links[id]? = some link ∨ link.error = "" ∨
      ∃ info old, c = .linkInfo id (some info) ∧ m.links[id]? = some old ∧ link = old.update info := by
  cases c with
  | global i type props bound =>
    have recorded := record_link.mpr found
    simp only [call, record_onGlobal] at recorded
    split at recorded
    next object announces =>
      split at recorded
      next here =>
        cases recorded
        rcases announced_cases announces with same | ⟨_, _, same⟩ | ⟨info, parsed, same⟩ | same
        · cases same
        · cases same
        · cases same
          exact Or.inr (Or.inl (newLinkInfo_error parsed))
        · cases same
      next => exact Or.inl (record_link.mp recorded)
    next => exact Or.inl (record_link.mp recorded)
  | globalRemove i =>
    have recorded := record_link.mpr found
    simp only [call, record_onGlobalRemove] at recorded
    split at recorded
    next => cases recorded
    next => exact Or.inl (record_link.mp recorded)
  | nodeInfo i info =>
    simp only [call, onNodeInfo] at found
    split at found <;> exact Or.inl found
  | portInfo i info =>
    simp only [call, onPortInfo] at found
    split at found <;> exact Or.inl found
  | linkInfo i info =>
    simp only [call, onLinkInfo] at found
    split at found
    next info old there =>
      by_cases here : i = id
      · subst here
        rw [Std.ExtTreeMap.getElem?_insert_self] at found
        exact Or.inr (Or.inr ⟨info, old, rfl, there, (Option.some.inj found).symm⟩)
      · simp [Std.ExtTreeMap.getElem?_insert, here] at found
        exact Or.inl found
    next => exact Or.inl found
  | deviceInfo i info =>
    simp only [call, onDeviceInfo] at found
    split at found <;> exact Or.inl found

/-- A posted link is what an info has made of a stored one. -/
theorem posted_link_call {m : RegistryMonitor} {c : Callback} {event : GraphEvent} {link : LinkInfo}
    (posted : event ∈ (m.call c).2) (carries : event.link? = some link) :
    ∃ id info old, c = .linkInfo id (some info) ∧ m.links[id]? = some old ∧ link = old.update info := by
  cases c with
  | global | deviceInfo => cases posted
  | globalRemove i =>
    simp only [call, onGlobalRemove] at posted
    split at posted
    next => cases posted
    next type _ =>
      unfold eraseRecord at posted
      split_ifs at posted
      · cases List.mem_singleton.mp posted
        cases carries
      · cases List.mem_singleton.mp posted
        cases carries
      · cases List.mem_singleton.mp posted
        cases carries
      · cases posted
      · cases posted
  | nodeInfo i info =>
    simp only [call, onNodeInfo] at posted
    split at posted
    next =>
      cases List.mem_singleton.mp posted
      split at carries <;> cases carries
    next => cases posted
  | portInfo i info =>
    simp only [call, onPortInfo] at posted
    split at posted
    next =>
      cases List.mem_singleton.mp posted
      cases carries
    next => cases posted
  | linkInfo i info =>
    simp only [call, onLinkInfo] at posted
    split at posted
    next info old there =>
      cases List.mem_singleton.mp posted
      refine ⟨i, info, old, rfl, there, ?_⟩
      split at carries
      next => exact (Option.some.inj carries).symm
      next => exact (Option.some.inj carries).symm
    next => cases posted

end RegistryMonitor

namespace LinkErrors

theorem next_cases {s t : LinkErrors} {c : Callback} (step : next s c = some t) :
    givesErrors c ∧ t = ⟨(s.monitor.call c).1, s.posted ++ (s.monitor.call c).2⟩ := by
  obtain ⟨gives, same⟩ := Option.ite_none_right_eq_some.mp step
  exact ⟨gives, (Option.some.inj same).symm⟩

/-- An info keeps the promise for the link it is about exactly if the link stays in its error state. -/
theorem update_errorsInError_iff {old : LinkInfo} {info : PwLinkInfo} (promise : old.ErrorsInError)
    (gives : info.error = none ∨ info.state = PW_LINK_STATE_ERROR) :
    (old.update info).ErrorsInError ↔
      (info.error = none → old.error ≠ "" → linkStateText info.state "error" = "error") := by
  have error : (old.update info).error = info.error.getD old.error := rfl
  have state : (old.update info).state = linkStateText info.state old.state := rfl
  unfold LinkInfo.ErrorsInError
  rw [error, state]
  cases text : info.error with
  | none =>
    simp only [Option.getD_none, true_implies]
    constructor
    · intro kept filled
      have was := promise filled
      rw [was] at kept
      exact kept filled
    · intro stays filled
      rw [promise filled]
      exact stays filled
  | some text =>
    have inError : info.state = PW_LINK_STATE_ERROR := by simpa [*] using gives
    refine iff_of_true (fun _ => ?_) nofun
    rw [inError]
    rfl

theorem errorsInError_start : ErrorsInError {} where
  stored id link found := by simp at found
  posted event mem := by cases mem
  shown events sent := by
    have nothing : events = [] := List.eq_nil_iff_forall_not_mem.mpr fun event mem => by cases sent event mem
    rw [nothing]
    intro key link found
    simp [graphOf] at found

theorem errorsInError_next {s t : LinkErrors} {c : Callback} (promise : s.ErrorsInError) (step : next s c = some t) :
    t.ErrorsInError ↔ s.Stays c := by
  obtain ⟨gives, rfl⟩ := next_cases step
  constructor
  · intro after
    cases c with
    | linkInfo id info =>
      cases info with
      | none => trivial
      | some info =>
        intro none old there filled
        have made : (s.monitor.call (.linkInfo id (some info))).1.links[id]? = some (old.update info) := by
          simp [RegistryMonitor.call, RegistryMonitor.onLinkInfo, there]
        have updated := after.stored id (old.update info) made
        exact (update_errorsInError_iff (promise.stored id old there) (Or.inl none)).mp updated none filled
    | global | globalRemove | nodeInfo | portInfo | deviceInfo => trivial
  · intro stays
    have updated (id : UInt32) (info : PwLinkInfo) (old : LinkInfo) (about : c = .linkInfo id (some info))
        (there : s.monitor.links[id]? = some old) : (old.update info).ErrorsInError := by
      subst about
      have given : info.error = none ∨ info.state = PW_LINK_STATE_ERROR := by simpa [givesErrors] using gives
      exact (update_errorsInError_iff (promise.stored id old there) given).mpr fun none => stays none old there
    have posted : ∀ event ∈ s.posted ++ (s.monitor.call c).2, ∀ link, event.link? = some link →
        link.ErrorsInError := by
      intro event mem link carries
      rcases List.mem_append.mp mem with before | now
      · exact promise.posted event before link carries
      · obtain ⟨id, info, old, about, there, rfl⟩ := RegistryMonitor.posted_link_call now carries
        exact updated id info old about there
    refine ⟨fun id link found => ?_, posted, fun events sent => ?_⟩
    · rcases RegistryMonitor.links_call found with kept | new | ⟨info, old, about, there, rfl⟩
      · exact promise.stored id link kept
      · exact fun filled => absurd new filled
      · exact updated id info old about there
    · exact errorsInError_graphOf fun event mem => posted event (sent event mem)

/-- Error texts are seen only in the error state, in all states of a run, exactly if no info takes a link with
one out of it. -/
theorem link_errors_iff {s : LinkErrors} {cs : List Callback} (run : Run (Takes next) {} cs s) :
    (∀ pre t, pre <+: cs → Run (Takes next) {} pre t → t.ErrorsInError) ↔ Run (Guarded next Stays) {} cs s :=
  always_iff_guarded (I := fun _ => True) trivial (fun _ _ _ _ _ => trivial) errorsInError_start
    (fun _ _ _ _ promise step => errorsInError_next promise step) run

/-- A link that fails and is removed. -/
def failingLink : List Callback :=
  [.global 40 (some interfaceLink) none (some 5),
    .linkInfo 40 (some ⟨10, 30, 11, 31, PW_LINK_STATE_ERROR, some "no more input formats"⟩), .globalRemove 40]

theorem link_errors_iff_failingLink : ∃ s, Run (Takes next) {} failingLink s ∧ s.ErrorsInError := by
  have run : Run (Takes next) {} failingLink _ := run_takes_iff.mpr rfl
  have announced : Run (Guarded next Stays) {} (failingLink.take 1) _ := Run.single ⟨trivial, rfl⟩
  have failed : Run (Guarded next Stays) {} (failingLink.take 2) _ := Run.next announced ⟨nofun, rfl⟩
  have removed : Run (Guarded next Stays) {} failingLink _ := Run.next failed ⟨trivial, rfl⟩
  exact ⟨_, run, (link_errors_iff run).mpr removed failingLink _ (List.prefix_refl _) run⟩

/-- A link that recovers keeps the text of its error. -/
def recoveringLink : List Callback :=
  [.global 40 (some interfaceLink) none (some 5),
    .linkInfo 40 (some ⟨10, 30, 11, 31, PW_LINK_STATE_ERROR, some "no more input formats"⟩),
    .linkInfo 40 (some ⟨10, 30, 11, 31, PW_LINK_STATE_ACTIVE, none⟩)]

theorem error_kept_when_active : ∃ s, Run (Takes next) {} recoveringLink s ∧ ¬s.ErrorsInError ∧
    ∃ link, s.monitor.links[(40 : UInt32)]? = some link ∧ link.state = "active" ∧
      link.error = "no more input formats" := by
  refine ⟨_, run_takes_iff.mpr rfl, fun promise => ?_, _, rfl, rfl, rfl⟩
  have active := promise.stored 40 _ rfl (by decide)
  exact absurd active (by decide)

end LinkErrors

end PwDart
