import PwDart.ObjectAccount
import PwDart.SharedBridges

namespace PwDart

open Json ObjectTrace

/-- What goes over the FFI by pointer: a native client, a text made by `toNativeUtf8`, a text that the
native side has allocated for its answer. -/
inductive FfiObject
  | client (number : Nat)
  | argument (number : Nat)
  | answer (number : Nat)
deriving DecidableEq

def FfiObject.number : FfiObject → Nat
  | client number => number
  | argument number => number
  | answer number => number

abbrev FfiCall : Type := Call FfiObject Empty

/-- A text has to go before the client it was passed to. -/
def textsFirst : FfiObject → FfiObject → Bool
  | .argument _, .client _ => true
  | .answer _, .client _ => true
  | _, _ => false

/-- A method of `PwNativeBridge` with what the native side answers. Other answers change nothing at the
boundary: a negative result is thrown after the call, and `getVersionInfo` passes no pointer. -/
inductive BridgeCall
  | connect (remoteName : Option Text) (answer : NativeConnect)
  | disconnect
  | getGraphSnapshot (answer : NativeSnapshot)
  | getNodeParams (nodeId : Int) (answer : NativeSnapshot)
  | createLink (outputPortId inputPortId : Int)
  | destroyLink (linkId : Int)
  | setNodeParam (nodeId : Int) (key value : Text)
  | getVersionInfo

/-- `pwDartConnect`. The name is freed however the call ends. -/
def pwDartConnectCalls (n : Nat) (remoteName : Option Text) (answer : NativeConnect) : List FfiCall :=
  match remoteName, answer with
  | none, .returnsClient => [.create (.client (n + 1)) []]
  | none, _ => []
  | some _, .throws => [.create (.argument n) [], .destroy (.argument n)]
  | some _, .returnsNull => [.create (.argument n) [], .use (.argument n), .destroy (.argument n)]
  | some _, .returnsClient =>
    [.create (.argument n) [], .create (.client (n + 1)) [.argument n], .destroy (.argument n)]

/-- `pwDartGetGraphSnapshot` and `pwDartGetNodeParams`. The answer is freed also when `toDartString` throws. -/
def pwDartQueryCalls (n client : Nat) : NativeSnapshot → List FfiCall
  | .throws => []
  | .returnsNull => [.use (.client client)]
  | .returnsText _ => [.use (.client client), .create (.answer n) [.client client], .use (.answer n), .destroy (.answer n)]

namespace PwNativeBridge

/-- The native client behind a handle that is not null. -/
def client (bridge : PwNativeBridge) : Option Nat :=
  match bridge.clientHandle with
  | some (.client j) => some j
  | _ => none

/-- What a method does at the boundary. Without a client those after `_ensureConnected` throw at once. -/
def ffiCalls (bridge : PwNativeBridge) (n : Nat) : BridgeCall → List FfiCall
  | .connect remoteName answer => pwDartConnectCalls n remoteName answer
  | .getVersionInfo => []
  | call =>
    match bridge.client, call with
    | none, _ => []
    | some j, .disconnect => [.destroy (.client j)]
    | some j, .getGraphSnapshot answer => pwDartQueryCalls n j answer
    | some j, .getNodeParams _ answer => pwDartQueryCalls n j answer
    | some j, .setNodeParam _ _ _ =>
      [.create (.argument n) [], .use (.client j), .use (.argument n), .destroy (.argument n)]
    | some j, _ => [.use (.client j)]

/-- The bridge after a method. -/
def after (bridge : PwNativeBridge) (n : Nat) : BridgeCall → PwNativeBridge
  | .connect _ answer => (bridge.connect answer (n + 1)).1
  | .disconnect => bridge.disconnect.1
  | _ => bridge

end PwNativeBridge

/-- The bridges of an isolate and what has gone over the FFI. `displaced` are the clients whose handle was
overwritten by another `connect` on the same bridge. -/
structure NativeBoundary where
  bridges : Nat → PwNativeBridge := fun _ => {}
  displaced : List Nat := []
  next : Nat := 0
  trace : List FfiCall := []

namespace NativeBoundary

def displaces (bridge : PwNativeBridge) : BridgeCall → List Nat
  | .connect _ .throws => []
  | .connect _ _ => bridge.client.toList
  | _ => []

def call (s : NativeBoundary) (k : Nat) (c : BridgeCall) : NativeBoundary :=
  { bridges := Function.update s.bridges k ((s.bridges k).after s.next c)
    displaced := s.displaced ++ displaces (s.bridges k) c
    next := s.next + 2
    trace := s.trace ++ (s.bridges k).ffiCalls s.next c }

/-- The boundary after some methods of some bridges, called by whatever clients there are. -/
def afterCalls (calls : List (Nat × BridgeCall)) : NativeBoundary := calls.foldl (fun s c => s.call c.1 c.2) {}

/-- A client has a handle on some bridge. -/
def Held (s : NativeBoundary) (j : Nat) : Prop := ∃ k, (s.bridges k).client = some j

def Owned (s : NativeBoundary) (o : FfiObject) : Prop := ∃ j, o = .client j ∧ (s.Held j ∨ j ∈ s.displaced)

/-- Only clients are left, each on one bridge or displaced. -/
structure Balanced (s : NativeBoundary) : Prop where
  account : Account textsFirst FfiObject.number s.Owned s.next s.trace
  below : ∀ j, s.Held j ∨ j ∈ s.displaced → j < s.next
  apart : ∀ j, s.Held j → j ∉ s.displaced
  single : ∀ a b j, (s.bridges a).client = some j → (s.bridges b).client = some j → a = b

theorem balanced_start : Balanced {} where
  account := Account.start.congr fun o => by simp [Owned, Held, PwNativeBridge.client]
  below j := by simp [Held, PwNativeBridge.client]
  apart j held := by simp [Held, PwNativeBridge.client] at held
  single a b j held := by simp [PwNativeBridge.client] at held

theorem held_update {s : NativeBoundary} {k j : Nat} {b : PwNativeBridge} :
    (∃ a, (Function.update s.bridges k b a).client = some j) ↔
      b.client = some j ∨ ∃ a, a ≠ k ∧ (s.bridges a).client = some j := by
  constructor
  · rintro ⟨a, held⟩
    by_cases here : a = k
    · subst here
      rw [Function.update_self] at held
      exact Or.inl held
    · rw [Function.update_of_ne here] at held
      exact Or.inr ⟨a, here, held⟩
  · rintro (held | ⟨a, other, held⟩)
    · exact ⟨k, by rwa [Function.update_self]⟩
    · exact ⟨a, by rwa [Function.update_of_ne other]⟩

/-- The handles after a method: a new one on the bridge, or those there were. -/
theorem single_call {s : NativeBoundary} (h : s.Balanced) (k : Nat) {b : PwNativeBridge}
    (new : ∀ j, b.client = some j → s.next ≤ j ∨ (s.bridges k).client = some j) (a a' j : Nat)
    (held : (Function.update s.bridges k b a).client = some j)
    (held' : (Function.update s.bridges k b a').client = some j) : a = a' := by
  have apart (c : Nat) (other : c ≠ k) (here : b.client = some j) (there : (s.bridges c).client = some j) : False := by
    rcases new j here with late | old
    · have lt := h.below j (Or.inl ⟨c, there⟩)
      omega
    · exact other (h.single c k j there old)
  by_cases ha : a = k <;> by_cases ha' : a' = k
  · rw [ha, ha']
  · rw [ha, Function.update_self] at held
    rw [Function.update_of_ne ha'] at held'
    exact (apart a' ha' held held').elim
  · rw [Function.update_of_ne ha] at held
    rw [ha', Function.update_self] at held'
    exact (apart a ha held' held).elim
  · rw [Function.update_of_ne ha] at held
    rw [Function.update_of_ne ha'] at held'
    exact h.single a a' j held held'

/-- A method that leaves its bridge as it was. -/
theorem balanced_quiet {s : NativeBoundary} (h : s.Balanced) {k : Nat} {c : BridgeCall}
    (kept : (s.bridges k).after s.next c = s.bridges k) (none : displaces (s.bridges k) c = [])
    (account : Account textsFirst FfiObject.number s.Owned (s.next + 2)
      (s.trace ++ (s.bridges k).ffiCalls s.next c)) : (s.call k c).Balanced := by
  have same : s.call k c = ⟨s.bridges, s.displaced, s.next + 2, s.trace ++ (s.bridges k).ffiCalls s.next c⟩ := by
    simp [call, kept, none]
  rw [same]
  exact ⟨account, fun j known => Nat.lt_add_right 2 (h.below j known), h.apart, h.single⟩

/-- `connect` gives its bridge a new handle or none; the old one is displaced. -/
theorem balanced_connect {s : NativeBoundary} (h : s.Balanced) {k : Nat} {c : BridgeCall} {b : PwNativeBridge}
    (new : Option Nat) (bridge : (s.bridges k).after s.next c = b) (client : b.client = new)
    (fresh : ∀ j, new = some j → j = s.next + 1)
    (displaced : displaces (s.bridges k) c = (s.bridges k).client.toList)
    (account : Account textsFirst FfiObject.number (fun o => s.Owned o ∨ ∃ j, new = some j ∧ o = .client j) (s.next + 2)
      (s.trace ++ (s.bridges k).ffiCalls s.next c)) : (s.call k c).Balanced := by
  have same : s.call k c = ⟨Function.update s.bridges k b, s.displaced ++ (s.bridges k).client.toList, s.next + 2,
      s.trace ++ (s.bridges k).ffiCalls s.next c⟩ := by
    simp [call, bridge, displaced]
  rw [same]
  have known (j : Nat) : (∃ a, (Function.update s.bridges k b a).client = some j) ∨
      j ∈ s.displaced ++ (s.bridges k).client.toList ↔ (s.Held j ∨ j ∈ s.displaced) ∨ new = some j := by
    rw [held_update, client, List.mem_append, Option.mem_toList]
    constructor
    · rintro ((now | ⟨a, _, held⟩) | old | old)
      · exact Or.inr now
      · exact Or.inl (Or.inl ⟨a, held⟩)
      · exact Or.inl (Or.inr old)
      · exact Or.inl (Or.inl ⟨k, old⟩)
    · rintro ((⟨a, held⟩ | old) | now)
      · by_cases here : a = k
        · exact Or.inr (Or.inr (here ▸ held))
        · exact Or.inl (Or.inr ⟨a, here, held⟩)
      · exact Or.inr (Or.inl old)
      · exact Or.inl (Or.inl now)
  constructor
  · refine account.congr fun o => ?_
    constructor
    · rintro (⟨j, rfl, old⟩ | ⟨j, now, rfl⟩)
      · exact ⟨j, rfl, (known j).mpr (Or.inl old)⟩
      · exact ⟨j, rfl, (known j).mpr (Or.inr now)⟩
    · rintro ⟨j, rfl, here⟩
      rcases (known j).mp here with old | now
      · exact Or.inl ⟨j, rfl, old⟩
      · exact Or.inr ⟨j, now, rfl⟩
  · intro j here
    rcases (known j).mp here with old | now
    · exact Nat.lt_add_right 2 (h.below j old)
    · have value := fresh j now
      change j < s.next + 2
      omega
  · intro j held out
    have late (now : new = some j) (there : s.Held j ∨ j ∈ s.displaced) : False := by
      have lt := h.below j there
      have value := fresh j now
      omega
    rcases held_update.mp held with now | ⟨a, other, there⟩ <;> rcases List.mem_append.mp out with old | old
    · exact late (client ▸ now) (Or.inr old)
    · exact late (client ▸ now) (Or.inl ⟨k, Option.mem_toList.mp old⟩)
    · exact h.apart j ⟨a, there⟩ old
    · exact other (h.single a k j there (Option.mem_toList.mp old))
  · refine single_call h k fun j now => Or.inl ?_
    have value := fresh j (client ▸ now)
    omega

/-- `disconnect` destroys the client of its bridge, if there is one. -/
theorem balanced_disconnect {s : NativeBoundary} (h : s.Balanced) (k : Nat) : (s.call k .disconnect).Balanced := by
  have off : ((s.bridges k).after s.next .disconnect).client = none := by
    simp only [PwNativeBridge.after, PwNativeBridge.disconnect]
    split
    next => rfl
    next none => simp [PwNativeBridge.client, none]
  generalize bridge : (s.bridges k).after s.next .disconnect = b at off
  cases client : (s.bridges k).client with
  | none =>
    have calls : (s.bridges k).ffiCalls s.next .disconnect = [] := by simp [PwNativeBridge.ffiCalls, client]
    refine balanced_connect h none bridge off (fun j now => by cases now) (by simp [displaces, client]) ?_
    rw [calls, List.append_nil]
    exact (h.account.mono (Nat.le_add_right _ 2)).congr fun o => by simp
  | some i =>
    have calls : (s.bridges k).ffiCalls s.next .disconnect = [.destroy (.client i)] := by
      simp [PwNativeBridge.ffiCalls, client]
    have same : s.call k .disconnect = ⟨Function.update s.bridges k b, s.displaced, s.next + 2,
        s.trace ++ [.destroy (.client i)]⟩ := by
      simp [call, bridge, displaces, calls]
    rw [same]
    have held : s.Held i := ⟨k, client⟩
    have known (j : Nat) : (∃ a, (Function.update s.bridges k b a).client = some j) ↔ s.Held j ∧ j ≠ i := by
      rw [held_update, off]
      constructor
      · rintro (none | ⟨a, other, there⟩)
        · cases none
        · refine ⟨⟨a, there⟩, ?_⟩
          rintro rfl
          exact other (h.single a k j there client)
      · rintro ⟨⟨a, there⟩, different⟩
        refine Or.inr ⟨a, ?_, there⟩
        rintro rfl
        exact different (Option.some.inj (there.symm.trans client))
    constructor
    · have gone := h.account.destroy (o := .client i) ⟨i, rfl, Or.inl held⟩ (by
        rintro _ ⟨j, rfl, _⟩
        rfl)
      refine (gone.mono (Nat.le_add_right _ 2)).congr fun o => ?_
      constructor
      · rintro ⟨⟨j, rfl, there | there⟩, different⟩
        · exact ⟨j, rfl, Or.inl ((known j).mpr ⟨there, fun same => different (by rw [same])⟩)⟩
        · exact ⟨j, rfl, Or.inr there⟩
      · rintro ⟨j, rfl, there | there⟩
        · obtain ⟨old, different⟩ := (known j).mp there
          exact ⟨⟨j, rfl, Or.inl old⟩, fun same => different (FfiObject.client.inj same)⟩
        · refine ⟨⟨j, rfl, Or.inr there⟩, ?_⟩
          intro same
          exact h.apart i held (FfiObject.client.inj same ▸ there)
    · rintro j (there | there)
      · exact Nat.lt_add_right 2 (h.below j (Or.inl ((known j).mp there).1))
      · exact Nat.lt_add_right 2 (h.below j (Or.inr there))
    · intro j there
      exact h.apart j ((known j).mp there).1
    · exact single_call h k fun j now => by rw [off] at now; cases now

theorem not_owned_argument (s : NativeBoundary) (n : Nat) : ¬s.Owned (.argument n) := by
  rintro ⟨j, same, _⟩
  cases same

theorem not_owned_answer (s : NativeBoundary) (n : Nat) : ¬s.Owned (.answer n) := by
  rintro ⟨j, same, _⟩
  cases same

/-- An argument that is made for a call and freed after it. -/
theorem account_argument {s : NativeBoundary} (h : s.Balanced) (used : List FfiObject)
    (usable : ∀ p ∈ used, s.Owned p ∨ p = .argument s.next) :
    Account textsFirst FfiObject.number s.Owned (s.next + 2)
      (s.trace ++ ([.create (.argument s.next) []] ++ (used.map Call.use ++ [.destroy (.argument s.next)]))) :=
  (h.account.borrow (.argument s.next) [] used (Nat.le_refl _) (s.not_owned_argument _) (by simp)
    (fun p => by cases p <;> rfl) usable).mono (Nat.le_succ _)

/-- An answer that is read and given back. -/
theorem account_query {s : NativeBoundary} (h : s.Balanced) {j : Nat} (held : s.Held j) (answer : NativeSnapshot) :
    Account textsFirst FfiObject.number s.Owned (s.next + 2) (s.trace ++ pwDartQueryCalls s.next j answer) := by
  have owned : s.Owned (.client j) := ⟨j, rfl, Or.inl held⟩
  cases answer with
  | throws =>
    rw [pwDartQueryCalls, List.append_nil]
    exact h.account.mono (Nat.le_add_right _ 2)
  | returnsNull => exact (h.account.use owned).mono (Nat.le_add_right _ 2)
  | returnsText bytes =>
    have read := (h.account.use owned).borrow (.answer s.next) [.client j] [.answer s.next] (Nat.le_refl _)
      (s.not_owned_answer _) (by simpa using owned) (fun p => by cases p <;> rfl) (by simp)
    rw [List.append_assoc] at read
    exact read.mono (Nat.le_succ _)

theorem balanced_connect_call {s : NativeBoundary} (h : s.Balanced) (k : Nat) (remoteName : Option Text)
    (answer : NativeConnect) : (s.call k (.connect remoteName answer)).Balanced := by
  have unnamed : Account textsFirst FfiObject.number s.Owned (s.next + 2) (s.trace ++ []) := by
    rw [List.append_nil]
    exact h.account.mono (Nat.le_add_right _ 2)
  cases answer with
  | throws =>
    refine balanced_quiet h rfl rfl ?_
    cases remoteName with
    | none => exact unnamed
    | some name => exact account_argument h [] (by simp)
  | returnsNull =>
    refine balanced_connect h none rfl rfl (fun j now => by cases now) rfl ?_
    have same (o : FfiObject) : s.Owned o ↔ s.Owned o ∨ ∃ j, (none : Option Nat) = some j ∧ o = .client j := by
      simp
    cases remoteName with
    | none => exact unnamed.congr same
    | some name => exact (account_argument h [.argument s.next] (by simp)).congr same
  | returnsClient =>
    refine balanced_connect h (some (s.next + 1)) rfl rfl (fun j now => (Option.some.inj now).symm) rfl ?_
    cases remoteName with
    | none =>
      have made := h.account.create (.client (s.next + 1)) [] (Nat.le_succ _) (by simp)
      exact made.congr fun o => by simp
    | some name =>
      have named := h.account.create (.argument s.next) [] (Nat.le_refl _) (by simp)
      have made := named.create (.client (s.next + 1)) [.argument s.next] (Nat.le_refl _) (by simp)
      have freed := made.destroy (o := .argument s.next) (by simp) fun p _ => by cases p <;> rfl
      have parts : s.trace ++ (s.bridges k).ffiCalls s.next (.connect (some name) .returnsClient) =
          s.trace ++ [.create (.argument s.next) []] ++ [.create (.client (s.next + 1)) [.argument s.next]] ++
            [.destroy (.argument s.next)] := by
        simp [PwNativeBridge.ffiCalls, pwDartConnectCalls]
      rw [parts]
      refine freed.congr fun o => ?_
      have apart : s.Owned o → o ≠ .argument s.next := by
        rintro owned rfl
        exact s.not_owned_argument _ owned
      constructor
      · rintro ⟨(owned | same) | same, different⟩
        · exact Or.inl owned
        · exact absurd same different
        · exact Or.inr ⟨_, rfl, same⟩
      · rintro (owned | ⟨j, now, same⟩)
        · exact ⟨Or.inl (Or.inl owned), apart owned⟩
        · cases Option.some.inj now
          exact ⟨Or.inr same, by rw [same]; exact FfiObject.noConfusion⟩

theorem balanced_call {s : NativeBoundary} (h : s.Balanced) (k : Nat) (c : BridgeCall) : (s.call k c).Balanced := by
  have nothing : Account textsFirst FfiObject.number s.Owned (s.next + 2) (s.trace ++ []) := by
    rw [List.append_nil]
    exact h.account.mono (Nat.le_add_right _ 2)
  cases c with
  | connect remoteName answer => exact balanced_connect_call h k remoteName answer
  | disconnect => exact balanced_disconnect h k
  | getVersionInfo => exact balanced_quiet h rfl rfl nothing
  | getGraphSnapshot answer | getNodeParams nodeId answer =>
    refine balanced_quiet h rfl rfl ?_
    cases client : (s.bridges k).client with
    | none => simpa [PwNativeBridge.ffiCalls, client] using nothing
    | some j => simpa [PwNativeBridge.ffiCalls, client] using account_query h ⟨k, client⟩ answer
  | createLink | destroyLink =>
    refine balanced_quiet h rfl rfl ?_
    cases client : (s.bridges k).client with
    | none => simpa [PwNativeBridge.ffiCalls, client] using nothing
    | some j =>
      have used := (h.account.use (o := .client j) ⟨j, rfl, Or.inl ⟨k, client⟩⟩).mono (Nat.le_add_right _ 2)
      simpa [PwNativeBridge.ffiCalls, client] using used
  | setNodeParam nodeId key value =>
    refine balanced_quiet h rfl rfl ?_
    cases client : (s.bridges k).client with
    | none => simpa [PwNativeBridge.ffiCalls, client] using nothing
    | some j =>
      have owned : s.Owned (.client j) := ⟨j, rfl, Or.inl ⟨k, client⟩⟩
      have passed := account_argument h [.client j, .argument s.next] (by simpa using owned)
      simpa [PwNativeBridge.ffiCalls, client] using passed

theorem balanced_afterCalls (calls : List (Nat × BridgeCall)) : (afterCalls calls).Balanced := by
  induction calls using List.reverseRecOn with
  | nil => exact balanced_start
  | append_singleton calls c ih =>
    have last : afterCalls (calls ++ [c]) = (afterCalls calls).call c.1 c.2 := by simp [afterCalls]
    rw [last]
    exact balanced_call ih c.1 c.2

/-- However the bridges are used, no client and no text is used or freed after it has been freed, nothing is
used that was not made, and a text goes before the client it was passed to. What is left is a client for each
connected bridge, and those whose handle a second `connect` has overwritten. -/
theorem boundary_kept (calls : List (Nat × BridgeCall)) :
    Lawful textsFirst (afterCalls calls).trace ∧
      (∀ before call after, (afterCalls calls).trace = before ++ call :: after →
        ∀ o ∈ call.names, o ∈ made before) ∧
      (∀ o, o ∈ made (afterCalls calls).trace ∧ .destroy o ∉ (afterCalls calls).trace ↔
        ∃ j, o = .client j ∧ ((afterCalls calls).Held j ∨ j ∈ (afterCalls calls).displaced)) ∧
      (∀ j, (afterCalls calls).Held j → j ∉ (afterCalls calls).displaced) ∧
      ∀ a b j, ((afterCalls calls).bridges a).client = some j → ((afterCalls calls).bridges b).client = some j →
        a = b := by
  have balanced := balanced_afterCalls calls
  obtain ⟨lawful, left⟩ := balanced.account.balance
  exact ⟨lawful, fun _ _ _ split _ named => balanced.account.named_made split named, left, balanced.apart,
    balanced.single⟩

end NativeBoundary

end PwDart
