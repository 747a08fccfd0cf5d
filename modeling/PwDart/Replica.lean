import Mathlib.Logic.Function.Basic
import Mathlib.Data.List.Basic

namespace Replica

/-- A primary holds a value for every key and publishes some of its changes; a replica is given the
published ones in order, and snapshots in between. Values are named by their positions in the
history of their key. The first `overtaken` queued changes are older than the latest snapshot, and
`settled` is what had been published when it was taken. -/
structure State (κ ν : Type*) where
  history : κ → List ν
  published : κ → Nat
  queue : List (κ × Nat)
  shown : κ → Nat
  settled : κ → Nat
  overtaken : Nat

namespace State

def start {κ ν : Type*} (v : ν) : State κ ν :=
  ⟨fun _ => [v], fun _ => 0, [], fun _ => 0, fun _ => 0, 0⟩

def latest {κ ν : Type*} (s : State κ ν) (k : κ) : Nat := (s.history k).length - 1

/-- A change that is not published. -/
def write {κ ν : Type*} [DecidableEq κ] (s : State κ ν) (k : κ) (v : ν) : State κ ν :=
  { s with history := Function.update s.history k (s.history k ++ [v]) }

def publish {κ ν : Type*} [DecidableEq κ] (s : State κ ν) (k : κ) (v : ν) : State κ ν :=
  { s.write k v with
    published := Function.update s.published k (s.history k).length
    queue := s.queue ++ [(k, (s.history k).length)] }

def deliver {κ ν : Type*} [DecidableEq κ] (s : State κ ν) : State κ ν :=
  match s.queue with
  | [] => s
  | (k, n) :: rest =>
    { s with
      queue := rest
      shown := Function.update s.shown k n
      overtaken := s.overtaken - 1 }

def snapshot {κ ν : Type*} (s : State κ ν) : State κ ν :=
  { s with shown := s.latest, settled := s.published, overtaken := s.queue.length }

end State

structure Consistent {κ ν : Type*} (s : State κ ν) : Prop where
  published_lt : ∀ k, s.published k < (s.history k).length
  shown_lt : ∀ k, s.shown k < (s.history k).length
  ordered : s.queue.Pairwise fun a b => a.1 = b.1 → a.2 < b.2
  queued_le : ∀ k n, (k, n) ∈ s.queue → n ≤ s.published k
  last_queued : ∀ k n, (k, n) ∈ s.queue → (k, s.published k) ∈ s.queue
  caught_up : ∀ k, (∀ n, (k, n) ∉ s.queue) → s.published k ≤ s.shown k
  overtaken_le : s.overtaken ≤ s.queue.length
  newer : ∀ k n, (k, n) ∈ s.queue.drop s.overtaken → s.shown k < n
  settled_le : ∀ k, s.settled k ≤ s.published k
  overtaken_le_settled : ∀ k n, (k, n) ∈ s.queue.take s.overtaken → n ≤ s.settled k
  settled_queued : ∀ k n, (k, n) ∈ s.queue.take s.overtaken →
    (k, s.settled k) ∈ s.queue.take s.overtaken
  settled_shown : ∀ k, (∀ n, (k, n) ∉ s.queue.take s.overtaken) → s.settled k ≤ s.shown k

theorem consistent_start {κ ν : Type*} (v : ν) : Consistent (State.start v : State κ ν) := by
  constructor <;> simp [State.start]

theorem history_write_length {κ ν : Type*} [DecidableEq κ] (s : State κ ν) (k : κ) (v : ν) (j : κ) :
    (s.history j).length ≤ ((s.write k v).history j).length := by
  by_cases hj : j = k
  · subst hj; simp [State.write]
  · simp [State.write, hj]

theorem consistent_write {κ ν : Type*} [DecidableEq κ] {s : State κ ν} (h : Consistent s)
    (k : κ) (v : ν) : Consistent (s.write k v) where
  published_lt j := Nat.lt_of_lt_of_le (h.published_lt j) (history_write_length s k v j)
  shown_lt j := Nat.lt_of_lt_of_le (h.shown_lt j) (history_write_length s k v j)
  ordered := h.ordered
  queued_le := h.queued_le
  last_queued := h.last_queued
  caught_up := h.caught_up
  overtaken_le := h.overtaken_le
  newer := h.newer
  settled_le := h.settled_le
  overtaken_le_settled := h.overtaken_le_settled
  settled_queued := h.settled_queued
  settled_shown := h.settled_shown

theorem consistent_publish {κ ν : Type*} [DecidableEq κ] {s : State κ ν} (h : Consistent s)
    (k : κ) (v : ν) : Consistent (s.publish k v) := by
  have take : (s.publish k v).queue.take s.overtaken = s.queue.take s.overtaken :=
    List.take_append_of_le_length h.overtaken_le
  have drop : (s.publish k v).queue.drop s.overtaken =
      s.queue.drop s.overtaken ++ [(k, (s.history k).length)] :=
    List.drop_append_of_le_length h.overtaken_le
  have published (j : κ) : s.published j ≤ (s.publish k v).published j := by
    by_cases hj : j = k
    · subst hj; simpa [State.publish] using Nat.le_of_lt (h.published_lt j)
    · simp [State.publish, hj]
  exact {
    published_lt := fun j => by
      by_cases hj : j = k
      · subst hj; simp [State.publish, State.write]
      · simpa [State.publish, State.write, hj] using h.published_lt j
    shown_lt := fun j => Nat.lt_of_lt_of_le (h.shown_lt j) (history_write_length s k v j)
    ordered := by
      refine List.pairwise_append.mpr ⟨h.ordered, by simp, ?_⟩
      rintro ⟨j, n⟩ hqueued ⟨_, _⟩ hnew same
      cases List.mem_singleton.mp hnew
      cases same
      exact Nat.lt_of_le_of_lt (h.queued_le k n hqueued) (h.published_lt k)
    queued_le := fun j n hqueued => by
      rcases List.mem_append.mp hqueued with hqueued | hnew
      · exact Nat.le_trans (h.queued_le j n hqueued) (published j)
      · cases List.mem_singleton.mp hnew
        simp [State.publish]
    last_queued := fun j n hqueued => by
      by_cases hj : j = k
      · subst hj; simp [State.publish]
      · rcases List.mem_append.mp hqueued with hqueued | hnew
        · simpa [State.publish, hj] using h.last_queued j n hqueued
        · cases List.mem_singleton.mp hnew
          exact absurd rfl hj
    caught_up := fun j idle => by
      by_cases hj : j = k
      · subst hj; exact absurd (by simp [State.publish]) (idle (s.history j).length)
      · have idle' (n : Nat) : (j, n) ∉ s.queue := fun hn => idle n (List.mem_append_left _ hn)
        simpa [State.publish, State.write, hj] using h.caught_up j idle'
    overtaken_le := Nat.le_trans h.overtaken_le (by simp [State.publish])
    newer := fun j n hnewer => by
      change (j, n) ∈ (s.publish k v).queue.drop s.overtaken at hnewer
      rw [drop] at hnewer
      rcases List.mem_append.mp hnewer with hnewer | hnew
      · exact h.newer j n hnewer
      · cases List.mem_singleton.mp hnew
        exact h.shown_lt k
    settled_le := fun j => Nat.le_trans (h.settled_le j) (published j)
    overtaken_le_settled := fun j n hn => by
      change (j, n) ∈ (s.publish k v).queue.take s.overtaken at hn
      rw [take] at hn
      exact h.overtaken_le_settled j n hn
    settled_queued := fun j n hn => by
      change (j, n) ∈ (s.publish k v).queue.take s.overtaken at hn
      change (j, s.settled j) ∈ (s.publish k v).queue.take s.overtaken
      rw [take] at hn ⊢
      exact h.settled_queued j n hn
    settled_shown := fun j idle => by
      change ∀ n, (j, n) ∉ (s.publish k v).queue.take s.overtaken at idle
      rw [take] at idle
      exact h.settled_shown j idle }

theorem consistent_snapshot {κ ν : Type*} {s : State κ ν} (h : Consistent s) :
    Consistent s.snapshot where
  published_lt := h.published_lt
  shown_lt k := by
    have := h.shown_lt k
    simp only [State.snapshot, State.latest]
    omega
  ordered := h.ordered
  queued_le := h.queued_le
  last_queued := h.last_queued
  caught_up k _ := Nat.le_sub_one_of_lt (h.published_lt k)
  overtaken_le := Nat.le_refl _
  newer k n hn := by simp [State.snapshot] at hn
  settled_le k := Nat.le_refl _
  overtaken_le_settled k n hn := h.queued_le k n (List.mem_of_mem_take hn)
  settled_queued k n hn := by
    simp only [State.snapshot, List.take_length] at hn ⊢
    exact h.last_queued k n hn
  settled_shown k _ := Nat.le_sub_one_of_lt (h.published_lt k)

/-- The head of a queue ordered by key is the last entry of its key, or an older one. -/
theorem head_or_later {κ : Type*} {k : κ} {n m : Nat} {rest : List (κ × Nat)}
    (ordered : ((k, n) :: rest).Pairwise fun a b => a.1 = b.1 → a.2 < b.2)
    (last : (k, m) ∈ (k, n) :: rest) : n = m ∨ (n < m ∧ (k, m) ∈ rest) := by
  rcases List.mem_cons.mp last with same | later
  · cases same; exact Or.inl rfl
  · exact Or.inr ⟨(List.pairwise_cons.mp ordered).1 _ later rfl, later⟩

/-- What is overtaken behind the head was overtaken with it. -/
theorem mem_take_tail {α : Type*} {head x : α} {rest : List α} {n : Nat} (h : x ∈ rest.take (n - 1)) :
    x ∈ (head :: rest).take n := by
  cases n with
  | zero => simp at h
  | succ n => exact List.mem_cons_of_mem _ h

theorem mem_drop_tail {α : Type*} {head x : α} {rest : List α} {n : Nat} (h : x ∈ rest.drop (n - 1)) :
    x ∈ (head :: rest).drop n := by
  cases n with
  | zero => exact List.mem_cons_of_mem _ h
  | succ n => exact h

theorem mem_take_cons {α : Type*} {head x : α} {rest : List α} {n : Nat} (h : x ∈ (head :: rest).take n) :
    x = head ∨ x ∈ rest.take (n - 1) := by
  cases n with
  | zero => simp at h
  | succ n => exact List.mem_cons.mp h

theorem consistent_deliver {κ ν : Type*} [DecidableEq κ] {s : State κ ν} (h : Consistent s) :
    Consistent s.deliver := by
  obtain ⟨history, published, queue, shown, settled, overtaken⟩ := s
  cases queue with
  | nil => exact h
  | cons head rest =>
    obtain ⟨k, n⟩ := head
    have later {j : κ} {m : Nat} (hm : (j, m) ∈ rest) (hj : j = k) : n < m :=
      (List.pairwise_cons.mp h.ordered).1 _ hm hj.symm
    have headLe : n ≤ published k := h.queued_le k n (List.mem_cons_self ..)
    exact {
      published_lt := h.published_lt
      shown_lt := fun j => by
        by_cases hj : j = k
        · subst hj; simpa [State.deliver] using Nat.lt_of_le_of_lt headLe (h.published_lt j)
        · simpa [State.deliver, hj] using h.shown_lt j
      ordered := (List.pairwise_cons.mp h.ordered).2
      queued_le := fun j m hm => h.queued_le j m (List.mem_cons_of_mem _ hm)
      last_queued := fun j m hm => by
        rcases List.mem_cons.mp (h.last_queued j m (List.mem_cons_of_mem _ hm)) with same | hlast
        · obtain ⟨hj, hn⟩ := Prod.mk.inj same
          have newerThanHead := later hm hj
          have notNewer := h.queued_le j m (List.mem_cons_of_mem _ hm)
          omega
        · exact hlast
      caught_up := fun j idle => by
        by_cases hj : j = k
        · subst hj
          rcases head_or_later h.ordered (h.last_queued j n (List.mem_cons_self ..)) with same | ⟨_, hin⟩
          · simpa [State.deliver] using Nat.le_of_eq same.symm
          · exact absurd hin (idle _)
        · have idle' (m : Nat) : (j, m) ∉ (k, n) :: rest := by
            intro hm
            rcases List.mem_cons.mp hm with same | hm
            · exact hj (Prod.mk.inj same).1
            · exact idle m hm
          simpa [State.deliver, hj] using h.caught_up j idle'
      overtaken_le := by
        have := h.overtaken_le
        simp only [State.deliver, List.length_cons] at *
        omega
      newer := fun j m hm => by
        have hm : (j, m) ∈ rest.drop (overtaken - 1) := hm
        by_cases hj : j = k
        · subst hj; simpa [State.deliver] using later (List.mem_of_mem_drop hm) rfl
        · simpa [State.deliver, hj] using h.newer j m (mem_drop_tail hm)
      settled_le := h.settled_le
      overtaken_le_settled := fun j m hm => h.overtaken_le_settled j m (mem_take_tail hm)
      settled_queued := fun j m hm => by
        have hm : (j, m) ∈ rest.take (overtaken - 1) := hm
        rcases mem_take_cons (h.settled_queued j m (mem_take_tail hm)) with same | hin
        · obtain ⟨hj, hn⟩ := Prod.mk.inj same
          have newerThanHead := later (List.mem_of_mem_take hm) hj
          have notNewer := h.overtaken_le_settled j m (mem_take_tail hm)
          omega
        · exact hin
      settled_shown := fun j idle => by
        have idle : ∀ m, (j, m) ∉ rest.take (overtaken - 1) := idle
        by_cases hj : j = k
        · subst hj
          simp only [State.deliver, Function.update_self]
          cases overtaken with
          | zero =>
            have := h.newer j n (List.mem_cons_self ..)
            have := h.settled_shown j (by simp)
            simp only at *
            omega
          | succ count =>
            rcases mem_take_cons (h.settled_queued j n (List.mem_cons_self ..)) with same | hin
            · exact Nat.le_of_eq (Prod.mk.inj same).2
            · exact absurd hin (idle _)
        · have idle' (m : Nat) : (j, m) ∉ ((k, n) :: rest).take overtaken := by
            intro hm
            rcases mem_take_cons hm with same | hm
            · exact hj (Prod.mk.inj same).1
            · exact idle m hm
          simpa [State.deliver, hj] using h.settled_shown j idle' }

/-- Only a change that a snapshot overtook can take the replica back. -/
theorem shown_le_deliver {κ ν : Type*} [DecidableEq κ] {s : State κ ν} (h : Consistent s)
    (fresh : s.overtaken = 0) (k : κ) : s.shown k ≤ s.deliver.shown k := by
  obtain ⟨history, published, queue, shown, settled, overtaken⟩ := s
  cases queue with
  | nil => exact Nat.le_refl _
  | cons head rest =>
    by_cases hk : k = head.1
    · subst hk
      have newer : shown head.1 < head.2 := h.newer head.1 head.2 (by simp [show overtaken = 0 from fresh])
      simpa [State.deliver] using Nat.le_of_lt newer
    · simp [State.deliver, hk]

theorem shown_le_snapshot {κ ν : Type*} {s : State κ ν} (h : Consistent s) (k : κ) :
    s.shown k ≤ s.snapshot.shown k :=
  Nat.le_sub_one_of_lt (h.shown_lt k)

theorem published_le_shown {κ ν : Type*} {s : State κ ν} (h : Consistent s) (idle : s.queue = [])
    (k : κ) : s.published k ≤ s.shown k :=
  h.caught_up k (by simp [idle])

theorem settled_le_shown {κ ν : Type*} {s : State κ ν} (h : Consistent s) (fresh : s.overtaken = 0)
    (k : κ) : s.settled k ≤ s.shown k :=
  h.settled_shown k (by simp [fresh])

end Replica
