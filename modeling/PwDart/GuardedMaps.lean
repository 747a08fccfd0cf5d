import Mathlib

namespace Locked

/-- Writes, one after the other. -/
def runWrites {α : Type*} (writes : List (α → α)) (x : α) : α := writes.foldl (fun x w => w x) x

theorem runWrites_append {α : Type*} (ws vs : List (α → α)) (x : α) :
    runWrites (ws ++ vs) x = runWrites vs (runWrites ws x) := List.foldl_append

section

variable {κ ρ : Type*} [Ord κ] [Std.TransOrd κ] [Std.LawfulEqOrd κ] (m : Std.ExtTreeMap κ ρ) (key : κ)

theorem insert_insert_self (old new : ρ) : (m.insert key old).insert key new = m.insert key new := by
  ext1 i
  simp only [Std.ExtTreeMap.getElem?_insert]
  split <;> rfl

theorem insertIfNew_insert_self (fresh new : ρ) : (m.insertIfNew key fresh).insert key new = m.insert key new := by
  ext1 i
  simp only [Std.ExtTreeMap.getElem?_insert, Std.ExtTreeMap.getElem?_insertIfNew]
  by_cases same : compare key i = .eq <;> simp [same]

theorem getElem?_insertIfNew_self (fresh : ρ) : (m.insertIfNew key fresh)[key]? = some (m[key]?.getD fresh) := by
  rw [Std.ExtTreeMap.getElem?_insertIfNew]
  cases held : m[key]? with
  | none =>
    have absent : key ∉ m := by
      rw [Std.ExtTreeMap.mem_iff_isSome_getElem?, held]
      simp
    simp [absent]
  | some old =>
    have present : key ∈ m := Std.ExtTreeMap.mem_iff_isSome_getElem?.mpr (by rw [held]; rfl)
    simp [present]

end

/-- A map that is part of a state. -/
structure MapOf (σ κ ρ : Type*) [Ord κ] where
  get : σ → Std.ExtTreeMap κ ρ
  set : Std.ExtTreeMap κ ρ → σ → σ
  get_set : ∀ m x, get (set m x) = m
  set_set : ∀ m n x, set n (set m x) = set n x
  set_get : ∀ x, set (get x) x = x

namespace MapOf

variable {σ κ ρ : Type*} [Ord κ] [Std.TransOrd κ] (map : MapOf σ κ ρ)

/-- An entry is made, then assigned. -/
def assign (fresh : ρ) (key : κ) (value : ρ) : List (σ → σ) :=
  [fun x => map.set ((map.get x).insertIfNew key fresh) x, fun x => map.set ((map.get x).insert key value) x]

def erase (key : κ) (x : σ) : σ := map.set ((map.get x).erase key) x

/-- An assignment to a part of the entry, if it is there. -/
def edit (key : κ) (change : ρ → ρ) (x : σ) : σ :=
  match (map.get x)[key]? with
  | none => x
  | some record => map.set ((map.get x).insert key (change record)) x

variable [Std.LawfulEqOrd κ] {x : σ} {key : κ}

theorem runWrites_assign (fresh value : ρ) :
    runWrites (map.assign fresh key value) x = map.set ((map.get x).insert key value) x := by
  simp only [runWrites, assign, List.foldl_cons, List.foldl_nil, map.get_set, map.set_set, insertIfNew_insert_self]

/-- The assignments to the parts of an entry leave it with all of them made. -/
theorem runWrites_edits {record : ρ} (found : (map.get x)[key]? = some record)
    (edits : List (ρ → ρ)) :
    runWrites (edits.map (map.edit key)) x = map.set ((map.get x).insert key (runWrites edits record)) x := by
  induction edits generalizing x record with
  | nil =>
    have same : (map.get x).insert key record = map.get x := by
      ext1 i
      rw [Std.ExtTreeMap.getElem?_insert]
      split
      · next here => rw [← Std.LawfulEqCmp.eq_of_compare here, found]
      · rfl
    show x = map.set ((map.get x).insert key record) x
    rw [same, map.set_get]
  | cons change rest ih =>
    have once : map.edit key change x = map.set ((map.get x).insert key (change record)) x := by
      simp only [edit, found]
    have again : (map.get (map.edit key change x))[key]? = some (change record) := by
      rw [once, map.get_set, Std.ExtTreeMap.getElem?_insert_self]
    show runWrites (rest.map (map.edit key)) (map.edit key change x) = _
    rw [ih again, once, map.get_set, map.set_set, insert_insert_self]
    rfl

end MapOf

end Locked
