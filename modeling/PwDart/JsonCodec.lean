import PwDart.JsonWrite

namespace Json

/-- A type with its JSON form: what is written can be written by native code and reads back. -/
structure Codec (α : Type) where
  write : α → Value
  read : Value → Option α
  read_write : ∀ a, read (write a) = some a
  native : ∀ a, (write a).IsNative

theorem codePoints_utf16 (s : String) : utf16Chars (codePoints (utf16 s)) = utf16 s := by
  rw [utf16, codePoints_utf16Chars]

namespace Codec

def text : Codec String where
  write s := .str (utf16 s)
  read
    | .str s => if utf16 (toNativeUtf8 s) = s then some (toNativeUtf8 s) else none
    | _ => none
  read_write s := by
    simp [toNativeUtf8_utf16]
  native s := codePoints_utf16 s

def bool : Codec Bool where
  write b := .bool b
  read
    | .bool b => some b
    | _ => none
  read_write _ := rfl
  native _ := trivial

theorem read_uint32 (n : UInt32) :
    (if 0 ≤ (n.toNat : Int) ∧ (n.toNat : Int) < 2 ^ 32 then some (UInt32.ofNat (n.toNat : Int).toNat)
      else none) = some n := by
  have bound : n.toNat < 2 ^ 32 := n.toNat_lt
  have range : (0 : Int) ≤ n.toNat ∧ (n.toNat : Int) < 2 ^ 32 := by
    omega
  simp only [if_pos range, Int.toNat_natCast, UInt32.ofNat_toNat]

theorem isNative_uint32 (n : UInt32) : (Value.int n.toNat).IsNative := by
  have bound : n.toNat < 2 ^ 32 := n.toNat_lt
  change -2 ^ 63 ≤ (n.toNat : Int) ∧ (n.toNat : Int) < 2 ^ 63
  omega

def uint32 : Codec UInt32 where
  write n := .int n.toNat
  read
    | .int i => if 0 ≤ i ∧ i < 2 ^ 32 then some (UInt32.ofNat i.toNat) else none
    | _ => none
  read_write := read_uint32
  native := isNative_uint32

theorem allNative_map {α : Type} (c : Codec α) (as : List α) : AllNative (as.map c.write) := by
  induction as with
  | nil => trivial
  | cons a as ih => exact ⟨c.native a, ih⟩

theorem mapM_read {α : Type} (c : Codec α) (as : List α) : (as.map c.write).mapM c.read = some as := by
  induction as with
  | nil => rfl
  | cons a as ih =>
    rw [List.map_cons, List.mapM_cons, c.read_write, ih]
    rfl

def list {α : Type} (c : Codec α) : Codec (List α) where
  write as := .arr (as.map c.write)
  read
    | .arr items => items.mapM c.read
    | _ => none
  read_write as := c.mapM_read as
  native as := c.allNative_map as

def readEntry (m : Std.ExtTreeMap String String) (member : Text × Value) :
    Option (Std.ExtTreeMap String String) :=
  if utf16 (toNativeUtf8 member.1) = member.1 then
    (text.read member.2).map fun value => m.insert (toNativeUtf8 member.1) value
  else none

def writeEntry (entry : String × String) : Text × Value := (utf16 entry.1, text.write entry.2)

theorem foldlM_readEntry (entries : List (String × String)) (m : Std.ExtTreeMap String String) :
    (entries.map writeEntry).foldlM readEntry m = some (m.insertMany entries) := by
  induction entries generalizing m with
  | nil => simp
  | cons entry entries ih =>
    obtain ⟨key, value⟩ := entry
    have first : readEntry m (writeEntry (key, value)) = some (m.insert key value) := by
      simp [readEntry, writeEntry, toNativeUtf8_utf16, text.read_write]
    rw [List.map_cons, List.foldlM_cons, first, Std.ExtTreeMap.insertMany_cons]
    exact ih _

theorem insertMany_toList (m : Std.ExtTreeMap String String) :
    (∅ : Std.ExtTreeMap String String).insertMany m.toList = m := by
  rw [← Std.ExtTreeMap.ofList_eq_insertMany_empty]
  refine Std.ExtTreeMap.ext_getElem? fun key => ?_
  cases found : m[key]? with
  | some value =>
    exact Std.ExtTreeMap.getElem?_ofList_of_mem Std.ReflCmp.compare_self
      Std.ExtTreeMap.distinct_keys_toList (Std.ExtTreeMap.mem_toList_iff_getElem?_eq_some.mpr found)
  | none =>
    refine Std.ExtTreeMap.getElem?_ofList_of_contains_eq_false ?_
    rw [Std.ExtTreeMap.map_fst_toList_eq_keys, List.contains_eq_mem, decide_eq_false_iff_not,
      Std.ExtTreeMap.mem_keys, ← Std.ExtTreeMap.isSome_getElem?_iff_mem, found]
    exact Bool.false_ne_true

/-- A map of texts, as an object with a member for each entry. -/
def textMap : Codec (Std.ExtTreeMap String String) where
  write m := .obj (m.toList.map writeEntry)
  read
    | .obj members => members.foldlM readEntry ∅
    | _ => none
  read_write m := (foldlM_readEntry m.toList ∅).trans (congrArg some (insertMany_toList m))
  native m := by
    change MembersNative _
    induction m.toList with
    | nil => trivial
    | cons entry entries ih => exact ⟨codePoints_utf16 entry.1, codePoints_utf16 entry.2, ih⟩

end Codec

/-- A line of an object's metadata: the name of a member and the field it stands for. -/
structure Field (ρ : Type) where
  name : String
  {α : Type}
  codec : Codec α
  get : ρ → α
  set : ρ → α → ρ

namespace Field

variable {ρ : Type}

def write (f : Field ρ) (r : ρ) : Text × Value := (utf16 f.name, f.codec.write (f.get r))

def read (f : Field ρ) (r : ρ) (v : Value) : Option ρ := (f.codec.read v).map (f.set r)

/-- The member of the name is read into its field; a name outside the metadata is an error. -/
def readMember (fields : List (Field ρ)) (r : ρ) (member : Text × Value) : Option ρ :=
  (fields.find? fun f => utf16 f.name = member.1).bind fun f => f.read r member.2

theorem readMember_write {fields : List (Field ρ)} (distinct : (fields.map Field.name).Nodup) {f : Field ρ}
    (mem : f ∈ fields) (r s : ρ) : readMember fields s (f.write r) = some (f.set s (f.get r)) := by
  have found : (fields.find? fun g => utf16 g.name = (f.write r).1) = some f := by
    obtain ⟨before, after, rfl⟩ := List.append_of_mem mem
    rw [List.map_append, List.map_cons, List.nodup_append] at distinct
    have others : (before.find? fun g => utf16 g.name = (f.write r).1) = none := by
      refine List.find?_eq_none.mpr fun g hg same => ?_
      have names : g.name = f.name := utf16_inj.mp (by simpa [write] using same)
      exact distinct.2.2 g.name (List.mem_map_of_mem hg) f.name List.mem_cons_self names
    rw [List.find?_append, others, Option.none_or, List.find?_cons_of_pos (by simp [write])]
  rw [readMember, found, Option.bind_some]
  simp [read, write, f.codec.read_write]

theorem foldlM_readMember {fields part : List (Field ρ)} (distinct : (fields.map Field.name).Nodup)
    (sub : ∀ f ∈ part, f ∈ fields) (r s : ρ) :
    (part.map fun f => f.write r).foldlM (readMember fields) s =
      some (part.foldl (fun s f => f.set s (f.get r)) s) := by
  induction part generalizing s with
  | nil => rfl
  | cons f part ih =>
    rw [List.map_cons, List.foldlM_cons, readMember_write distinct (sub f List.mem_cons_self) r s]
    exact ih (fun g hg => sub g (List.mem_cons_of_mem _ hg)) _

theorem membersNative_write (fields : List (Field ρ)) (r : ρ) :
    MembersNative (fields.map fun f => f.write r) := by
  induction fields with
  | nil => trivial
  | cons f fields ih => exact ⟨codePoints_utf16 f.name, f.codec.native _, ih⟩

end Field

/-- The metadata of an object: its names differ, and its fields are all there is to a record. -/
structure Meta (ρ : Type) where
  fields : List (Field ρ)
  default : ρ
  distinct : (fields.map Field.name).Nodup
  complete : ∀ r, fields.foldl (fun s f => f.set s (f.get r)) default = r

/-- A record is written and read as an object, by its metadata. -/
def Meta.codec {ρ : Type} (m : Meta ρ) : Codec ρ where
  write r := .obj (m.fields.map fun f => f.write r)
  read
    | .obj members => members.foldlM (Field.readMember m.fields) m.default
    | _ => none
  read_write r := (Field.foldlM_readMember m.distinct (fun _ h => h) r m.default).trans
    (congrArg some (m.complete r))
  native r := Field.membersNative_write m.fields r

end Json
