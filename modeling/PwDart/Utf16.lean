import Mathlib

namespace Json

/-- A text as its UTF-16 code units, lone surrogates included. -/
abbrev Text : Type := List UInt16

def utf16Char (c : Char) : Text :=
  if c.val < 0x10000 then [c.val.toUInt16]
  else
    [(0xD800 : UInt16) + ((c.val - 0x10000) >>> 10).toUInt16,
      (0xDC00 : UInt16) + ((c.val - 0x10000) &&& 0x3FF).toUInt16]

def utf16Chars (cs : List Char) : Text := cs.flatMap utf16Char

def utf16 (s : String) : Text := utf16Chars s.toList

theorem utf16Char_ne_nil (c : Char) : utf16Char c ≠ [] := by
  unfold utf16Char
  split <;> simp

/-- The two units of a code point above 0xFFFF, as numbers. -/
theorem surrogates_toNat {c : Char} (h : ¬c.val < 0x10000) :
    ((0xD800 : UInt16) + ((c.val - 0x10000) >>> 10).toUInt16).toNat =
        0xD800 + (c.val.toNat - 0x10000) / 1024 ∧
      ((0xDC00 : UInt16) + ((c.val - 0x10000) &&& 0x3FF).toUInt16).toNat =
        0xDC00 + (c.val.toNat - 0x10000) % 1024 := by
  have valid : c.val.toNat < 0x110000 := by
    have hv := c.valid
    simp only [UInt32.isValidChar, Nat.isValidChar] at hv
    omega
  have low : (0x10000 : UInt32) ≤ c.val := UInt32.not_lt.mp h
  have sub : (c.val - 0x10000).toNat = c.val.toNat - 0x10000 := UInt32.toNat_sub_of_le _ _ low
  have mask : (c.val.toNat - 0x10000) &&& 1023 = (c.val.toNat - 0x10000) % 1024 :=
    Nat.and_two_pow_sub_one_eq_mod _ 10
  constructor
  · simp only [UInt16.toNat_add, UInt32.toNat_toUInt16, UInt32.toNat_shiftRight, sub,
      UInt32.reduceToNat, UInt16.reduceToNat, Nat.shiftRight_eq_div_pow, Nat.reduceMod, Nat.reducePow]
    omega
  · simp only [UInt16.toNat_add, UInt32.toNat_toUInt16, UInt32.toNat_and, sub,
      UInt32.reduceToNat, UInt16.reduceToNat, mask, Nat.reducePow]
    omega

theorem utf16Char_append_inj {c d : Char} {a b : Text}
    (h : utf16Char c ++ a = utf16Char d ++ b) : c = d ∧ a = b := by
  have notSurrogate : ∀ e : Char, e.val.toNat < 0xD800 ∨ 0xDFFF < e.val.toNat := by
    intro e
    have hv := e.valid
    simp only [UInt32.isValidChar, Nat.isValidChar] at hv
    omega
  have same : ∀ {e f : Char}, e.val.toNat = f.val.toNat → e = f := fun he =>
    Char.ext (UInt32.toNat_inj.mp he)
  have unit : ∀ {e : Char}, e.val < 0x10000 → e.val.toUInt16.toNat = e.val.toNat := by
    intro e he
    rw [UInt32.toNat_toUInt16]
    exact Nat.mod_eq_of_lt (UInt32.lt_iff_toNat_lt.mp he)
  have hc := notSurrogate c
  have hd := notSurrogate d
  unfold utf16Char at h
  split at h
  next lc =>
    split at h
    next ld =>
      simp only [List.cons_append, List.nil_append, List.cons.injEq] at h
      have units := congrArg UInt16.toNat h.1
      rw [unit lc, unit ld] at units
      exact ⟨same units, h.2⟩
    next ld =>
      simp only [List.cons_append, List.nil_append, List.cons.injEq] at h
      have units := congrArg UInt16.toNat h.1
      have bound := (surrogates_toNat ld).2
      rw [unit lc, (surrogates_toNat ld).1] at units
      have := d.valid
      simp only [UInt32.isValidChar, Nat.isValidChar] at this
      omega
  next lc =>
    split at h
    next ld =>
      simp only [List.cons_append, List.nil_append, List.cons.injEq] at h
      have units := congrArg UInt16.toNat h.1
      rw [unit ld, (surrogates_toNat lc).1] at units
      have := c.valid
      simp only [UInt32.isValidChar, Nat.isValidChar] at this
      omega
    next ld =>
      simp only [List.cons_append, List.nil_append, List.cons.injEq] at h
      have first := congrArg UInt16.toNat h.1
      have second := congrArg UInt16.toNat h.2.1
      rw [(surrogates_toNat lc).1, (surrogates_toNat ld).1] at first
      rw [(surrogates_toNat lc).2, (surrogates_toNat ld).2] at second
      have hlc := UInt32.le_iff_toNat_le.mp (UInt32.not_lt.mp lc)
      have hld := UInt32.le_iff_toNat_le.mp (UInt32.not_lt.mp ld)
      simp only [UInt32.reduceToNat] at hlc hld
      exact ⟨same (by omega), h.2.2⟩

theorem utf16Chars_inj {cs ds : List Char} : utf16Chars cs = utf16Chars ds ↔ cs = ds := by
  constructor
  · intro h
    induction cs generalizing ds with
    | nil =>
      cases ds with
      | nil => rfl
      | cons d ds =>
        have := utf16Char_ne_nil d
        simp [utf16Chars, this] at h
    | cons c cs ih =>
      cases ds with
      | nil =>
        have := utf16Char_ne_nil c
        simp [utf16Chars, this] at h
      | cons d ds =>
        obtain ⟨rfl, rest⟩ := utf16Char_append_inj (a := utf16Chars cs) (b := utf16Chars ds) h
        rw [ih rest]
  · rintro rfl
    rfl

@[simp] theorem utf16_inj {s t : String} : utf16 s = utf16 t ↔ s = t := by
  rw [utf16, utf16, utf16Chars_inj, String.toList_inj]

end Json
