import PwDart.Utf16

namespace Json

def isHighSurrogate (c : UInt16) : Bool := 0xD800 ≤ c && c < 0xDC00

def isLowSurrogate (c : UInt16) : Bool := 0xDC00 ≤ c && c < 0xE000

def joinSurrogates (high low : UInt16) : Char :=
  Char.ofNat (0x10000 + 1024 * (high.toNat - 0xD800) + (low.toNat - 0xDC00))

/-- The code points of a text; a surrogate without its partner becomes U+FFFD. -/
def codePoints : Text → List Char
  | [] => []
  | [c] => [if isHighSurrogate c || isLowSurrogate c then '\uFFFD' else Char.ofNat c.toNat]
  | c :: d :: rest =>
    if isHighSurrogate c && isLowSurrogate d then joinSurrogates c d :: codePoints rest
    else if isHighSurrogate c || isLowSurrogate c then '\uFFFD' :: codePoints (d :: rest)
    else Char.ofNat c.toNat :: codePoints (d :: rest)

/-- `toNativeUtf8` of a Dart string, before its terminating zero is looked for. -/
def toNativeUtf8 (text : Text) : String := String.ofList (codePoints text)

/-- The `std::string` made of a zero-terminated text. -/
def ofCString (s : String) : String := String.ofList (s.toList.takeWhile fun c => c ≠ '\x00')

theorem codePoints_cons_plain {c : UInt16} (high : isHighSurrogate c = false)
    (low : isLowSurrogate c = false) (rest : Text) :
    codePoints (c :: rest) = Char.ofNat c.toNat :: codePoints rest := by
  cases rest with
  | nil => simp [codePoints, high, low]
  | cons d rest => simp [codePoints, high, low]

theorem codePoints_utf16Char (c : Char) (rest : Text) :
    codePoints (utf16Char c ++ rest) = c :: codePoints rest := by
  have valid := c.valid
  simp only [UInt32.isValidChar, Nat.isValidChar] at valid
  unfold utf16Char
  split
  next small =>
    have value : c.val.toUInt16.toNat = c.val.toNat := by
      rw [UInt32.toNat_toUInt16]
      exact Nat.mod_eq_of_lt (UInt32.lt_iff_toNat_lt.mp small)
    have high : isHighSurrogate c.val.toUInt16 = false := by
      simp only [isHighSurrogate, UInt16.le_iff_toNat_le, UInt16.lt_iff_toNat_lt, value,
        UInt16.reduceToNat, Bool.and_eq_false_iff, decide_eq_false_iff_not]
      omega
    have low : isLowSurrogate c.val.toUInt16 = false := by
      simp only [isLowSurrogate, UInt16.le_iff_toNat_le, UInt16.lt_iff_toNat_lt, value,
        UInt16.reduceToNat, Bool.and_eq_false_iff, decide_eq_false_iff_not]
      omega
    rw [List.singleton_append, codePoints_cons_plain high low, value]
    exact congrArg (· :: codePoints rest) (Char.ofNat_toNat c)
  next large =>
    have bound : 0x10000 ≤ c.val.toNat := UInt32.le_iff_toNat_le.mp (UInt32.not_lt.mp large)
    obtain ⟨first, second⟩ := surrogates_toNat large
    simp only [List.cons_append, List.nil_append]
    generalize (0xD800 : UInt16) + ((c.val - 0x10000) >>> 10).toUInt16 = a at first
    generalize (0xDC00 : UInt16) + ((c.val - 0x10000) &&& 0x3FF).toUInt16 = b at second
    have high : isHighSurrogate a = true := by
      simp only [isHighSurrogate, UInt16.le_iff_toNat_le, UInt16.lt_iff_toNat_lt, first,
        UInt16.reduceToNat, Bool.and_eq_true, decide_eq_true_eq]
      omega
    have low : isLowSurrogate b = true := by
      simp only [isLowSurrogate, UInt16.le_iff_toNat_le, UInt16.lt_iff_toNat_lt, second,
        UInt16.reduceToNat, Bool.and_eq_true, decide_eq_true_eq]
      omega
    have joined : joinSurrogates a b = c := by
      have sum : 0x10000 + 1024 * (a.toNat - 0xD800) + (b.toNat - 0xDC00) = c.toNat := by
        rw [first, second]
        change _ = c.val.toNat
        omega
      rw [joinSurrogates, sum]
      exact Char.ofNat_toNat c
    simp [codePoints, high, low, joined]

theorem codePoints_utf16Chars (cs : List Char) : codePoints (utf16Chars cs) = cs := by
  induction cs with
  | nil => rfl
  | cons c cs ih =>
    have split : utf16Chars (c :: cs) = utf16Char c ++ utf16Chars cs := rfl
    rw [split, codePoints_utf16Char, ih]

theorem toNativeUtf8_utf16 (s : String) : toNativeUtf8 (utf16 s) = s := by
  rw [toNativeUtf8, utf16, codePoints_utf16Chars, String.ofList_toList]

theorem utf16Char_zero {c : Char} (h : c ≠ '\x00') : (0 : UInt16) ∉ utf16Char c := by
  have nonzero : c.val.toNat ≠ 0 := fun zero => h (Char.ext (UInt32.toNat_inj.mp zero))
  unfold utf16Char
  split
  next small =>
    have value : c.val.toUInt16.toNat = c.val.toNat := by
      rw [UInt32.toNat_toUInt16]
      exact Nat.mod_eq_of_lt (UInt32.lt_iff_toNat_lt.mp small)
    intro mem
    have same := congrArg UInt16.toNat (List.mem_singleton.mp mem)
    rw [value] at same
    exact nonzero same.symm
  next large =>
    obtain ⟨first, second⟩ := surrogates_toNat large
    intro mem
    rcases List.mem_pair.mp mem with same | same
    · rw [← same] at first
      simp only [UInt16.reduceToNat] at first
      omega
    · rw [← same] at second
      simp only [UInt16.reduceToNat] at second
      omega

/-- What the native side keeps of a text: what stands before the first zero. -/
theorem utf16_ofCString (s : String) :
    utf16 (ofCString s) = (utf16 s).takeWhile fun c => c ≠ 0 := by
  have chars (cs : List Char) : utf16Chars (cs.takeWhile fun c => c ≠ '\x00') =
      (utf16Chars cs).takeWhile fun c => c ≠ 0 := by
    induction cs with
    | nil => rfl
    | cons c cs ih =>
      by_cases h : c = '\x00'
      · subst h
        rfl
      · have split : utf16Chars (c :: cs) = utf16Char c ++ utf16Chars cs := rfl
        have nonzero (d : UInt16) (hd : d ∈ utf16Char c) : decide (d ≠ 0) = true :=
          decide_eq_true fun zero => utf16Char_zero h (zero ▸ hd)
        rw [List.takeWhile_cons_of_pos (by simpa using h), split,
          List.takeWhile_append_of_pos nonzero, ← ih]
        rfl
  rw [utf16, ofCString, String.toList_ofList]
  exact chars s.toList

end Json
