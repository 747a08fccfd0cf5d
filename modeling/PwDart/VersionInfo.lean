import PwDart.SpaDict

namespace PwDart

def ULONG_MAX : UInt64 := 0xFFFFFFFFFFFFFFFF

/-- `std::strtoul` in base ten with a 64-bit `unsigned long`: the number, and the text that `endptr` points
to afterwards. Without a digit that is the whole text. -/
def strtoul (str : List Char) : UInt64 × List Char :=
  let chars := str.dropWhile isSpace
  let negative := chars.head? = some '-'
  let chars := if negative ∨ chars.head? = some '+' then chars.tail else chars
  let digits := chars.takeWhile Char.isDigit
  let rest := chars.dropWhile Char.isDigit
  if digits = [] then (0, str)
  else if 2 ^ 64 ≤ decimalValue digits then (ULONG_MAX, rest)
  else if negative then (-UInt64.ofNat (decimalValue digits), rest)
  else (UInt64.ofNat (decimalValue digits), rest)

/-- `if (end && *end == '.') part = std::strtoul(end + 1, &end, 10);` for a part that is 0 before. -/
def strtoulAfterDot : List Char → UInt64 × List Char
  | '.' :: rest => strtoul rest
  | rest => (0, rest)

/-- `ver` is what `pw_get_library_version()` returns. -/
def pwDartGetPwLibraryVersion (ver : Option String) : UInt32 :=
  let (major, minor, micro) : UInt64 × UInt64 × UInt64 :=
    match ver with
    | none => (0, 0, 0)
    | some ver =>
      let (major, rest) := strtoul ver.toList
      let (minor, rest) := strtoulAfterDot rest
      let (micro, _) := strtoulAfterDot rest
      (major, minor, micro)
  (major <<< 16 ||| minor <<< 8 ||| micro).toUInt32

/-- `PW_MAJOR`, `PW_MINOR` and `PW_MICRO` are macros of the PipeWire headers. -/
def pwDartGetPwHeaderVersion (PW_MAJOR PW_MINOR PW_MICRO : UInt32) : UInt32 :=
  PW_MAJOR <<< 16 ||| PW_MINOR <<< 8 ||| PW_MICRO

structure PwVersionInfo where
  headerVersion : Int × Int × Int
  libraryVersion : Int × Int × Int
deriving DecidableEq

def unpackVersion (packed : Int) : Int × Int × Int :=
  (Int.land (packed >>> (16 : Nat)) 0xFF, Int.land (packed >>> (8 : Nat)) 0xFF, Int.land packed 0xFF)

/-- `PwNativeBridge.getVersionInfo`, given the packed versions that the bindings return. -/
def getVersionInfo (headerPacked libraryPacked : UInt32) : PwVersionInfo :=
  { headerVersion := unpackVersion headerPacked.toNat, libraryVersion := unpackVersion libraryPacked.toNat }

def PwVersionInfo.isCompatible (info : PwVersionInfo) : Bool :=
  let (hMajor, hMinor, hMicro) := info.headerVersion
  let (lMajor, lMinor, lMicro) := info.libraryVersion
  if lMajor ≠ hMajor then false
  else if lMinor ≠ hMinor then lMinor > hMinor
  else lMicro ≥ hMicro

structure PwVersion where
  info : PwVersionInfo
deriving DecidableEq

namespace PwVersion

def libraryVersion (v : PwVersion) : Int × Int × Int := v.info.libraryVersion

def minVersion : Int × Int × Int := (0, 3, 40)

def meetsMinimumVersion (v : PwVersion) : Bool :=
  let (major, minor, micro) := v.libraryVersion
  let (minMajor, minMinor, minMicro) := minVersion
  if major ≠ minMajor then major > minMajor
  else if minor ≠ minMinor then minor > minMinor
  else micro ≥ minMicro

end PwVersion

/-- Versions in their lexicographic order. -/
def lexVersion (version : Int × Int × Int) : Int ×ₗ Int ×ₗ Int := toLex (version.1, toLex version.2)

/-- The larger first entry decides, and with equal ones the second. -/
theorem lex_compare {α β : Type*} [LinearOrder α] [LE β] {x y : α × β} {later : Prop}
    (decides : later ↔ x.2 ≤ y.2) : (if y.1 ≠ x.1 then y.1 > x.1 else later) ↔ toLex x ≤ toLex y := by
  rw [Prod.Lex.toLex_le_toLex, ← decides]
  split
  next apart =>
    constructor
    · exact Or.inl
    · rintro (less | ⟨same, _⟩)
      · exact less
      · exact absurd same.symm apart
  next same =>
    push Not at same
    simp [same]

theorem PwVersionInfo.isCompatible_iff (info : PwVersionInfo) :
    info.isCompatible ↔
      info.headerVersion.1 = info.libraryVersion.1 ∧ toLex info.headerVersion.2 ≤ toLex info.libraryVersion.2 := by
  obtain ⟨⟨hMajor, hMinor, hMicro⟩, lMajor, lMinor, lMicro⟩ := info
  have rest := lex_compare (x := (hMinor, hMicro)) (y := (lMinor, lMicro)) (Iff.refl (hMicro ≤ lMicro))
  simp only [isCompatible]
  by_cases major : lMajor = hMajor
  · rw [← rest]
    simp [major]
  · simp [major, Ne.symm major]

theorem PwVersion.meetsMinimumVersion_iff (v : PwVersion) :
    v.meetsMinimumVersion ↔ lexVersion minVersion ≤ lexVersion v.libraryVersion := by
  obtain ⟨header, major, minor, micro⟩ := v
  have rest := lex_compare (x := (3, 40)) (y := (minor, micro)) (Iff.refl (40 ≤ micro))
  have all := lex_compare (x := (0, toLex (3, 40))) (y := (major, toLex (minor, micro))) rest
  refine Iff.trans ?_ all
  simp [meetsMinimumVersion, minVersion, libraryVersion]

/-- Three bytes side by side do not meet. -/
theorem shiftLeft_or_bytes (a : Nat) {b c : Nat} (hb : b < 256) (hc : c < 256) :
    a <<< 16 ||| b <<< 8 ||| c = a * 65536 + b * 256 + c := by
  have low : b <<< 8 + c = b <<< 8 ||| c := Nat.shiftLeft_add_eq_or_of_lt hc b
  have lowBound : b <<< 8 + c < 2 ^ 16 := by
    rw [Nat.shiftLeft_eq]
    omega
  rw [Nat.or_assoc, ← low, ← Nat.shiftLeft_add_eq_or_of_lt lowBound a, Nat.shiftLeft_eq, Nat.shiftLeft_eq]
  omega

theorem unpackVersion_natCast (n : Nat) : unpackVersion n = (↑(n / 65536 % 256), ↑(n / 256 % 256), ↑(n % 256)) := by
  have mask (m : Nat) : Int.land m 0xFF = ↑(m % 256) := congrArg Nat.cast (Nat.and_two_pow_sub_one_eq_mod m 8)
  have shift (k : Nat) : (n : Int) >>> k = ↑(n >>> k) := rfl
  simp only [unpackVersion, shift, mask, Nat.shiftRight_eq_div_pow, Nat.reducePow]

theorem unpackVersion_bytes {a b c : Nat} (ha : a < 256) (hb : b < 256) (hc : c < 256) :
    unpackVersion (a * 65536 + b * 256 + c : Nat) = (↑a, ↑b, ↑c) := by
  rw [unpackVersion_natCast]
  have major : (a * 65536 + b * 256 + c) / 65536 % 256 = a := by omega
  have minor : (a * 65536 + b * 256 + c) / 256 % 256 = b := by omega
  have micro : (a * 65536 + b * 256 + c) % 256 = c := by omega
  rw [major, minor, micro]

/-- A decimal numeral of a number below 256; leading zeros are allowed. -/
structure IsComponent (digits : List Char) : Prop where
  nonempty : digits ≠ []
  numeric : ∀ c ∈ digits, c.isDigit
  bounded : decimalValue digits < 256

/-- The text does not go on with a digit. -/
def Stops (rest : List Char) : Prop := ∀ c, rest.head? = some c → ¬c.isDigit

/-- The texts `a.b.c` with anything but a digit after it, `a.b` and `a`, and the versions they stand for. -/
inductive VersionText : List Char → Int × Int × Int → Prop
  | micro {a b c suffix : List Char} : IsComponent a → IsComponent b → IsComponent c → Stops suffix →
      VersionText (a ++ '.' :: (b ++ '.' :: (c ++ suffix))) (decimalValue a, decimalValue b, decimalValue c)
  | minor {a b : List Char} : IsComponent a → IsComponent b →
      VersionText (a ++ '.' :: b) (decimalValue a, decimalValue b, 0)
  | major {a : List Char} : IsComponent a → VersionText a (decimalValue a, 0, 0)

theorem stops_nil : Stops [] := by
  rintro _ ⟨⟩

theorem stops_dot (rest : List Char) : Stops ('.' :: rest) := by
  rintro _ ⟨⟩
  decide

/-- A digit is no white space and no sign. -/
theorem plain_of_isDigit {c : Char} (digit : c.isDigit) : isSpace c = false ∧ c ≠ '-' ∧ c ≠ '+' := by
  have other (d : Char) (notDigit : d.isDigit = false) : c ≠ d := by
    rintro rfl
    cases digit.symm.trans notDigit
  refine ⟨?_, other '-' (by decide), other '+' (by decide)⟩
  simp only [isSpace, Bool.or_eq_false_iff, decide_eq_false_iff_not]
  exact ⟨⟨⟨⟨⟨other _ (by decide), other _ (by decide)⟩, other _ (by decide)⟩, other _ (by decide)⟩,
    other _ (by decide)⟩, other _ (by decide)⟩

/-- The end pointer stops behind the digits. -/
theorem strtoul_append {digits rest : List Char} (component : IsComponent digits) (stops : Stops rest) :
    strtoul (digits ++ rest) = (UInt64.ofNat (decimalValue digits), rest) := by
  have bounded := component.bounded
  have run : (digits ++ rest).takeWhile Char.isDigit = digits := by
    rw [List.takeWhile_append_of_pos component.numeric]
    have none : rest.takeWhile Char.isDigit = [] := by
      cases rest with
      | nil => rfl
      | cons c rest => simp [stops c rfl]
    rw [none, List.append_nil]
  have left : (digits ++ rest).dropWhile Char.isDigit = rest := by
    rw [List.dropWhile_append_of_pos component.numeric]
    cases rest with
    | nil => rfl
    | cons c rest => simp [stops c rfl]
  obtain ⟨c, tail, starts⟩ := List.exists_cons_of_ne_nil component.nonempty
  obtain ⟨space, minus, plus⟩ := plain_of_isDigit (component.numeric c (by simp [starts]))
  have unspaced : (digits ++ rest).dropWhile isSpace = digits ++ rest := by
    simp [starts, space]
  have first : (digits ++ rest).head? = some c := by
    simp [starts]
  simp only [strtoul, unspaced, first, Option.some.injEq, minus, plus, or_self, if_false, run, left,
    if_neg component.nonempty]
  rw [if_neg (by omega)]

example : strtoul "012.5".toList = (12, ['.', '5']) := by decide

/-- The parts of a version are read one after the other. -/
theorem pwDartGetPwLibraryVersion_of_versionText {text : String} {version : Int × Int × Int}
    (reads : VersionText text.toList version) :
    ∃ a b c : Nat, a < 256 ∧ b < 256 ∧ c < 256 ∧ version = (↑a, ↑b, ↑c) ∧
      pwDartGetPwLibraryVersion (some text) =
        (UInt64.ofNat a <<< 16 ||| UInt64.ofNat b <<< 8 ||| UInt64.ofNat c).toUInt32 := by
  generalize chars : text.toList = list at reads
  cases reads with
  | micro ha hb hc stops =>
    refine ⟨_, _, _, ha.bounded, hb.bounded, hc.bounded, rfl, ?_⟩
    simp only [pwDartGetPwLibraryVersion, chars, strtoulAfterDot, strtoul_append ha (stops_dot _),
      strtoul_append hb (stops_dot _), strtoul_append hc stops]
  | minor ha hb =>
    have last := strtoul_append hb stops_nil
    rw [List.append_nil] at last
    refine ⟨_, _, 0, ha.bounded, hb.bounded, by decide, rfl, ?_⟩
    simp only [pwDartGetPwLibraryVersion, chars, strtoulAfterDot, strtoul_append ha (stops_dot _), last]
    rfl
  | major ha =>
    have only := strtoul_append ha stops_nil
    rw [List.append_nil] at only
    refine ⟨_, 0, 0, ha.bounded, by decide, by decide, rfl, ?_⟩
    simp only [pwDartGetPwLibraryVersion, chars, only, strtoulAfterDot]
    rfl

theorem toNat_packed {a b c : Nat} (ha : a < 256) (hb : b < 256) (hc : c < 256) :
    (UInt64.ofNat a <<< 16 ||| UInt64.ofNat b <<< 8 ||| UInt64.ofNat c).toUInt32.toNat = a * 65536 + b * 256 + c := by
  have major : (UInt64.ofNat a <<< 16).toNat = a <<< 16 := by
    simp only [UInt64.toNat_shiftLeft, UInt64.toNat_ofNat', Nat.shiftLeft_eq]
    change a % 2 ^ 64 * 2 ^ 16 % 2 ^ 64 = a * 2 ^ 16
    omega
  have minor : (UInt64.ofNat b <<< 8).toNat = b <<< 8 := by
    simp only [UInt64.toNat_shiftLeft, UInt64.toNat_ofNat', Nat.shiftLeft_eq]
    change b % 2 ^ 64 * 2 ^ 8 % 2 ^ 64 = b * 2 ^ 8
    omega
  have micro : (UInt64.ofNat c).toNat = c := UInt64.toNat_ofNat_of_lt' (Nat.lt_trans hc (by decide))
  rw [UInt64.toNat_toUInt32, UInt64.toNat_or, UInt64.toNat_or, major, minor, micro, shiftLeft_or_bytes a hb hc]
  omega

/-- The version of the library arrives as its text says. -/
theorem libraryVersion_of_versionText {text : String} {version : Int × Int × Int}
    (reads : VersionText text.toList version) :
    unpackVersion (pwDartGetPwLibraryVersion (some text)).toNat = version := by
  obtain ⟨a, b, c, ha, hb, hc, rfl, packed⟩ := pwDartGetPwLibraryVersion_of_versionText reads
  rw [packed, toNat_packed ha hb hc]
  exact unpackVersion_bytes ha hb hc

/-- So does the version of the headers. -/
theorem headerVersion_of_macros {a b c : UInt32} (ha : a < 256) (hb : b < 256) (hc : c < 256) :
    unpackVersion (pwDartGetPwHeaderVersion a b c).toNat = (↑a.toNat, ↑b.toNat, ↑c.toNat) := by
  have la : a.toNat < 256 := ha
  have lb : b.toNat < 256 := hb
  have lc : c.toNat < 256 := hc
  have major : (a <<< 16).toNat = a.toNat <<< 16 := by
    simp only [UInt32.toNat_shiftLeft, Nat.shiftLeft_eq]
    change a.toNat * 2 ^ 16 % 2 ^ 32 = a.toNat * 2 ^ 16
    omega
  have minor : (b <<< 8).toNat = b.toNat <<< 8 := by
    simp only [UInt32.toNat_shiftLeft, Nat.shiftLeft_eq]
    change b.toNat * 2 ^ 8 % 2 ^ 32 = b.toNat * 2 ^ 8
    omega
  rw [pwDartGetPwHeaderVersion, UInt32.toNat_or, UInt32.toNat_or, major, minor, shiftLeft_or_bytes _ lb lc]
  exact unpackVersion_bytes la lb lc

/-- Version texts arrive whole, the headers and the library are compared as their texts say, and a later library
meets the minimum that an earlier one meets. -/
theorem version_decision :
    (∀ (text : String) version, VersionText text.toList version → ∀ header,
      (getVersionInfo header (pwDartGetPwLibraryVersion (some text))).libraryVersion = version) ∧
    (∀ (h l : String) header library, VersionText h.toList header → VersionText l.toList library →
      ((getVersionInfo (pwDartGetPwLibraryVersion (some h)) (pwDartGetPwLibraryVersion (some l))).isCompatible ↔
        header.1 = library.1 ∧ toLex header.2 ≤ toLex library.2)) ∧
    ∀ v w : PwVersion, lexVersion v.libraryVersion ≤ lexVersion w.libraryVersion →
      v.meetsMinimumVersion → w.meetsMinimumVersion := by
  refine ⟨fun text version reads _ => libraryVersion_of_versionText reads, fun h l header library readsH readsL => ?_,
    fun v w le meets => ?_⟩
  · rw [PwVersionInfo.isCompatible_iff, getVersionInfo, libraryVersion_of_versionText readsH,
      libraryVersion_of_versionText readsL]
  · rw [PwVersion.meetsMinimumVersion_iff] at meets ⊢
    exact meets.trans le

/-- Headers of a version without a micro part, a library with a suffix, and the smallest version. -/
theorem version_decision_suffix :
    (getVersionInfo 0 (pwDartGetPwLibraryVersion (some "1.02.5-rc1"))).libraryVersion = (1, 2, 5) ∧
      (getVersionInfo (pwDartGetPwLibraryVersion (some "1.2"))
        (pwDartGetPwLibraryVersion (some "1.02.5-rc1"))).isCompatible ∧
      PwVersion.meetsMinimumVersion ⟨⟨(1, 2, 0), (1, 2, 5)⟩⟩ := by
  have one : IsComponent ['1'] := ⟨by decide, by simp, by simp [decimalValue]⟩
  have two : IsComponent ['2'] := ⟨by decide, by simp, by simp [decimalValue]⟩
  have padded : IsComponent ['0', '2'] := ⟨by decide, by simp, by simp [decimalValue]⟩
  have five : IsComponent ['5'] := ⟨by decide, by simp, by simp [decimalValue]⟩
  have stops : Stops ['-', 'r', 'c', '1'] := by
    rintro _ ⟨⟩
    decide
  have header : VersionText "1.2".toList (1, 2, 0) := .minor one two
  have library : VersionText "1.02.5-rc1".toList (1, 2, 5) := .micro one padded five stops
  have smallest : PwVersion.meetsMinimumVersion ⟨⟨(1, 2, 0), PwVersion.minVersion⟩⟩ := by decide
  have later : lexVersion PwVersion.minVersion ≤ lexVersion (1, 2, 5) := by decide
  refine ⟨version_decision.1 _ _ library 0, (version_decision.2.1 _ _ _ _ header library).mpr ?_,
    version_decision.2.2 ⟨⟨(1, 2, 0), PwVersion.minVersion⟩⟩ _ later smallest⟩
  decide

end PwDart
