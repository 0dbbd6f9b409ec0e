import UT612.Proof.Decoder.Window

/-!
# The frame grammar

Which windows have a row. Acceptance is spread over the lookups, the two value fields and the number
formatter; `Grammar` collects what each of them asks of the bytes, and the decoder accepts exactly
the windows that satisfy it. Whatever it rejects, it rejects with a `runtime_error`.
-/

namespace UT612

/-! ### The lookups -/

theorem switchText_eq_ok_iff {cases : List (UInt8 × String)} {onDefault : Text} {key : UInt8}
    {text : Text} : switchText cases onDefault key = .ok text ↔
      (cases.lookup key).map String.toList = some text := by
  rw [switchText]
  cases cases.lookup key <;> simp

theorem mem_of_switchText {cases : List (UInt8 × String)} {onDefault : Text} {key : UInt8}
    {text : Text} (h : switchText cases onDefault key = .ok text) :
    ∃ name, (key, name) ∈ cases ∧ name.toList = text := by
  rw [switchText_eq_ok_iff] at h
  obtain ⟨name, hlookup, hname⟩ := Option.map_eq_some_iff.mp h
  obtain ⟨before, after, hsplit, -⟩ := List.lookup_eq_some_iff.mp hlookup
  exact ⟨name, by rw [hsplit]; simp, hname⟩

theorem switchText_nil (onDefault : Text) (key : UInt8) :
    switchText [] onDefault key = .error (.runtimeError onDefault) := rfl

theorem switchText_cons (code : UInt8) (text : String) (cases : List (UInt8 × String))
    (onDefault : Text) (key : UInt8) :
    switchText ((code, text) :: cases) onDefault key =
      if key = code then .ok text.toList else switchText cases onDefault key := by
  rw [switchText, List.lookup_cons]
  by_cases h : key = code
  · rw [if_pos h, beq_iff_eq.mpr h]
  · rw [if_neg h, beq_eq_false_iff_ne.mpr h]
    rfl

theorem switchText_isOk_iff {cases : List (UInt8 × String)} {onDefault : Text} {key : UInt8} :
    (∃ text, switchText cases onDefault key = .ok text) ↔ key ∈ cases.map Prod.fst := by
  have hlookup := List.lookup_isSome_iff (l := cases) (k := key)
  simp only [switchText_eq_ok_iff, Option.map_eq_some_iff]
  constructor
  · rintro ⟨_, text, h, -⟩
    obtain ⟨p, hp, hkey⟩ := hlookup.mp (by rw [h]; rfl)
    exact List.mem_map.mpr ⟨p, hp, (beq_iff_eq.mp hkey).symm⟩
  · intro h
    obtain ⟨p, hp, rfl⟩ := List.mem_map.mp h
    obtain ⟨text, htext⟩ := Option.isSome_iff_exists.mp (hlookup.mpr ⟨p, hp, beq_self_eq_true _⟩)
    exact ⟨text.toList, text, htext, rfl⟩

theorem switchText_runtimeOnly (cases : List (UInt8 × String)) (onDefault : Text) (key : UInt8) :
    RuntimeOnly (switchText cases onDefault key) := by
  rw [switchText]
  cases cases.lookup key with
  | some text => exact .ok _
  | none => exact .error _

theorem mMode2String_isOk_iff (mMode flags : UInt8) :
    (∃ text, mMode2String mMode flags = .ok text) ↔ mMode ∈ [1, 2, 3, 4] ∧
      (mMode = 4 ∨ flags = 0 ∨ flags &&& 0x80 ≠ 0 ∨ flags &&& 0x40 ≠ 0) := by
  have hswitch : (∃ text, switchText mModeCases
      ("ERROR: Unexpected byte in MMode: ".toList ++ putInt mMode.toNat) mMode = .ok text) ↔
      mMode ∈ mModeCases.map Prod.fst := switchText_isOk_iff
  have hcodes : mModeCases.map Prod.fst = [1, 2, 3, 4] := rfl
  rw [hcodes] at hswitch
  rw [← hswitch, mMode2String]
  cases switchText mModeCases _ mMode with
  | error fault => simp [bind, Except.bind]
  | ok text =>
      simp only [bind, Except.bind, MModeEnum.code, MModeModifier.bit, pure, Except.pure, throw,
        throwThe, MonadExceptOf.throw]
      by_cases hdcr : mMode = 4
      · simp [hdcr]
      · by_cases hparallel : flags &&& 0x80 = 0
        · by_cases hserial : flags &&& 0x40 ≠ 0 ∨ flags = 0
          · simp [hdcr, hparallel, hserial]
            tauto
          · simp [hdcr, hparallel, hserial]
            tauto
        · simp [hdcr, hparallel]

/-- The DCR mode is printed whatever the circuit bits are. -/
theorem mMode2String_dcr (flags : UInt8) : mMode2String 4 flags = .ok "DCR".toList := rfl

theorem mMode2String_runtimeOnly (mMode flags : UInt8) : RuntimeOnly (mMode2String mMode flags) := by
  rw [mMode2String]
  apply RuntimeOnly.bind (switchText_runtimeOnly _ _ _)
  intro text
  split
  · split
    · exact .ok _
    · split
      · exact .ok _
      · exact .error _
  · exact .ok _

/-! ### The values -/

theorem bits2Number_isOk_iff {msb lsb decimals segments : UInt8} (hsegments : 4 ≤ segments.toNat) :
    (∃ text, bits2Number msb lsb decimals segments = .ok text) ↔ Displayable msb lsb decimals := by
  constructor
  · rintro ⟨text, htext⟩
    by_contra h
    rw [bits2Number_eq_error segments h] at htext
    exact nomatch htext
  · intro h
    exact ⟨_, bits2Number_eq_ok hsegments h⟩

theorem bits2Number_runtimeOnly (msb lsb decimals : UInt8) {segments : UInt8}
    (hsegments : 4 ≤ segments.toNat) : RuntimeOnly (bits2Number msb lsb decimals segments) := by
  by_cases h : Displayable msb lsb decimals
  · rw [bits2Number_eq_ok hsegments h]
    exact .ok _
  · rw [bits2Number_eq_error segments h]
    exact .error _

theorem bits2Number_ne_nothingToStrip (msb lsb decimals : UInt8) {segments : UInt8}
    (hsegments : 4 ≤ segments.toNat) :
    bits2Number msb lsb decimals segments ≠ .error nothingToStrip := by
  by_cases h : Displayable msb lsb decimals
  · rw [bits2Number_eq_ok hsegments h]
    exact nofun
  · rw [bits2Number_eq_error segments h]
    intro heq
    exact noPlaceForPoint_ne_nothingToStrip _ _ _ (Except.error.inj heq)

/-- A value field: a number, or what the error flags stand for. -/
def valueText (msb lsb decimals segments : UInt8) (errorCases : List (UInt8 × String))
    (onDefault : Text) (flags : UInt8) : Except Fault Text :=
  if flags = 0 ∨ flags = 128 then bits2Number msb lsb decimals segments
  else switchText errorCases onDefault flags

def mErrorCases : List (UInt8 × String) := [(34, "-"), (195, "OL"), (67, "OL")]

def sErrorCases : List (UInt8 × String) := [(162, "-"), (129, ""), (195, "OL")]

theorem mValueText_eq (d : UT612Struct) :
    mValueText d = valueText d.mvalueMsb d.mvalueLsb d.mvalueDecimalsAndUnit 5 mErrorCases
      ("ERROR: don't know what to do with error modifier d[9]: ".toList ++
        putInt d.mvalueErrorFlags.toNat) d.mvalueErrorFlags := by
  rw [valueText, mErrorCases, switchText_cons, switchText_cons, switchText_cons, switchText_nil]
  rfl

theorem sValueText_eq (d : UT612Struct) :
    sValueText d = valueText d.secondaryValueMsb d.secondaryValueLsb
      d.secondaryValueDecimalsAndUnit 4 sErrorCases
      ("ERROR: don't know what to do with d[14]=".toList ++
        putInt d.secondaryValueErrorFlags.toNat) d.secondaryValueErrorFlags := by
  rw [valueText, sErrorCases, switchText_cons, switchText_cons, switchText_cons, switchText_nil]
  rfl

section Value

variable {msb lsb decimals segments : UInt8} {errorCases : List (UInt8 × String)}
  {onDefault : Text} {flags : UInt8}

theorem valueText_of_number (h : flags = 0 ∨ flags = 128) :
    valueText msb lsb decimals segments errorCases onDefault flags =
      bits2Number msb lsb decimals segments := if_pos h

theorem valueText_of_not_number (h : ¬ (flags = 0 ∨ flags = 128)) :
    valueText msb lsb decimals segments errorCases onDefault flags =
      switchText errorCases onDefault flags := if_neg h

theorem valueText_isOk_iff (hsegments : 4 ≤ segments.toNat) :
    (∃ text, valueText msb lsb decimals segments errorCases onDefault flags = .ok text) ↔
      flags ∈ 0 :: 128 :: errorCases.map Prod.fst ∧
        (flags = 0 ∨ flags = 128 → Displayable msb lsb decimals) := by
  rw [List.mem_cons, List.mem_cons, ← or_assoc]
  by_cases h : flags = 0 ∨ flags = 128
  · rw [valueText_of_number h, bits2Number_isOk_iff hsegments]
    simp only [h, true_or, true_and, true_imp_iff]
  · rw [valueText_of_not_number h, switchText_isOk_iff]
    simp only [h, false_or, false_imp_iff, and_true]

theorem valueText_runtimeOnly (hsegments : 4 ≤ segments.toNat) :
    RuntimeOnly (valueText msb lsb decimals segments errorCases onDefault flags) := by
  by_cases h : flags = 0 ∨ flags = 128
  · rw [valueText_of_number h]
    exact bits2Number_runtimeOnly msb lsb decimals hsegments
  · rw [valueText_of_not_number h]
    exact switchText_runtimeOnly errorCases onDefault flags

end Value

/-! ### Frames -/

/-- What the decoder asks of the bytes of a window. -/
structure Grammar (w : Window) : Prop where
  zero : w[0] = 0
  mmode : w[5] ∈ ([1, 2, 3, 4] : List UInt8)
  modifier : w[5] = 4 ∨ w[2] = 0 ∨ w[2] &&& 0x80 ≠ 0 ∨ w[2] &&& 0x40 ≠ 0
  mvalueFlags : w[9] ∈ ([0, 128, 34, 195, 67] : List UInt8)
  mUnit : w[8] >>> 3 ∈ ([0, 1, 2, 3, 5, 6, 7, 9, 10, 11, 12] : List UInt8)
  sMode : w[10] ∈ ([0, 1, 2, 3, 4] : List UInt8)
  svalueFlags : w[14] ∈ ([0, 128, 162, 129, 195] : List UInt8)
  sUnit : w[13] >>> 3 ∈ ([0, 1, 2, 3, 14] : List UInt8)
  freq : w[3] ∈ ([0x18, 0x38, 0x58, 0x78, 0x98, 0xB8] : List UInt8)
  mvalue : w[9] = 0 ∨ w[9] = 128 → Displayable w[6] w[7] w[8]
  svalue : w[14] = 0 ∨ w[14] = 128 → Displayable w[11] w[12] w[13]

theorem Window.row_isOk_iff (w : Window) : (∃ values, w.row = .ok values) ↔ Grammar w := by
  have hmmode := mMode2String_isOk_iff w[5] w[2]
  have hmvalue : (∃ text, mValueText w.record = .ok text) ↔ _ :=
    mValueText_eq w.record ▸ valueText_isOk_iff (by decide)
  have hmUnit : (∃ text, mUnit2String w[8] = .ok text) ↔ _ := switchText_isOk_iff
  have hsMode : (∃ text, sMode2String w[10] = .ok text) ↔ _ := switchText_isOk_iff
  have hsvalue : (∃ text, sValueText w.record = .ok text) ↔ _ :=
    sValueText_eq w.record ▸ valueText_isOk_iff (by decide)
  have hsUnit : (∃ text, sUnit2String w[13] = .ok text) ↔ _ := switchText_isOk_iff
  have hfreq : (∃ text, freq2String w[3] = .ok text) ↔ _ := switchText_isOk_iff
  simp only [row_eq_ok_iff]
  constructor
  · rintro ⟨_, hzero, r, h, -⟩
    obtain ⟨hmode, hmodifier⟩ := hmmode.mp ⟨_, h.mmode⟩
    obtain ⟨hflags, hnumber⟩ := hmvalue.mp ⟨_, h.mvalue⟩
    obtain ⟨hsflags, hsnumber⟩ := hsvalue.mp ⟨_, h.svalue⟩
    exact ⟨hzero, hmode, hmodifier, hflags, hmUnit.mp ⟨_, h.mUnit⟩, hsMode.mp ⟨_, h.sMode⟩, hsflags,
      hsUnit.mp ⟨_, h.sUnit⟩, hfreq.mp ⟨_, h.freq⟩, hnumber, hsnumber⟩
  · intro h
    obtain ⟨mmode, hmmodeText⟩ := hmmode.mpr ⟨h.mmode, h.modifier⟩
    obtain ⟨mvalue, hmvalueText⟩ := hmvalue.mpr ⟨h.mvalueFlags, h.mvalue⟩
    obtain ⟨mUnit, hmUnitText⟩ := hmUnit.mpr h.mUnit
    obtain ⟨sMode, hsModeText⟩ := hsMode.mpr h.sMode
    obtain ⟨svalue, hsvalueText⟩ := hsvalue.mpr ⟨h.svalueFlags, h.svalue⟩
    obtain ⟨sUnit, hsUnitText⟩ := hsUnit.mpr h.sUnit
    obtain ⟨freq, hfreqText⟩ := hfreq.mpr h.freq
    exact ⟨_, h.zero, ⟨mmode, mvalue, mUnit, sMode, svalue, sUnit, freq⟩,
      ⟨hmmodeText, hmvalueText, hmUnitText, hsModeText, hsvalueText, hsUnitText, hfreqText⟩,
      rfl⟩

theorem Window.row_runtimeOnly (w : Window) : RuntimeOnly w.row := by
  rw [row_eq]
  split
  · exact .error _
  · apply RuntimeOnly.bind (mMode2String_runtimeOnly _ _)
    intro mmode
    apply RuntimeOnly.bind (mValueText_eq w.record ▸ valueText_runtimeOnly (by decide))
    intro mvalue
    apply RuntimeOnly.bind (switchText_runtimeOnly _ _ _)
    intro mUnit
    apply RuntimeOnly.bind (switchText_runtimeOnly _ _ _)
    intro sMode
    apply RuntimeOnly.bind (sValueText_eq w.record ▸ valueText_runtimeOnly (by decide))
    intro svalue
    apply RuntimeOnly.bind (switchText_runtimeOnly _ _ _)
    intro sUnit
    apply RuntimeOnly.bind (switchText_runtimeOnly _ _ _)
    intro freq
    exact .ok _

/-- A window without a row is rejected with a `runtime_error`. -/
theorem Window.row_eq_error {w : Window} (h : ¬ Grammar w) :
    ∃ what, w.row = .error (.runtimeError what) := by
  cases hrow : w.row with
  | ok values => exact absurd (w.row_isOk_iff.mp ⟨values, hrow⟩) h
  | error fault =>
      obtain ⟨what, rfl⟩ := w.row_runtimeOnly fault hrow
      exact ⟨what, rfl⟩

/-- **The decoder accepts exactly its frame grammar**, rejects everything else with a
`runtime_error`, and its number formatter never runs out of digits to strip on either display. -/
theorem row_iff_grammar (w : Window) :
    ((∃ values, w.row = .ok values) ↔ Grammar w) ∧
      (¬ Grammar w → ∃ what, w.row = .error (.runtimeError what)) ∧
      ∀ msb lsb decimals, bits2Number msb lsb decimals 5 ≠ .error nothingToStrip ∧
        bits2Number msb lsb decimals 4 ≠ .error nothingToStrip := by
  refine ⟨w.row_isOk_iff, Window.row_eq_error, fun msb lsb decimals => ⟨?_, ?_⟩⟩
  · exact bits2Number_ne_nothingToStrip msb lsb decimals (by decide)
  · exact bits2Number_ne_nothingToStrip msb lsb decimals (by decide)

end UT612
