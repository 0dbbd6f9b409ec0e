import UT612.Proof.Decoder.Value
import Mathlib.Data.List.Nodup

/-!
# What a row tells

The way back from a row to the bytes it was printed from. The fields of a row can be told apart,
each lookup gives different texts for different codes, and a number on a display that had a place
for all its digits is the reading itself. So frames with the same row carry the same reading, except
for the digits that a full display drops.
-/

namespace UT612

open Decimal

/-! ### Code bytes -/

/-- The key of a text in a table of different texts. -/
theorem key_eq_of_mem {cases : List (UInt8 × String)} (hnodup : (cases.map Prod.snd).Nodup)
    {key key' : UInt8} {name : String} (h : (key, name) ∈ cases) (h' : (key', name) ∈ cases) :
    key = key' :=
  congrArg Prod.fst (List.inj_on_of_nodup_map hnodup h h' rfl)

theorem switchText_injective {cases : List (UInt8 × String)} (hnodup : (cases.map Prod.snd).Nodup)
    {onDefault onDefault' : Text} {key key' : UInt8} {text : Text}
    (h : switchText cases onDefault key = .ok text)
    (h' : switchText cases onDefault' key' = .ok text) : key = key' := by
  obtain ⟨name, hmem, rfl⟩ := mem_of_switchText h
  obtain ⟨name', hmem', hname⟩ := mem_of_switchText h'
  obtain rfl := String.toList_inj.mp hname
  exact key_eq_of_mem hnodup hmem hmem'

/-- The letter of the equivalent circuit. -/
def circuitLetter (flags : UInt8) : Char := if flags &&& 0x80 ≠ 0 then 'p' else 's'

theorem circuitLetter_eq_iff (flags flags' : UInt8) :
    circuitLetter flags = circuitLetter flags' ↔ (flags &&& 0x80 = 0 ↔ flags' &&& 0x80 = 0) := by
  by_cases h : flags &&& 0x80 = 0 <;> by_cases h' : flags' &&& 0x80 = 0 <;>
    simp [circuitLetter, h, h']

theorem circuitLetter_ne (flags : UInt8) : circuitLetter flags ≠ 'R' := by
  rw [circuitLetter]
  split <;> decide

/-- A mode is printed as its name, and with the letter of its circuit if it has one. -/
theorem mMode2String_eq_ok {mMode flags : UInt8} {text : Text}
    (h : mMode2String mMode flags = .ok text) :
    mMode = 4 ∧ text = "DC".toList ++ ['R'] ∨
      mMode ≠ 4 ∧ ∃ name, (mMode, name) ∈ mModeCases ∧
        text = name.toList ++ [circuitLetter flags] := by
  by_cases hdcr : mMode = 4
  · subst hdcr
    rw [mMode2String_dcr] at h
    exact .inl ⟨rfl, (Except.ok.inj h).symm⟩
  · right
    refine ⟨hdcr, ?_⟩
    have hcode : mMode ≠ MModeEnum.DCR.code := hdcr
    rw [mMode2String, bind_eq_ok_iff] at h
    obtain ⟨mode, hmode, h⟩ := h
    obtain ⟨name, hmem, rfl⟩ := mem_of_switchText hmode
    refine ⟨name, hmem, ?_⟩
    have hbit : MModeModifier.parallel.bit = 0x80 := rfl
    rw [if_pos hcode, hbit] at h
    by_cases hparallel : flags &&& 0x80 ≠ 0
    · rw [if_pos hparallel] at h
      rw [circuitLetter, if_pos hparallel]
      exact (Except.ok.inj h).symm
    · rw [if_neg hparallel] at h
      rw [circuitLetter, if_neg hparallel]
      split at h
      · exact (Except.ok.inj h).symm
      · cases h

theorem mMode2String_injective {mMode flags mMode' flags' : UInt8} {text : Text}
    (h : mMode2String mMode flags = .ok text) (h' : mMode2String mMode' flags' = .ok text) :
    mMode = mMode' ∧ (mMode ≠ 4 → (flags &&& 0x80 = 0 ↔ flags' &&& 0x80 = 0)) := by
  rcases mMode2String_eq_ok h with ⟨rfl, htext⟩ | ⟨hne, name, hmem, htext⟩
  · rcases mMode2String_eq_ok h' with ⟨rfl, -⟩ | ⟨-, _, -, htext'⟩
    · exact ⟨rfl, fun hne => absurd rfl hne⟩
    · have hletter := (List.append_inj' (htext.symm.trans htext') rfl).2
      exact absurd (List.singleton_inj.mp hletter).symm (circuitLetter_ne flags')
  · rcases mMode2String_eq_ok h' with ⟨rfl, htext'⟩ | ⟨-, name', hmem', htext'⟩
    · have hletter := (List.append_inj' (htext.symm.trans htext') rfl).2
      exact absurd (List.singleton_inj.mp hletter) (circuitLetter_ne flags)
    · obtain ⟨hname, hletter⟩ := List.append_inj' (htext.symm.trans htext') rfl
      obtain rfl := String.toList_inj.mp hname
      have hnodup : (mModeCases.map Prod.snd).Nodup := by decide
      exact ⟨key_eq_of_mem hnodup hmem hmem',
        fun _ => (circuitLetter_eq_iff flags flags').mp (List.singleton_inj.mp hletter)⟩

/-! ### Values -/

/-- What a value field can show. -/
inductive ValueClass where
  | number | dash | blank | overload
  deriving DecidableEq, Repr

/-- The class of a text in a value column. Only a number has a point. -/
def classOfText (text : Text) : ValueClass :=
  if '.' ∈ text then .number
  else if text = "-".toList then .dash
  else if text = [] then .blank
  else .overload

namespace Display

def errorCases : Display → List (UInt8 × String)
  | .primary => mErrorCases
  | .secondary => sErrorCases

/-- What the error flags stand for that do not announce a number. -/
def errorClasses : Display → List (UInt8 × ValueClass)
  | .primary => [(34, .dash), (195, .overload), (67, .overload)]
  | .secondary => [(162, .dash), (129, .blank), (195, .overload)]

/-- The class of a display's value, by its error flags. -/
def valueClass (disp : Display) (w : Window) : Option ValueClass :=
  if disp.flags w = 0 ∨ disp.flags w = 128 then some .number
  else disp.errorClasses.lookup (disp.flags w)

variable (disp : Display) {w : Window} {values : Text}

theorem text?_of_not_number (h : w.row = .ok values)
    (hflags : ¬ (disp.flags w = 0 ∨ disp.flags w = 128)) :
    ∃ name, (disp.flags w, name) ∈ disp.errorCases ∧ disp.text? values = some name.toList := by
  obtain ⟨-, r, hr, rfl⟩ := (w.row_eq_ok_iff values).mp h
  rw [text?, hr.splitOn_text]
  cases disp with
  | primary =>
      have hvalue := (mValueText_eq w.record).symm.trans hr.mvalue
      obtain ⟨name, hmem, hname⟩ :=
        mem_of_switchText ((valueText_of_not_number hflags).symm.trans hvalue)
      exact ⟨name, hmem, congrArg some hname.symm⟩
  | secondary =>
      have hvalue := (sValueText_eq w.record).symm.trans hr.svalue
      obtain ⟨name, hmem, hname⟩ :=
        mem_of_switchText ((valueText_of_not_number hflags).symm.trans hvalue)
      exact ⟨name, hmem, congrArg some hname.symm⟩

theorem errorClasses_lookup :
    ∀ entry ∈ disp.errorCases,
      disp.errorClasses.lookup entry.1 = some (classOfText entry.2.toList) := by
  cases disp <;> decide

/-- The class of a value is the class of its text. -/
theorem valueClass_eq (h : w.row = .ok values) :
    ∃ text, disp.text? values = some text ∧ disp.valueClass w = some (classOfText text) := by
  by_cases hflags : disp.flags w = 0 ∨ disp.flags w = 128
  · refine ⟨_, (disp.text?_row h hflags).2, ?_⟩
    rw [valueClass, if_pos hflags, classOfText, if_pos (by simp [Numeral.text])]
  · obtain ⟨name, hmem, htext⟩ := disp.text?_of_not_number h hflags
    refine ⟨_, htext, ?_⟩
    rw [valueClass, if_neg hflags]
    exact disp.errorClasses_lookup _ hmem

/-- The value is a number, and its integer digits, one at least, leave room for all its decimals. -/
structure Untruncated (w : Window) : Prop where
  number : disp.flags w = 0 ∨ disp.flags w = 128
  room : (Nat.toDigits 10 ((disp.value w).natAbs / 10 ^ decimalCount (disp.decimals w))).length +
    decimalCount (disp.decimals w) ≤ disp.segments.toNat

variable {disp}

/-- A number that has not been truncated can be read off its numeral. -/
theorem Untruncated.numeral_eq (h : disp.Untruncated w)
    (hfits : Fits (disp.value w).natAbs (decimalCount (disp.decimals w))) :
    (disp.numeral w).fraction.length = decimalCount (disp.decimals w) ∧
      Decimal.value ((disp.numeral w).whole ++ (disp.numeral w).fraction) =
        (disp.value w).natAbs := by
  have hroom := h.room
  have hpos := Nat.length_toDigits_pos (b := 10)
    (n := (disp.value w).natAbs / 10 ^ decimalCount (disp.decimals w))
  have hlt : decimalCount (disp.decimals w) < (padded (disp.value w).natAbs).length := by
    have hfive := disp.segments_le_five
    rw [length_padded]
    omega
  have hlength : (disp.numeral w).fraction.length = decimalCount (disp.decimals w) := by
    rw [numeral, length_fraction_shownNumeral _ _ _ _ hfits.2,
      whole_shownNumeral_of_lt _ _ _ _ hlt]
    omega
  refine ⟨hlength, ?_⟩
  rw [numeral] at hlength ⊢
  rw [value_shownNumeral _ _ _ _ hfits.2, hlength, Nat.sub_self, pow_zero, Nat.div_one]

theorem Untruncated.value_eq {d e : Window} (hd : disp.Untruncated d) (he : disp.Untruncated e)
    (hrow : d.row = .ok values) (hrow' : e.row = .ok values) :
    disp.value d = disp.value e ∧
      decimalCount (disp.decimals d) = decimalCount (disp.decimals e) := by
  obtain ⟨hfits, htext⟩ := disp.text?_row hrow hd.number
  obtain ⟨hfits', htext'⟩ := disp.text?_row hrow' he.number
  have hdecimal : (disp.numeral d).IsDecimal := isDecimal_shownNumeral _ _ _ _
  have hdecimal' : (disp.numeral e).IsDecimal := isDecimal_shownNumeral _ _ _ _
  have hnumeral : disp.numeral d = disp.numeral e := by
    rw [← Numeral.read_text hdecimal, Option.some.inj (htext.symm.trans htext'),
      Numeral.read_text hdecimal']
  obtain ⟨hlength, hvalue⟩ := hd.numeral_eq hfits
  obtain ⟨hlength', hvalue'⟩ := he.numeral_eq hfits'
  rw [hnumeral] at hlength hvalue
  have habs := hvalue.symm.trans hvalue'
  have hsign : decide (disp.value d < 0) = decide (disp.value e < 0) :=
    congrArg Numeral.negative hnumeral
  rw [decide_eq_decide] at hsign
  exact ⟨by omega, hlength.symm.trans hlength'⟩

end Display

/-! ### Rows -/

/-- What two frames with the same row have in common. -/
structure SameReading (d e : Window) : Prop where
  mmode : d[5] = e[5]
  circuit : d[5] ≠ 4 → (d[2] &&& 0x80 = 0 ↔ e[2] &&& 0x80 = 0)
  mUnit : d[8] >>> 3 = e[8] >>> 3
  sMode : d[10] = e[10]
  sUnit : d[13] >>> 3 = e[13] >>> 3
  freq : d[3] = e[3]
  valueClass : ∀ disp : Display, ∃ c, disp.valueClass d = some c ∧ disp.valueClass e = some c
  value : ∀ disp : Display, disp.Untruncated d → disp.Untruncated e →
    disp.value d = disp.value e ∧ decimalCount (disp.decimals d) = decimalCount (disp.decimals e)

/-- The fields of a row are determined by its text. -/
theorem Decodes.eq_of_text_eq {d e : Window} {r r' : Row} (h : Decodes d r) (h' : Decodes e r')
    (htext : r.text = r'.text) : r = r' := by
  have hfields : r.fields = r'.fields := by
    rw [← h.splitOn_text, htext, h'.splitOn_text]
  obtain ⟨_, _, _, _, _, _, _⟩ := r
  obtain ⟨_, _, _, _, _, _, _⟩ := r'
  simpa [Row.fields] using hfields

/-- **A row tells the reading it was printed from.** -/
theorem row_determines_reading {d e : Window} {values : Text} (hd : d.row = .ok values)
    (he : e.row = .ok values) : SameReading d e := by
  obtain ⟨-, r, hr, hvalues⟩ := (d.row_eq_ok_iff values).mp hd
  obtain ⟨-, r', hr', hvalues'⟩ := (e.row_eq_ok_iff values).mp he
  obtain rfl := hr.eq_of_text_eq hr' (hvalues.symm.trans hvalues')
  obtain ⟨hmmode, hcircuit⟩ := mMode2String_injective hr.mmode hr'.mmode
  refine ⟨hmmode, hcircuit, switchText_injective (by decide) hr.mUnit hr'.mUnit,
    switchText_injective (by decide) hr.sMode hr'.sMode,
    switchText_injective (by decide) hr.sUnit hr'.sUnit,
    switchText_injective (by decide) hr.freq hr'.freq, ?_, ?_⟩
  · intro disp
    obtain ⟨text, htext, hclass⟩ := disp.valueClass_eq hd
    obtain ⟨text', htext', hclass'⟩ := disp.valueClass_eq he
    obtain rfl := Option.some.inj (htext.symm.trans htext')
    exact ⟨_, hclass, hclass'⟩
  · intro disp huntruncated huntruncated'
    exact huntruncated.value_eq huntruncated' hd he

/-- The phase frame with other bytes where a row does not depend on them. -/
theorem row_determines_reading_phase :
    SameReading phaseFrame
      ⟨[0x00, 0x07, 0x40, 0x98, 0x01, 0x03, 0x13, 0x8a, 0x14, 0x80, 0x04, 0xff, 0xff, 0x71, 0x00,
        0x0d, 0x0a], rfl⟩ := by
  have hrow : phaseFrame.row = .ok "Rs\t0.5002\tkOhm\ttheta\t-0.1\tDeg\t100KHz".toList := by
    decide +kernel
  exact row_determines_reading hrow (by decide +kernel)

end UT612
