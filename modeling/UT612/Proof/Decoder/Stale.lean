import UT612.Proof.Decoder.Grammar

/-!
# Stale bytes

While the meter switches modes it leaves the previous reading in the value bytes and marks it
through the error flags only. This module shows that the decoder does not look at bytes marked that
way: two windows that agree on everything the flags leave live have the same row, or none of them
has one.
-/

namespace UT612

/-- Agreement on the bytes a row may depend on. The value bytes count where the error flags announce
a number, the circuit bits outside the DCR mode, and the unit bits always. -/
structure AgreeLive (d e : Window) : Prop where
  zero : d[0] = e[0]
  modifier : d[5] ≠ 4 → d[2] = e[2]
  freq : d[3] = e[3]
  mmode : d[5] = e[5]
  mvalue : d[9] = 0 ∨ d[9] = 128 → d[6] = e[6] ∧ d[7] = e[7] ∧ d[8] = e[8]
  mUnit : d[8] >>> 3 = e[8] >>> 3
  mvalueFlags : d[9] = e[9]
  sMode : d[10] = e[10]
  svalue : d[14] = 0 ∨ d[14] = 128 → d[11] = e[11] ∧ d[12] = e[12] ∧ d[13] = e[13]
  sUnit : d[13] >>> 3 = e[13] >>> 3
  svalueFlags : d[14] = e[14]

theorem AgreeLive.symm {d e : Window} (h : AgreeLive d e) : AgreeLive e d where
  zero := h.zero.symm
  modifier := fun hmode => (h.modifier (h.mmode ▸ hmode)).symm
  freq := h.freq.symm
  mmode := h.mmode.symm
  mvalue := fun hflags =>
    have hbytes := h.mvalue (h.mvalueFlags ▸ hflags)
    ⟨hbytes.1.symm, hbytes.2.1.symm, hbytes.2.2.symm⟩
  mUnit := h.mUnit.symm
  mvalueFlags := h.mvalueFlags.symm
  sMode := h.sMode.symm
  svalue := fun hflags =>
    have hbytes := h.svalue (h.svalueFlags ▸ hflags)
    ⟨hbytes.1.symm, hbytes.2.1.symm, hbytes.2.2.symm⟩
  sUnit := h.sUnit.symm
  svalueFlags := h.svalueFlags.symm

/-- A text that a unit lookup returns depends on the unit bits only. -/
theorem switchText_ok_congr {cases : List (UInt8 × String)} {onDefault onDefault' : Text}
    {key key' : UInt8} {text : Text} (hkey : key = key')
    (h : switchText cases onDefault key = .ok text) : switchText cases onDefault' key' = .ok text := by
  rw [switchText_eq_ok_iff] at h ⊢
  rwa [← hkey]

theorem valueText_ok_congr {msb lsb decimals msb' lsb' decimals' segments : UInt8}
    {errorCases : List (UInt8 × String)} {onDefault onDefault' : Text} {flags flags' : UInt8}
    {text : Text} (hflags : flags = flags')
    (hnumber : flags = 0 ∨ flags = 128 → msb = msb' ∧ lsb = lsb' ∧ decimals = decimals')
    (h : valueText msb lsb decimals segments errorCases onDefault flags = .ok text) :
    valueText msb' lsb' decimals' segments errorCases onDefault' flags' = .ok text := by
  subst hflags
  by_cases hn : flags = 0 ∨ flags = 128
  · obtain ⟨rfl, rfl, rfl⟩ := hnumber hn
    rwa [valueText_of_number hn] at h ⊢
  · rw [valueText_of_not_number hn] at h ⊢
    exact switchText_ok_congr rfl h

theorem Decodes.congr {d e : Window} (hagree : AgreeLive d e) {r : Row} (h : Decodes d r) :
    Decodes e r where
  mmode := by
    have hmode := h.mmode
    by_cases hdcr : d[5] = 4
    · rw [hdcr, mMode2String_dcr] at hmode
      rw [← hagree.mmode, hdcr, mMode2String_dcr, hmode]
    · rwa [← hagree.mmode, ← hagree.modifier hdcr]
  mvalue := by
    have hvalue := h.mvalue
    rw [mValueText_eq] at hvalue ⊢
    exact valueText_ok_congr hagree.mvalueFlags hagree.mvalue hvalue
  mUnit := switchText_ok_congr hagree.mUnit h.mUnit
  sMode := switchText_ok_congr hagree.sMode h.sMode
  svalue := by
    have hvalue := h.svalue
    rw [sValueText_eq] at hvalue ⊢
    exact valueText_ok_congr hagree.svalueFlags hagree.svalue hvalue
  sUnit := switchText_ok_congr hagree.sUnit h.sUnit
  freq := switchText_ok_congr hagree.freq h.freq

theorem row_ok_congr {d e : Window} (hagree : AgreeLive d e) {values : Text}
    (h : d.row = .ok values) : e.row = .ok values := by
  rw [Window.row_eq_ok_iff] at h ⊢
  obtain ⟨hzero, r, hr, rfl⟩ := h
  exact ⟨hagree.zero ▸ hzero, r, hr.congr hagree, rfl⟩

/-- **Stale bytes never reach a row.** -/
theorem stale_bytes_invisible {d e : Window} (hagree : AgreeLive d e) :
    d.row.toOption = e.row.toOption := by
  cases hd : d.row with
  | ok values => rw [row_ok_congr hagree hd]
  | error fault =>
      cases he : e.row with
      | ok values =>
          rw [row_ok_congr hagree.symm he] at hd
          exact nomatch hd
      | error fault' => rfl

/-- An inductance frame without a value, over the zeros of a fresh meter and over an old reading. -/
theorem stale_bytes_invisible_no_value :
    (⟨[0x00, 0x0d, 0x40, 0x58, 0x00, 0x01, 0x00, 0x00, 0x00, 0x22, 0x02, 0x00, 0x00, 0x00, 0xa2,
        0x0d, 0x0a], rfl⟩ : Window).row.toOption =
      (⟨[0x00, 0x07, 0x40, 0x58, 0x01, 0x01, 0x13, 0x8e, 0x04, 0x22, 0x02, 0x01, 0x02, 0x03, 0xa2,
        0x0d, 0x0a], rfl⟩ : Window).row.toOption :=
  stale_bytes_invisible
    { zero := by decide
      modifier := by decide
      freq := by decide
      mmode := by decide
      mvalue := by decide
      mUnit := by decide
      mvalueFlags := by decide
      sMode := by decide
      svalue := by decide
      sUnit := by decide
      svalueFlags := by decide }

end UT612
