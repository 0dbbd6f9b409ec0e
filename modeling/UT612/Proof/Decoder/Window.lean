import UT612.Proof.Decoder.Number

/-!
# Windows and rows

The 17 bytes `processFrame` looks at, as a value of their own, and the row it prints for them. A
window gives a row exactly when each of its fields has a text, and the row is those texts with a tab
between each two: `row_eq_ok_iff` says this once, and everything about rows is read off it.
-/

namespace UT612

/-- The bytes of one frame. -/
@[ext]
structure Window where
  bytes : List UInt8
  length_eq : bytes.length = frameSize
  deriving DecidableEq, Repr

namespace Window

instance : GetElem Window Nat UInt8 fun _ i => i < frameSize where
  getElem w i h := w.bytes.get ⟨i, w.length_eq.symm ▸ h⟩

theorem getElem?_bytes (w : Window) {i : Nat} (h : i < frameSize) : w.bytes[i]? = some w[i] :=
  List.getElem?_eq_getElem (w.length_eq.symm ▸ h)

variable (w : Window)

theorem le_length : 0 + frameSize ≤ w.bytes.length := by
  rw [w.length_eq, Nat.zero_add]

def record : UT612Struct := UT612Struct.read w.bytes 0 w.le_length

/-- What `processFrame` returns for the window. -/
def row : Except Fault Text := processFrame w.bytes 0 w.le_length

/-- The window at a place of a longer input. -/
def ofData (data : List UInt8) (start : Nat) (h : start + frameSize ≤ data.length) : Window where
  bytes := (data.drop start).take frameSize
  length_eq := by
    rw [List.length_take, List.length_drop]
    omega

theorem record_ofData (data : List UInt8) (start : Nat) (h : start + frameSize ≤ data.length) :
    (ofData data start h).record = UT612Struct.read data start h := by
  simp [record, ofData, UT612Struct.read]

/-- `processFrame` sees nothing of its input but the window. -/
theorem row_ofData (data : List UInt8) (start : Nat) (h : start + frameSize ≤ data.length) :
    (ofData data start h).row = processFrame data start h := by
  have hrecord := record_ofData data start h
  rw [record] at hrecord
  simp only [row, processFrame, hrecord]

end Window

/-- A resistance frame with the phase -0.1 degrees. -/
def phaseFrame : Window :=
  ⟨[0x00, 0x0d, 0x60, 0x98, 0x00, 0x03, 0x13, 0x8a, 0x14, 0x00, 0x04, 0xff, 0xff, 0x71, 0x80,
    0x0d, 0x0a], rfl⟩

/-- A resistance frame whose primary value has the bytes of a delimiter. -/
def delimiterFrame : Window :=
  ⟨[0x00, 0x0d, 0x60, 0x98, 0x00, 0x03, 0x0d, 0x0a, 0x14, 0x00, 0x04, 0xff, 0xff, 0x71, 0x80,
    0x0d, 0x0a], rfl⟩

/-- A frame with a damaged first byte, which has no row. -/
def damagedFrame : Window :=
  ⟨[0x41, 0x0d, 0x60, 0x98, 0x00, 0x03, 0x13, 0x8a, 0x14, 0x00, 0x04, 0xff, 0xff, 0x71, 0x80,
    0x0d, 0x0a], rfl⟩

/-! ### Evaluations that only throw runtime errors -/

def RuntimeOnly {α : Type} (r : Except Fault α) : Prop :=
  ∀ fault, r = .error fault → ∃ what, fault = .runtimeError what

theorem RuntimeOnly.ok {α : Type} (a : α) : RuntimeOnly (.ok a) := fun _ h => nomatch h

theorem RuntimeOnly.error {α : Type} (what : Text) :
    RuntimeOnly (.error (.runtimeError what) : Except Fault α) := by
  rintro _ ⟨⟩
  exact ⟨what, rfl⟩

theorem RuntimeOnly.bind {α β : Type} {r : Except Fault α} {next : α → Except Fault β}
    (hr : RuntimeOnly r) (hnext : ∀ a, RuntimeOnly (next a)) : RuntimeOnly (r >>= next) := by
  cases r with
  | ok a => exact hnext a
  | error fault =>
      rintro _ ⟨⟩
      exact hr fault rfl

theorem bind_eq_ok_iff {α β : Type} {r : Except Fault α} {next : α → Except Fault β} {b : β} :
    (r >>= next) = .ok b ↔ ∃ a, r = .ok a ∧ next a = .ok b := by
  cases r with
  | ok a =>
      constructor
      · exact fun h => ⟨a, rfl, h⟩
      · rintro ⟨_, ⟨⟩, h⟩
        exact h
  | error fault =>
      constructor
      · exact fun h => nomatch h
      · rintro ⟨_, h, _⟩
        exact nomatch h

theorem isOk_iff {α : Type} {r : Except Fault α} : r.isOk = true ↔ ∃ a, r = .ok a := by
  cases r with
  | ok a => exact iff_of_true rfl ⟨a, rfl⟩
  | error fault => exact iff_of_false (fun h => nomatch h) (fun h => nomatch h)

/-! ### Rows -/

/-- The texts of a row, in the order of its columns. -/
structure Row where
  mmode : Text
  mvalue : Text
  mUnit : Text
  sMode : Text
  svalue : Text
  sUnit : Text
  freq : Text
  deriving DecidableEq, Repr

def Row.fields (r : Row) : List Text :=
  [r.mmode, r.mvalue, r.mUnit, r.sMode, r.svalue, r.sUnit, r.freq]

def Row.text (r : Row) : Text := ['\t'].intercalate r.fields

/-- Each field of the row is what its lookup or formatter gives for the bytes of the window. -/
structure Decodes (w : Window) (r : Row) : Prop where
  mmode : mMode2String w[5] w[2] = .ok r.mmode
  mvalue : mValueText w.record = .ok r.mvalue
  mUnit : mUnit2String w[8] = .ok r.mUnit
  sMode : sMode2String w[10] = .ok r.sMode
  svalue : sValueText w.record = .ok r.svalue
  sUnit : sUnit2String w[13] = .ok r.sUnit
  freq : freq2String w[3] = .ok r.freq

namespace Window

variable (w : Window)

theorem row_eq :
    w.row = if w[0] ≠ 0 then
        .error (.runtimeError
          "ERROR: not a zero in first byte (expected 0x0d 0x0a to be followed by 0x00)".toList)
      else do
        let mmode ← mMode2String w[5] w[2]
        let mvalue ← mValueText w.record
        let mUnit ← mUnit2String w[8]
        let sMode ← sMode2String w[10]
        let svalue ← sValueText w.record
        let sUnit ← sUnit2String w[13]
        let freq ← freq2String w[3]
        return Row.text ⟨mmode, mvalue, mUnit, sMode, svalue, sUnit, freq⟩ := by
  have htext (r : Row) : r.text = r.mmode ++ "\t".toList ++ r.mvalue ++ "\t".toList ++ r.mUnit ++
      "\t".toList ++ r.sMode ++ "\t".toList ++ r.svalue ++ "\t".toList ++ r.sUnit ++
      "\t".toList ++ r.freq := by
    simp [Row.text, Row.fields, List.intercalate, List.intersperse]
  simp only [row, processFrame, htext]
  rfl

/-- **Rows.** A window that starts with a zero has the row of its fields, if each of them has a
text, and no other window has a row. -/
theorem row_eq_ok_iff (values : Text) :
    w.row = .ok values ↔ w[0] = 0 ∧ ∃ r, Decodes w r ∧ values = r.text := by
  rw [row_eq]
  by_cases hzero : w[0] = 0
  · rw [if_neg (not_not.mpr hzero)]
    simp only [bind_eq_ok_iff]
    constructor
    · rintro ⟨mmode, hmmode, mvalue, hmvalue, mUnit, hmUnit, sMode, hsMode, svalue, hsvalue, sUnit,
        hsUnit, freq, hfreq, hvalues⟩
      exact ⟨hzero, ⟨mmode, mvalue, mUnit, sMode, svalue, sUnit, freq⟩,
        ⟨hmmode, hmvalue, hmUnit, hsMode, hsvalue, hsUnit, hfreq⟩, (Except.ok.inj hvalues).symm⟩
    · rintro ⟨-, r, h, rfl⟩
      exact ⟨_, h.mmode, _, h.mvalue, _, h.mUnit, _, h.sMode, _, h.svalue, _, h.sUnit, _, h.freq, rfl⟩
  · rw [if_pos hzero]
    constructor
    · exact fun h => nomatch h
    · exact fun h => absurd h.1 hzero

end Window

end UT612
