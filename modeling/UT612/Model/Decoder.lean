import UT612.Model.Text

/-!
# The frame decoder

The decoding half of `UT612ByteStreamParser.cpp`: the lookups that turn one code byte into text, the
formatter `bits2Number`, the packed record a frame is read through, and `processFrame`, which puts
them together. Each definition follows the function of the same name.
-/

namespace UT612

/-- The bytes of a frame. -/
abbrev frameSize : Nat := 17

/-! ### Code bytes -/

/-- The measurement modes, stored in byte 5. -/
inductive MModeEnum where
  | L | C | R | DCR
  deriving DecidableEq, Repr

def MModeEnum.code : MModeEnum → UInt8
  | .L => 1
  | .C => 2
  | .R => 3
  | .DCR => 4

/-- The bits of byte 2 that say which equivalent circuit a mode assumes. -/
inductive MModeModifier where
  | serial | parallel
  deriving DecidableEq, Repr

def MModeModifier.bit : MModeModifier → UInt8
  | .serial => 0x40
  | .parallel => 0x80

/-- The test frequencies, stored in byte 3. -/
inductive FreqEnum where
  | hz100 | hz120 | khz1 | khz10 | khz100 | dcrMeasurement
  deriving DecidableEq, Repr

def FreqEnum.code : FreqEnum → UInt8
  | .hz100 => 0x18
  | .hz120 => 0x38
  | .khz1 => 0x58
  | .khz10 => 0x78
  | .khz100 => 0x98
  | .dcrMeasurement => 0xB8

/-- The secondary display modes, stored in byte 10. -/
inductive SModeEnum where
  | empty | D | Q | ESR | theta
  deriving DecidableEq, Repr

def SModeEnum.code : SModeEnum → UInt8
  | .empty => 0
  | .D => 1
  | .Q => 2
  | .ESR => 3
  | .theta => 4

/-! ### Lookups -/

/-- A `switch` whose cases return a text and whose default throws a `runtime_error`. -/
def switchText (cases : List (UInt8 × String)) (onDefault : Text) (key : UInt8) : Except Fault Text :=
  match cases.lookup key with
  | some text => .ok text.toList
  | none => .error (.runtimeError onDefault)

def mModeCases : List (UInt8 × String) :=
  [(MModeEnum.L.code, "L"), (MModeEnum.C.code, "C"), (MModeEnum.R.code, "R"),
    (MModeEnum.DCR.code, "DCR")]

def mMode2String (mMode flags : UInt8) : Except Fault Text := do
  let retval ← switchText mModeCases
    ("ERROR: Unexpected byte in MMode: ".toList ++ putInt mMode.toNat) mMode
  if mMode ≠ MModeEnum.DCR.code then
    if flags &&& MModeModifier.parallel.bit ≠ 0 then
      return retval ++ "p".toList
    else if flags &&& MModeModifier.serial.bit ≠ 0 ∨ flags = 0 then
      return retval ++ "s".toList
    else
      throw (.runtimeError
        ("ERROR: unknown serial/parallel modifier: ".toList ++ putInt flags.toNat))
  else
    return retval

def mUnitCases : List (UInt8 × String) :=
  [(0, ""), (1, "Ohm"), (2, "kOhm"), (3, "MOhm"), (5, "uH"), (6, "mH"), (7, "H"),
    (9, "pF"), (10, "nF"), (11, "uF"), (12, "mF")]

def mUnit2String (mUnit : UInt8) : Except Fault Text :=
  let unit := mUnit >>> 3
  switchText mUnitCases
    ("ERROR: unknown unit ".toList ++ putInt unit.toNat ++ " (".toList ++ putInt mUnit.toNat ++
      ")".toList) unit

def sModeCases : List (UInt8 × String) :=
  [(SModeEnum.empty.code, ""), (SModeEnum.D.code, "D"), (SModeEnum.Q.code, "Q"),
    (SModeEnum.ESR.code, "ESR"), (SModeEnum.theta.code, "theta")]

def sMode2String (sMode : UInt8) : Except Fault Text :=
  switchText sModeCases ("ERROR: Unexpected byte in SMode: ".toList ++ putInt sMode.toNat) sMode

def sUnitCases : List (UInt8 × String) :=
  [(0x00, ""), (0x01, "Ohm"), (0x02, "kOhm"), (0x03, "MOhm"), (0x0e, "Deg")]

def sUnit2String (sUnit : UInt8) : Except Fault Text :=
  let sunit := sUnit >>> 3
  switchText sUnitCases
    ("ERROR: don't know what to do with sunit=".toList ++ putInt sunit.toNat ++ "\n".toList) sunit

def freqCases : List (UInt8 × String) :=
  [(FreqEnum.hz100.code, "100Hz"), (FreqEnum.hz120.code, "120Hz"), (FreqEnum.khz1.code, "1KHz"),
    (FreqEnum.khz10.code, "10KHz"), (FreqEnum.khz100.code, "100KHz"),
    (FreqEnum.dcrMeasurement.code, "0Hz")]

def freq2String (freq : UInt8) : Except Fault Text :=
  switchText freqCases
    ("ERROR: Unexpected byte in test frequency: ".toList ++ putInt freq.toNat) freq

/-! ### Numbers -/

/-- The loop of `bits2Number` that strips leading zeros up to the dot. -/
def stripLeadingZeros : Text → Text
  | '0' :: c :: s => if c ≠ '.' then stripLeadingZeros (c :: s) else '0' :: c :: s
  | s => s

/-- What `bits2Number` throws when no digit after the dot is left to strip. -/
def nothingToStrip : Fault :=
  .runtimeError "ERROR: don't know what to do inside bits2Number".toList

/-- The loop of `bits2Number` that strips digits from the right until `maxNumSegments` are left; the
second argument is the loop's counter `numActualDigits`. -/
def stripRightmostDigits (maxNumSegments : Nat) : Nat → Text → Except Fault Text
  | 0, s => .ok s
  | numActualDigits + 1, s =>
      if maxNumSegments < numActualDigits + 1 then
        if s.getLast? ≠ some '.' then
          stripRightmostDigits maxNumSegments numActualDigits s.dropLast
        else
          .error nothingToStrip
      else
        .ok s

def bits2Number (msb lsb decimals maxNumSegments : UInt8) : Except Fault Text := do
  let raw := int16 (lsb.toNat + msb.toNat * 256)
  let isNegative := decide (raw < 0)
  let val := if raw < 0 then -raw else raw
  let numDecimals := (decimals &&& 0x07).toNat
  let s := "00000".toList ++ putInt val
  if sizeSub numDecimals 1 < s.length ∧ 0 < numDecimals then
    let dotted ← stringInsert s (sizeSub s.length numDecimals) ".".toList
    let stripped := stripLeadingZeros dotted
    -- the dot does not occupy a segment
    let numActualDigits := stripped.length - 1
    let shown ← stripRightmostDigits maxNumSegments.toNat numActualDigits stripped
    return if isNegative then "-".toList ++ shown else shown
  else
    throw (.runtimeError
      ("ERROR: don't know what to do with numDecimals=".toList ++ putSize numDecimals ++
        ", val=".toList ++ putInt val ++ ", isNegative".toList ++ putBool isNegative))

/-! ### Frames -/

/-- The packed record through which `processFrame` reads the 17 bytes of a frame. -/
structure UT612Struct where
  d0Reserved0 : UInt8
  d1Reserved13 : UInt8
  flagsParallel : UInt8
  frequency : UInt8
  d4Reserved0 : UInt8
  mmode : UInt8
  mvalueMsb : UInt8
  mvalueLsb : UInt8
  mvalueDecimalsAndUnit : UInt8
  mvalueErrorFlags : UInt8
  secondaryMode : UInt8
  secondaryValueMsb : UInt8
  secondaryValueLsb : UInt8
  secondaryValueDecimalsAndUnit : UInt8
  secondaryValueErrorFlags : UInt8
  d15Reserved13 : UInt8
  d16Reserved10 : UInt8
  deriving DecidableEq, Repr

/-- The record at `data[start]`; the bound says that all of its bytes belong to the vector. -/
def UT612Struct.read (data : List UInt8) (start : Nat) (h : start + frameSize ≤ data.length) :
    UT612Struct :=
  let byte (i : Fin frameSize) : UInt8 :=
    data.get ⟨start + i.val, Nat.lt_of_lt_of_le (Nat.add_lt_add_left i.isLt start) h⟩
  { d0Reserved0 := byte 0
    d1Reserved13 := byte 1
    flagsParallel := byte 2
    frequency := byte 3
    d4Reserved0 := byte 4
    mmode := byte 5
    mvalueMsb := byte 6
    mvalueLsb := byte 7
    mvalueDecimalsAndUnit := byte 8
    mvalueErrorFlags := byte 9
    secondaryMode := byte 10
    secondaryValueMsb := byte 11
    secondaryValueLsb := byte 12
    secondaryValueDecimalsAndUnit := byte 13
    secondaryValueErrorFlags := byte 14
    d15Reserved13 := byte 15
    d16Reserved10 := byte 16 }

/-- The primary value of a row: a number, or what its error flags stand for. -/
def mValueText (d : UT612Struct) : Except Fault Text :=
  if d.mvalueErrorFlags = 0 ∨ d.mvalueErrorFlags = 128 then
    bits2Number d.mvalueMsb d.mvalueLsb d.mvalueDecimalsAndUnit 5
  else if d.mvalueErrorFlags = 34 then
    .ok "-".toList
  else if d.mvalueErrorFlags = 195 then
    .ok "OL".toList
  else if d.mvalueErrorFlags = 67 then
    .ok "OL".toList
  else
    .error (.runtimeError ("ERROR: don't know what to do with error modifier d[9]: ".toList ++
      putInt d.mvalueErrorFlags.toNat))

/-- The secondary value of a row. -/
def sValueText (d : UT612Struct) : Except Fault Text :=
  if d.secondaryValueErrorFlags = 0 ∨ d.secondaryValueErrorFlags = 128 then
    bits2Number d.secondaryValueMsb d.secondaryValueLsb d.secondaryValueDecimalsAndUnit 4
  else if d.secondaryValueErrorFlags = 162 then
    .ok "-".toList
  else if d.secondaryValueErrorFlags = 129 then
    .ok "".toList
  else if d.secondaryValueErrorFlags = 195 then
    .ok "OL".toList
  else
    .error (.runtimeError ("ERROR: don't know what to do with d[14]=".toList ++
      putInt d.secondaryValueErrorFlags.toNat))

/-- The row of the frame at `data[nextStart]`: seven fields, a tab after each but the last. -/
def processFrame (data : List UInt8) (nextStart : Nat) (h : nextStart + frameSize ≤ data.length) :
    Except Fault Text :=
  let d := UT612Struct.read data nextStart h
  if d.d0Reserved0 ≠ 0 then
    .error (.runtimeError
      "ERROR: not a zero in first byte (expected 0x0d 0x0a to be followed by 0x00)".toList)
  else do
    let mmode ← mMode2String d.mmode d.flagsParallel
    let mvalue ← mValueText d
    let mUnit ← mUnit2String d.mvalueDecimalsAndUnit
    let sMode ← sMode2String d.secondaryMode
    let svalue ← sValueText d
    let sUnit ← sUnit2String d.secondaryValueDecimalsAndUnit
    let freq ← freq2String d.frequency
    return mmode ++ "\t".toList ++ mvalue ++ "\t".toList ++ mUnit ++ "\t".toList ++
      sMode ++ "\t".toList ++ svalue ++ "\t".toList ++ sUnit ++ "\t".toList ++ freq

end UT612
