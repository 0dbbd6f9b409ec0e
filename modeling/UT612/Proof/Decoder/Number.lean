import UT612.Library.Decimal
import UT612.Model.Decoder

/-!
# What the number formatter returns

`bits2Number` works on the text of a number: it fills it with zeros, inserts a point, strips zeros
on the left and digits on the right. Each of these is a cut of one digit string, so the whole
function has a closed form, `shownNumeral`, and it throws exactly when the decimal count leaves no
place for the point. The rest of the development reads the formatter through these facts only.
-/

namespace UT612

open Decimal

/-! ### The value bytes -/

/-- The signed reading that two value bytes carry. -/
def reading (msb lsb : UInt8) : Int := int16 (lsb.toNat + msb.toNat * 256)

def decimalCount (decimals : UInt8) : Nat := (decimals &&& 0x07).toNat

/-- The decimal counts the formatter has a place for. -/
def Displayable (msb lsb decimals : UInt8) : Prop :=
  1 ≤ decimalCount decimals ∧ decimalCount decimals ≤ 6 ∨
    decimalCount decimals = 7 ∧ 10 ≤ (reading msb lsb).natAbs

instance (msb lsb decimals : UInt8) : Decidable (Displayable msb lsb decimals) :=
  inferInstanceAs (Decidable (_ ∨ _))

theorem natAbs_int16_le (n : Nat) : (int16 n).natAbs ≤ 32768 := by
  have hlower : -((2 ^ 16 : Nat) / 2 : Int) ≤ int16 n := Int.le_bmod (by decide)
  have hupper : int16 n < ((2 ^ 16 : Nat) + 1) / 2 := Int.bmod_lt (by decide)
  omega

theorem natAbs_reading_le (msb lsb : UInt8) : (reading msb lsb).natAbs ≤ 32768 :=
  natAbs_int16_le _

theorem decimalCount_le (decimals : UInt8) : decimalCount decimals ≤ 7 := by
  rw [decimalCount, UInt8.toNat_and]
  exact Nat.and_le_right

theorem putInt_natAbs (n : Int) : putInt (if n < 0 then -n else n) = Nat.toDigits 10 n.natAbs := by
  have habs : (if n < 0 then -n else n) = (n.natAbs : Int) := by
    split <;> omega
  rw [habs, putInt, if_neg (by omega), Int.natAbs_natCast]

/-! ### The digit string -/

/-- The digits of a magnitude, filled with five zeros. -/
def padded (a : Nat) : Text := "00000".toList ++ Nat.toDigits 10 a

theorem padded_eq (a : Nat) : padded a = List.replicate 5 '0' ++ Nat.toDigits 10 a := rfl

theorem isDigits_padded (a : Nat) : IsDigits (padded a) :=
  isDigits_append.mpr ⟨isDigits_replicate_zero 5, isDigits_toDigits a⟩

@[simp] theorem value_padded (a : Nat) : value (padded a) = a := by
  rw [padded_eq, value_replicate_zero_append, value_toDigits]

theorem length_padded (a : Nat) : (padded a).length = 5 + (Nat.toDigits 10 a).length := by
  rw [padded_eq, List.length_append, List.length_replicate]

theorem two_le_length_toDigits {a : Nat} : 2 ≤ (Nat.toDigits 10 a).length ↔ 10 ≤ a := by
  have := Nat.length_toDigits_le_iff (b := 10) (n := a) (k := 1) (by decide) (by decide)
  omega

/-- The point fits into the filled digit string exactly for the displayable decimal counts. -/
theorem displayable_iff (msb lsb decimals : UInt8) :
    Displayable msb lsb decimals ↔ 1 ≤ decimalCount decimals ∧
      decimalCount decimals ≤ (padded (reading msb lsb).natAbs).length := by
  have hpos := Nat.length_toDigits_pos (b := 10) (n := (reading msb lsb).natAbs)
  have htwo := two_le_length_toDigits (a := (reading msb lsb).natAbs)
  have hle := decimalCount_le decimals
  rw [Displayable, length_padded]
  omega

/-! ### The loops -/

theorem stripLeadingZeros_point {whole : Text} (h : IsDigits whole) (fraction : Text) :
    stripLeadingZeros (whole ++ '.' :: fraction) = trimZeros whole ++ '.' :: fraction := by
  induction whole using trimZeros.induct with
  | case1 c s ih =>
      have hc : c ≠ '.' := fun heq => h.not_mem (c := '.') rfl (heq ▸ by simp)
      have htail : IsDigits (c :: s) := fun x hx => h x (List.mem_cons_of_mem _ hx)
      rw [List.cons_append, List.cons_append, stripLeadingZeros, if_pos hc, trimZeros]
      exact ih htail
  | case2 s hs =>
      have hself : trimZeros s = s := by
        rw [trimZeros]
        exact hs
      rw [hself]
      cases s with
      | nil => rfl
      | cons c s =>
          cases s with
          | nil =>
              by_cases hc : c = '0'
              · subst hc
                rfl
              · rw [List.singleton_append, stripLeadingZeros]
                simpa using fun heq => absurd heq hc
          | cons c' s =>
              have hc : c ≠ '0' := fun heq => hs c' s (by rw [heq])
              rw [List.cons_append, List.cons_append, stripLeadingZeros]
              simpa using fun heq => absurd heq hc

/-- The loop from the right keeps the digits before the point and as many of those after it as there
are segments left. -/
theorem stripRightmostDigits_point {whole fraction : Text} (h : IsDigits fraction) {segments : Nat}
    (hwhole : whole.length ≤ segments) :
    stripRightmostDigits segments (whole.length + fraction.length) (whole ++ '.' :: fraction) =
      .ok (whole ++ '.' :: fraction.take (segments - whole.length)) := by
  induction fraction using List.reverseRecOn with
  | nil =>
      rw [List.length_nil, Nat.add_zero, List.take_nil]
      cases hlength : whole.length with
      | zero => rfl
      | succ n => rw [stripRightmostDigits, if_neg (by omega)]
  | append_singleton fraction c ih =>
      obtain ⟨hfraction, hc⟩ := isDigits_append.mp h
      have hlast : c ≠ '.' := fun heq => hc.not_mem (c := '.') rfl (heq ▸ List.mem_singleton_self _)
      rw [List.length_append, List.length_singleton, ← Nat.add_assoc, stripRightmostDigits]
      by_cases hfull : segments < whole.length + fraction.length + 1
      · have hshape : whole ++ '.' :: (fraction ++ [c]) = (whole ++ '.' :: fraction) ++ [c] := by simp
        have hpoint : ((whole ++ '.' :: fraction) ++ [c]).getLast? ≠ some '.' := by
          rw [List.getLast?_concat]
          simpa using hlast
        rw [if_pos hfull, hshape, if_pos hpoint, List.dropLast_concat, ih hfraction,
          List.take_append_of_le_length (by omega)]
      · rw [if_neg hfull, List.take_of_length_le (by simp; omega)]

/-! ### The closed form -/

/-- What the formatter shows of a magnitude `a` with `n` decimals on a display of `segments`
digits. -/
def shownNumeral (negative : Bool) (a n segments : Nat) : Numeral :=
  let whole := trimZeros ((padded a).take ((padded a).length - n))
  { negative
    whole
    fraction := ((padded a).drop ((padded a).length - n)).take (segments - whole.length) }

section Shown

variable (negative : Bool) (a n segments : Nat)

theorem whole_shownNumeral_of_lt (h : n < (padded a).length) :
    (shownNumeral negative a n segments).whole = Nat.toDigits 10 (a / 10 ^ n) := by
  have hne : (padded a).take ((padded a).length - n) ≠ [] := by
    rw [← List.length_pos_iff, List.length_take]
    omega
  rw [shownNumeral, trimZeros_eq_toDigits ((isDigits_padded a).take _) hne,
    value_take (isDigits_padded a), value_padded, Nat.sub_sub_self h.le]

theorem whole_shownNumeral_of_eq (h : n = (padded a).length) :
    (shownNumeral negative a n segments).whole = [] := by
  rw [shownNumeral, h, Nat.sub_self, List.take_zero]
  rfl

theorem length_whole_shownNumeral_le (ha : a ≤ 32768) (hpos : 1 ≤ n)
    (hle : n ≤ (padded a).length) : (shownNumeral negative a n segments).whole.length ≤ 4 := by
  rcases hle.lt_or_eq with hlt | heq
  · rw [whole_shownNumeral_of_lt negative a n segments hlt,
      Nat.length_toDigits_le_iff (by decide) (by decide), Nat.div_lt_iff_lt_mul (by positivity)]
    have : 10 ^ 1 ≤ 10 ^ n := Nat.pow_le_pow_right (by decide) hpos
    omega
  · rw [whole_shownNumeral_of_eq negative a n segments heq]
    exact Nat.zero_le 4

theorem length_fraction_shownNumeral (hle : n ≤ (padded a).length) :
    (shownNumeral negative a n segments).fraction.length =
      min (segments - (shownNumeral negative a n segments).whole.length) n := by
  simp only [shownNumeral, List.length_take, List.length_drop]
  omega

theorem isDecimal_shownNumeral : (shownNumeral negative a n segments).IsDecimal := by
  have hdigits := isDigits_padded a
  refine isDigits_append.mpr ⟨?_, (hdigits.drop _).take _⟩
  by_cases hnil : (padded a).take ((padded a).length - n) = []
  · simp only [shownNumeral, hnil]
    exact fun c hc => absurd hc List.not_mem_nil
  · simp only [shownNumeral, trimZeros_eq_toDigits (hdigits.take _) hnil]
    exact isDigits_toDigits _

/-- The digits shown are the digits of the magnitude less the decimals that are not shown. -/
theorem value_shownNumeral (hle : n ≤ (padded a).length) :
    value ((shownNumeral negative a n segments).whole ++
        (shownNumeral negative a n segments).fraction) =
      a / 10 ^ (n - (shownNumeral negative a n segments).fraction.length) := by
  have hlength := length_fraction_shownNumeral negative a n segments hle
  set k := (shownNumeral negative a n segments).fraction.length
  have hk : k ≤ n := by omega
  have hfraction : (shownNumeral negative a n segments).fraction =
      ((padded a).drop ((padded a).length - n)).take k := by
    rw [hlength]
    simp only [shownNumeral, List.take_eq_take_iff, List.length_drop]
    omega
  have hcut : (padded a).take ((padded a).length - n) ++
      ((padded a).drop ((padded a).length - n)).take k =
        (padded a).take ((padded a).length - (n - k)) := by
    rw [← List.take_add]
    congr 1
    omega
  calc value ((shownNumeral negative a n segments).whole ++
        (shownNumeral negative a n segments).fraction)
      = value ((padded a).take ((padded a).length - n) ++
          ((padded a).drop ((padded a).length - n)).take k) := by
        rw [hfraction, value_append, value_append, shownNumeral, value_trimZeros]
    _ = a / 10 ^ (n - k) := by
        rw [hcut, value_take (isDigits_padded a), value_padded, Nat.sub_sub_self (by omega)]

end Shown

/-! ### The formatter -/

/-- The number a call of the formatter shows. -/
def bits2Numeral (msb lsb decimals : UInt8) (segments : Nat) : Numeral :=
  shownNumeral (decide (reading msb lsb < 0)) (reading msb lsb).natAbs (decimalCount decimals) segments

/-- What the formatter throws when there is no place for the point. -/
def noPlaceForPoint (negative : Bool) (a n : Nat) : Text :=
  "ERROR: don't know what to do with numDecimals=".toList ++ putSize n ++ ", val=".toList ++
    Nat.toDigits 10 a ++ ", isNegative".toList ++ putBool negative

/-- The formatter once the magnitude has been filled with zeros. -/
def formatPadded (negative : Bool) (a n segments : Nat) : Except Fault Text :=
  if sizeSub n 1 < (padded a).length ∧ 0 < n then do
    let dotted ← stringInsert (padded a) (sizeSub (padded a).length n) ".".toList
    let stripped := stripLeadingZeros dotted
    let shown ← stripRightmostDigits segments (stripped.length - 1) stripped
    return if negative then "-".toList ++ shown else shown
  else
    throw (.runtimeError (noPlaceForPoint negative a n))

theorem bits2Number_eq_formatPadded (msb lsb decimals segments : UInt8) :
    bits2Number msb lsb decimals segments =
      formatPadded (decide (reading msb lsb < 0)) (reading msb lsb).natAbs (decimalCount decimals)
        segments.toNat := by
  simp only [bits2Number, putInt_natAbs]
  rfl

theorem formatPadded_eq_ok (negative : Bool) {a n segments : Nat} (hsegments : 4 ≤ segments)
    (ha : a ≤ 32768) (hpos : 1 ≤ n) (hle : n ≤ (padded a).length) :
    formatPadded negative a n segments = .ok (shownNumeral negative a n segments).text := by
  have hguard : sizeSub n 1 < (padded a).length ∧ 0 < n := by
    rw [sizeSub_of_le hpos]
    omega
  have hinsert : stringInsert (padded a) (sizeSub (padded a).length n) ".".toList =
      .ok ((padded a).take ((padded a).length - n) ++
        '.' :: (padded a).drop ((padded a).length - n)) := by
    rw [sizeSub_of_le hle, stringInsert, if_pos (Nat.sub_le _ _), List.append_assoc]
    rfl
  have hdigits := isDigits_padded a
  have hwhole := (length_whole_shownNumeral_le negative a n segments ha hpos hle).trans hsegments
  have hshown := stripRightmostDigits_point (hdigits.drop ((padded a).length - n)) hwhole
  have hcount : ((shownNumeral negative a n segments).whole ++
      '.' :: (padded a).drop ((padded a).length - n)).length - 1 =
      (shownNumeral negative a n segments).whole.length +
        ((padded a).drop ((padded a).length - n)).length := by
    rw [List.length_append, List.length_cons]
    omega
  rw [← hcount] at hshown
  simp only [formatPadded, if_pos hguard, hinsert, bind, Except.bind]
  rw [stripLeadingZeros_point (hdigits.take _)]
  simp only [shownNumeral] at hshown
  simp only [hshown]
  cases negative <;> rfl

theorem bits2Number_eq_ok {msb lsb decimals segments : UInt8} (hsegments : 4 ≤ segments.toNat)
    (h : Displayable msb lsb decimals) :
    bits2Number msb lsb decimals segments =
      .ok (bits2Numeral msb lsb decimals segments.toNat).text := by
  obtain ⟨hpos, hle⟩ := (displayable_iff msb lsb decimals).mp h
  rw [bits2Number_eq_formatPadded]
  exact formatPadded_eq_ok _ hsegments (natAbs_reading_le msb lsb) hpos hle

theorem bits2Number_eq_error {msb lsb decimals : UInt8} (segments : UInt8)
    (h : ¬ Displayable msb lsb decimals) :
    bits2Number msb lsb decimals segments =
      .error (.runtimeError (noPlaceForPoint (decide (reading msb lsb < 0))
        (reading msb lsb).natAbs (decimalCount decimals))) := by
  rw [displayable_iff] at h
  have hguard : ¬ (sizeSub (decimalCount decimals) 1 < (padded (reading msb lsb).natAbs).length ∧
      0 < decimalCount decimals) := by
    rintro ⟨hlt, hpos⟩
    rw [sizeSub_of_le hpos] at hlt
    omega
  rw [bits2Number_eq_formatPadded, formatPadded, if_neg hguard]
  rfl

theorem noPlaceForPoint_ne_nothingToStrip (negative : Bool) (a n : Nat) :
    Fault.runtimeError (noPlaceForPoint negative a n) ≠ nothingToStrip := by
  have hdiffer (rest : Text) :
      Fault.runtimeError ("ERROR: don't know what to do with numDecimals=".toList ++ rest) ≠
        nothingToStrip := by
    simp [nothingToStrip]
  have htext : noPlaceForPoint negative a n =
      "ERROR: don't know what to do with numDecimals=".toList ++ putSize n ++ ", val=".toList ++
        Nat.toDigits 10 a ++ ", isNegative".toList ++ putBool negative := rfl
  simp only [htext, List.append_assoc]
  exact hdiffer _

end UT612
