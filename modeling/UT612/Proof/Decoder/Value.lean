import UT612.Proof.Decoder.Fields

/-!
# What the printed numbers mean

The two value columns of a row, read back as numbers. A reading of `v` with `n` decimals is printed
with the sign of `v` and with as many of its decimals as the display has digits for; the others are
dropped, which rounds toward zero. How many are dropped grows with the magnitude, and still a larger
reading never shows a smaller number.
-/

namespace UT612

open Decimal

/-- The two displays of the meter. -/
inductive Display where
  | primary | secondary
  deriving DecidableEq, Repr

namespace Display

def segments : Display → UInt8
  | .primary => 5
  | .secondary => 4

/-- The place of the display's value among the fields of a row. -/
def column : Display → Nat
  | .primary => 1
  | .secondary => 4

def flags (disp : Display) (w : Window) : UInt8 :=
  match disp with
  | .primary => w[9]
  | .secondary => w[14]

def decimals (disp : Display) (w : Window) : UInt8 :=
  match disp with
  | .primary => w[8]
  | .secondary => w[13]

/-- The signed reading in the display's value bytes. -/
def value (disp : Display) (w : Window) : Int :=
  match disp with
  | .primary => reading w[6] w[7]
  | .secondary => reading w[11] w[12]

/-- The display's value as a row prints it. -/
def text? (disp : Display) (values : Text) : Option Text := (values.splitOn '\t')[disp.column]?

/-- The number the display's value field is printed from. -/
def numeral (disp : Display) (w : Window) : Numeral :=
  shownNumeral (decide (disp.value w < 0)) (disp.value w).natAbs (decimalCount (disp.decimals w))
    disp.segments.toNat

theorem four_le_segments (disp : Display) : 4 ≤ disp.segments.toNat := by
  cases disp <;> decide

theorem segments_le_five (disp : Display) : disp.segments.toNat ≤ 5 := by
  cases disp <;> decide

theorem natAbs_value_le (disp : Display) (w : Window) : (disp.value w).natAbs ≤ 32768 := by
  cases disp
  · exact natAbs_reading_le _ _
  · exact natAbs_reading_le _ _

/-- A decimal count with a place for the point among the digits of a magnitude. -/
def Fits (a n : Nat) : Prop := 1 ≤ n ∧ n ≤ (padded a).length

/-- **An accepted frame that announces a number prints it**, and the number has a place for its
point. -/
theorem text?_row (disp : Display) {w : Window} {values : Text} (h : w.row = .ok values)
    (hflags : disp.flags w = 0 ∨ disp.flags w = 128) :
    Fits (disp.value w).natAbs (decimalCount (disp.decimals w)) ∧
      disp.text? values = some (disp.numeral w).text := by
  have hgrammar := w.row_isOk_iff.mp ⟨values, h⟩
  obtain ⟨-, r, hr, rfl⟩ := (w.row_eq_ok_iff values).mp h
  rw [text?, hr.splitOn_text]
  cases disp with
  | primary =>
      have hdisplayable := hgrammar.mvalue hflags
      have hvalue := (mValueText_eq w.record).symm.trans hr.mvalue
      have hnumber := (valueText_of_number hflags).symm.trans hvalue
      have htext := hnumber.symm.trans (bits2Number_eq_ok (by decide) hdisplayable)
      exact ⟨(displayable_iff _ _ _).mp hdisplayable, congrArg some (Except.ok.inj htext)⟩
  | secondary =>
      have hdisplayable := hgrammar.svalue hflags
      have hvalue := (sValueText_eq w.record).symm.trans hr.svalue
      have hnumber := (valueText_of_number hflags).symm.trans hvalue
      have htext := hnumber.symm.trans (bits2Number_eq_ok (by decide) hdisplayable)
      exact ⟨(displayable_iff _ _ _).mp hdisplayable, congrArg some (Except.ok.inj htext)⟩

end Display

/-! ### Truncation -/

section Shown

variable {negative : Bool} {a n segments : Nat}

theorem magnitude_shownNumeral (h : n ≤ (padded a).length) :
    (shownNumeral negative a n segments).magnitude =
      ((a / 10 ^ (n - (shownNumeral negative a n segments).fraction.length) : Nat) : ℚ) /
        10 ^ (shownNumeral negative a n segments).fraction.length := by
  rw [Numeral.magnitude_eq, value_shownNumeral negative a n segments h]

/-- Dropping decimals is rounding toward zero at the decimals that are left. -/
theorem floor_shift (a : Nat) {k n : Nat} (h : k ≤ n) :
    ((a / 10 ^ (n - k) : Nat) : ℚ) = ⌊(a : ℚ) * 10 ^ k / 10 ^ n⌋ := by
  have hsplit : (10 : ℚ) ^ n = 10 ^ k * 10 ^ (n - k) := by
    rw [← pow_add, Nat.add_sub_cancel' h]
  have hquotient : (a : ℚ) * 10 ^ k / 10 ^ n = (a : ℚ) / ((10 ^ (n - k) : Nat) : ℚ) := by
    rw [hsplit]
    push_cast
    field_simp
  rw [hquotient, Rat.floor_natCast_div_natCast]
  norm_cast

/-- The digits before the point count the magnitude without its decimals. -/
theorem div_lt_of_whole (hle : n ≤ (padded a).length) :
    a / 10 ^ n < 10 ^ (shownNumeral negative a n segments).whole.length := by
  rcases hle.lt_or_eq with hlt | heq
  · rw [whole_shownNumeral_of_lt negative a n segments hlt]
    exact (Nat.length_toDigits_le_iff (by decide) Nat.length_toDigits_pos).mp le_rfl
  · rw [whole_shownNumeral_of_eq negative a n segments heq, List.length_nil, pow_zero,
      Nat.lt_one_iff, Nat.div_eq_zero_iff]
    right
    have hdigits := value_lt (isDigits_padded a)
    rwa [value_padded, ← heq] at hdigits

/-- A digit before the first one of the integer part costs a factor of ten. -/
theorem le_div_of_whole (hpos : 2 ≤ (shownNumeral negative a n segments).whole.length)
    (hle : n ≤ (padded a).length) :
    10 ^ ((shownNumeral negative a n segments).whole.length - 1) ≤ a / 10 ^ n := by
  rcases hle.lt_or_eq with hlt | heq
  · rw [whole_shownNumeral_of_lt negative a n segments hlt] at hpos ⊢
    by_contra hsmall
    have := (Nat.length_toDigits_le_iff (b := 10) (by decide) (by omega)).mpr (not_le.mp hsmall)
    omega
  · rw [whole_shownNumeral_of_eq negative a n segments heq] at hpos
    exact absurd hpos (by simp)

theorem magnitude_shownNumeral_le (h : n ≤ (padded a).length) :
    (shownNumeral negative a n segments).magnitude ≤ (a : ℚ) / 10 ^ n := by
  have hk : (shownNumeral negative a n segments).fraction.length ≤ n := by
    rw [length_fraction_shownNumeral negative a n segments h]
    exact min_le_right _ _
  rw [magnitude_shownNumeral h, floor_shift a hk, div_le_iff₀ (by positivity)]
  calc (⌊(a : ℚ) * 10 ^ (shownNumeral negative a n segments).fraction.length / 10 ^ n⌋ : ℚ)
      ≤ (a : ℚ) * 10 ^ (shownNumeral negative a n segments).fraction.length / 10 ^ n :=
        Int.floor_le _
    _ = (a : ℚ) / 10 ^ n * 10 ^ (shownNumeral negative a n segments).fraction.length := by ring

theorem div_le_magnitude_shownNumeral (h : n ≤ (padded a).length) :
    ((a / 10 ^ n : Nat) : ℚ) ≤ (shownNumeral negative a n segments).magnitude := by
  have hk : (shownNumeral negative a n segments).fraction.length ≤ n := by
    rw [length_fraction_shownNumeral negative a n segments h]
    exact min_le_right _ _
  rw [magnitude_shownNumeral h, le_div_iff₀ (by positivity)]
  generalize (shownNumeral negative a n segments).fraction.length = k at hk
  have hnat : a / 10 ^ n * 10 ^ k ≤ a / 10 ^ (n - k) := by
    rw [Nat.le_div_iff_mul_le (by positivity), mul_assoc, ← pow_add, Nat.add_sub_cancel' hk]
    exact Nat.div_mul_le_self a (10 ^ n)
  exact_mod_cast hnat

/-- A number whose digits leave no place for an integer part shows only zeros. -/
theorem magnitude_shownNumeral_of_eq (h : n = (padded a).length) (hsegments : segments ≤ 5) :
    (shownNumeral negative a n segments).magnitude = 0 := by
  have hfraction := length_fraction_shownNumeral negative a n segments h.le
  have hdigits := value_lt (isDigits_toDigits a)
  rw [whole_shownNumeral_of_eq negative a n segments h, List.length_nil] at hfraction
  rw [value_toDigits] at hdigits
  rw [length_padded] at h
  rw [magnitude_shownNumeral (by rw [length_padded]; omega)]
  have hzero : a / 10 ^ (n - (shownNumeral negative a n segments).fraction.length) = 0 := by
    rw [Nat.div_eq_zero_iff]
    right
    exact hdigits.trans_le (Nat.pow_le_pow_right (by decide) (by omega))
  rw [hzero, Nat.cast_zero, zero_div]

end Shown

theorem length_padded_mono {a b : Nat} (h : a ≤ b) : (padded a).length ≤ (padded b).length := by
  have hb : b < 10 ^ (Nat.toDigits 10 b).length :=
    (Nat.length_toDigits_le_iff (by decide) Nat.length_toDigits_pos).mp le_rfl
  have ha := (Nat.length_toDigits_le_iff (by decide) Nat.length_toDigits_pos).mpr (h.trans_lt hb)
  rw [length_padded, length_padded]
  omega

/-- **A larger magnitude never shows a smaller number**, although it may show fewer of its
decimals. -/
theorem magnitude_shownNumeral_mono {negative negative' : Bool} {a b n segments : Nat}
    (hab : a ≤ b) (ha : n ≤ (padded a).length) (hsegments : segments ≤ 5) :
    (shownNumeral negative a n segments).magnitude ≤
      (shownNumeral negative' b n segments).magnitude := by
  have hb := ha.trans (length_padded_mono hab)
  rcases ha.eq_or_lt with heq | hlt
  · rw [magnitude_shownNumeral_of_eq heq hsegments]
    exact Numeral.magnitude_nonneg
  have hquotient : a / 10 ^ n ≤ b / 10 ^ n := Nat.div_le_div_right hab
  have hwa : a / 10 ^ n < 10 ^ (shownNumeral negative a n segments).whole.length :=
    div_lt_of_whole ha
  have hwb : b / 10 ^ n < 10 ^ (shownNumeral negative' b n segments).whole.length :=
    div_lt_of_whole hb
  have hposa : 0 < (shownNumeral negative a n segments).whole.length := by
    rw [whole_shownNumeral_of_lt negative a n segments hlt]
    exact Nat.length_toDigits_pos
  have hposb : 0 < (shownNumeral negative' b n segments).whole.length := by
    rw [whole_shownNumeral_of_lt negative' b n segments (hlt.trans_le (length_padded_mono hab))]
    exact Nat.length_toDigits_pos
  rcases lt_trichotomy (shownNumeral negative a n segments).whole.length
    (shownNumeral negative' b n segments).whole.length with hless | hsame | hmore
  · -- the larger number has a digit more before its point
    have hbig : 10 ^ ((shownNumeral negative' b n segments).whole.length - 1) ≤ b / 10 ^ n :=
      le_div_of_whole (by omega) hb
    have hgap : a / 10 ^ n < b / 10 ^ n :=
      (hwa.trans_le (Nat.pow_le_pow_right (by decide) (by omega))).trans_le hbig
    rw [Nat.div_lt_iff_lt_mul (by positivity)] at hgap
    have hgap' : (a : ℚ) / 10 ^ n < ((b / 10 ^ n : Nat) : ℚ) := by
      rw [div_lt_iff₀ (by positivity)]
      exact_mod_cast hgap
    exact (magnitude_shownNumeral_le ha).trans
      (hgap'.le.trans (div_le_magnitude_shownNumeral hb))
  · have hfraction : (shownNumeral negative a n segments).fraction.length =
        (shownNumeral negative' b n segments).fraction.length := by
      rw [length_fraction_shownNumeral negative a n segments ha,
        length_fraction_shownNumeral negative' b n segments hb, hsame]
    rw [magnitude_shownNumeral ha, magnitude_shownNumeral hb, hfraction]
    gcongr
  · have hbig : 10 ^ ((shownNumeral negative a n segments).whole.length - 1) ≤ a / 10 ^ n :=
      le_div_of_whole (by omega) ha
    have hsmall : 10 ^ (shownNumeral negative' b n segments).whole.length ≤
        10 ^ ((shownNumeral negative a n segments).whole.length - 1) :=
      Nat.pow_le_pow_right (by decide) (by omega)
    omega

theorem toRat_shownNumeral_mono {v v' : Int} {n segments : Nat} (h : v ≤ v')
    (hv : n ≤ (padded v.natAbs).length) (hv' : n ≤ (padded v'.natAbs).length)
    (hsegments : segments ≤ 5) :
    (shownNumeral (decide (v < 0)) v.natAbs n segments).toRat ≤
      (shownNumeral (decide (v' < 0)) v'.natAbs n segments).toRat := by
  by_cases hneg : v < 0
  · by_cases hneg' : v' < 0
    · have hmono : (shownNumeral (decide (v' < 0)) v'.natAbs n segments).magnitude ≤
          (shownNumeral (decide (v < 0)) v.natAbs n segments).magnitude :=
        magnitude_shownNumeral_mono (by omega) hv' hsegments
      have hsign : (shownNumeral (decide (v < 0)) v.natAbs n segments).negative = true :=
        decide_eq_true hneg
      have hsign' : (shownNumeral (decide (v' < 0)) v'.natAbs n segments).negative = true :=
        decide_eq_true hneg'
      rw [Numeral.toRat, Numeral.toRat, if_pos hsign, if_pos hsign']
      exact neg_le_neg hmono
    · have hsign : (shownNumeral (decide (v < 0)) v.natAbs n segments).negative = true :=
        decide_eq_true hneg
      have hsign' : ¬ (shownNumeral (decide (v' < 0)) v'.natAbs n segments).negative = true := by
        simpa [shownNumeral] using hneg'
      rw [Numeral.toRat, Numeral.toRat, if_pos hsign, if_neg hsign']
      exact (neg_nonpos.mpr Numeral.magnitude_nonneg).trans Numeral.magnitude_nonneg
  · have hsign : ¬ (shownNumeral (decide (v < 0)) v.natAbs n segments).negative = true := by
      simpa [shownNumeral] using hneg
    have hsign' : ¬ (shownNumeral (decide (v' < 0)) v'.natAbs n segments).negative = true := by
      simp only [shownNumeral, decide_eq_true_eq]
      omega
    rw [Numeral.toRat, Numeral.toRat, if_neg hsign, if_neg hsign']
    exact magnitude_shownNumeral_mono (by omega) hv hsegments

/-! ### The value columns -/

/-- What a text shows of the reading `v` with `n` decimals on a display of `segments` digits. -/
structure ShowsReading (text : Text) (v : Int) (n segments : Nat) : Prop where
  sign : text.head? = some '-' ↔ v < 0
  point : text.count '.' = 1
  decimal : (Numeral.read text).IsDecimal ∧ (Numeral.read text).text = text
  truncated : (Numeral.read text).magnitude =
    ⌊(v.natAbs : ℚ) * 10 ^ (Numeral.read text).fraction.length / 10 ^ n⌋ /
      10 ^ (Numeral.read text).fraction.length
  fits : (Numeral.read text).digitCount ≤ segments
  precise : (Numeral.read text).fraction.length = n ∨ (Numeral.read text).digitCount = segments

theorem showsReading_shownNumeral {v : Int} {n segments : Nat} (hv : v.natAbs ≤ 32768)
    (hfits : Display.Fits v.natAbs n) (hsegments : 4 ≤ segments) :
    ShowsReading (shownNumeral (decide (v < 0)) v.natAbs n segments).text v n segments := by
  have hdecimal := isDecimal_shownNumeral (decide (v < 0)) v.natAbs n segments
  have hwhole := length_whole_shownNumeral_le (decide (v < 0)) v.natAbs n segments hv hfits.1 hfits.2
  have hfraction := length_fraction_shownNumeral (decide (v < 0)) v.natAbs n segments hfits.2
  have hread := Numeral.read_text hdecimal
  refine ⟨?_, Numeral.count_point_text hdecimal, ?_, ?_, ?_, ?_⟩
  · rw [Numeral.head?_text hdecimal]
    exact decide_eq_true_iff
  · rw [hread]
    exact ⟨hdecimal, rfl⟩
  · rw [hread, magnitude_shownNumeral hfits.2, floor_shift _ (by omega)]
  · rw [hread, Numeral.digitCount]
    omega
  · rw [hread, Numeral.digitCount]
    omega

/-- **Every printed number is the truncated reading.** It has the sign of the reading, rounds it
toward zero at the last digit that is shown, shows all decimals unless the display is full, and
grows with the reading when the decimals byte stays the same. -/
theorem printed_value_truncates (disp : Display) (d : Window) (values : Text)
    (hrow : d.row = .ok values) (hflags : disp.flags d = 0 ∨ disp.flags d = 128) :
    ∃ text, disp.text? values = some text ∧
      ShowsReading text (disp.value d) (decimalCount (disp.decimals d)) disp.segments.toNat ∧
      ∀ (e : Window) (values' : Text), e.row = .ok values' →
        disp.flags e = 0 ∨ disp.flags e = 128 → disp.decimals e = disp.decimals d →
        disp.value d ≤ disp.value e → ∃ text', disp.text? values' = some text' ∧
          (Numeral.read text).toRat ≤ (Numeral.read text').toRat := by
  obtain ⟨hfits, htext⟩ := disp.text?_row hrow hflags
  refine ⟨_, htext, ?_, ?_⟩
  · exact showsReading_shownNumeral (disp.natAbs_value_le d) hfits disp.four_le_segments
  · intro e values' hrow' hflags' hdecimals hle
    obtain ⟨hfits', htext'⟩ := disp.text?_row hrow' hflags'
    refine ⟨_, htext', ?_⟩
    rw [hdecimals] at hfits'
    rw [Display.numeral, Display.numeral, hdecimals,
      Numeral.read_text (isDecimal_shownNumeral _ _ _ _),
      Numeral.read_text (isDecimal_shownNumeral _ _ _ _)]
    exact toRat_shownNumeral_mono hle hfits.2 hfits'.2 disp.segments_le_five

theorem printed_value_truncates_phase :
    ∃ text, Display.secondary.text? "Rs\t0.5002\tkOhm\ttheta\t-0.1\tDeg\t100KHz".toList = some text ∧
      ShowsReading text (Display.secondary.value phaseFrame)
        (decimalCount (Display.secondary.decimals phaseFrame)) Display.secondary.segments.toNat ∧
      ∀ (e : Window) (values' : Text), e.row = .ok values' →
        Display.secondary.flags e = 0 ∨ Display.secondary.flags e = 128 →
        Display.secondary.decimals e = Display.secondary.decimals phaseFrame →
        Display.secondary.value phaseFrame ≤ Display.secondary.value e →
        ∃ text', Display.secondary.text? values' = some text' ∧
          (Numeral.read text).toRat ≤ (Numeral.read text').toRat :=
  printed_value_truncates .secondary phaseFrame _ (by decide +kernel) (by decide)

/-! ### Digits on both sides of the point

The five zeros the formatter fills in do not always leave one before the point, and the secondary
display can be full before a digit after the point is reached. Outside these readings the printed
numbers are canonical. -/

namespace Display

/-- The readings whose text has a digit on both sides of the point. -/
def KeepsDigits (disp : Display) (v : Int) (n : Nat) : Prop :=
  ¬ (n = 6 ∧ v.natAbs < 10) ∧ ¬ (n = 7 ∧ v.natAbs < 100) ∧
    ¬ (disp = .secondary ∧ n = 1 ∧ 10000 ≤ v.natAbs)

instance (disp : Display) (v : Int) (n : Nat) : Decidable (disp.KeepsDigits v n) :=
  inferInstanceAs (Decidable (_ ∧ _))

/-- The point comes first exactly when the filled digits are all decimals. -/
theorem fits_lt_iff {a n : Nat} (hfits : Fits a n) (hn : n ≤ 7) :
    n < (padded a).length ↔ ¬ (n = 6 ∧ a < 10) ∧ ¬ (n = 7 ∧ a < 100) := by
  have hpos := Nat.length_toDigits_pos (b := 10) (n := a)
  have htwo := two_le_length_toDigits (a := a)
  have hthree := Nat.length_toDigits_le_iff (b := 10) (n := a) (k := 2) (by decide) (by decide)
  have hle := hfits.2
  rw [length_padded] at hle ⊢
  omega

/-- The display is full before the point exactly at five digits with one decimal on the secondary
display. -/
theorem whole_lt_segments_iff (disp : Display) (negative : Bool) {a n : Nat} (ha : a ≤ 32768)
    (hfits : Fits a n) (hlt : n < (padded a).length) :
    (shownNumeral negative a n disp.segments.toNat).whole.length < disp.segments.toNat ↔
      ¬ (disp = .secondary ∧ n = 1 ∧ 10000 ≤ a) := by
  have hwhole := length_whole_shownNumeral_le negative a n disp.segments.toNat ha hfits.1 hfits.2
  cases disp with
  | primary =>
      have hfive : Display.primary.segments.toNat = 5 := rfl
      have hne : ¬ (Display.primary = .secondary ∧ n = 1 ∧ 10000 ≤ a) := by simp
      simp only [hne, not_false_eq_true, iff_true]
      omega
  | secondary =>
      have hfour : Display.secondary.segments.toNat = 4 := rfl
      have hlength := Nat.length_toDigits_le_iff (b := 10) (n := a / 10 ^ n) (k := 3) (by decide)
        (by decide)
      rw [whole_shownNumeral_of_lt negative a n _ hlt, hfour, Nat.lt_succ_iff, hlength,
        Nat.div_lt_iff_lt_mul (by positivity)]
      simp only [true_and, not_and, not_le]
      rcases hfits.1.eq_or_lt with rfl | htwo
      · omega
      · have : 10 ^ 2 ≤ 10 ^ n := Nat.pow_le_pow_right (by decide) htwo
        omega

theorem isCanonical_numeral_iff (disp : Display) (w : Window)
    (hfits : Fits (disp.value w).natAbs (decimalCount (disp.decimals w))) :
    IsCanonical (disp.numeral w).text ↔
      disp.KeepsDigits (disp.value w) (decimalCount (disp.decimals w)) := by
  have hdecimal := isDecimal_shownNumeral (decide (disp.value w < 0)) (disp.value w).natAbs
    (decimalCount (disp.decimals w)) disp.segments.toNat
  have hfraction := length_fraction_shownNumeral (decide (disp.value w < 0)) (disp.value w).natAbs
    (decimalCount (disp.decimals w)) disp.segments.toNat hfits.2
  have hlt := fits_lt_iff hfits (decimalCount_le _)
  rw [numeral, Numeral.isCanonical_text hdecimal, KeepsDigits, ← and_assoc, ← hlt]
  by_cases hpoint : decimalCount (disp.decimals w) < (padded (disp.value w).natAbs).length
  · have hwhole : IsWhole (shownNumeral (decide (disp.value w < 0)) (disp.value w).natAbs
        (decimalCount (disp.decimals w)) disp.segments.toNat).whole := by
      rw [whole_shownNumeral_of_lt _ _ _ _ hpoint]
      exact isWhole_toDigits _
    have hfull := disp.whole_lt_segments_iff (decide (disp.value w < 0)) (disp.natAbs_value_le w)
      hfits hpoint
    have hpos := hfits.1
    rw [← hfull, ← List.length_pos_iff]
    simp only [hwhole, hpoint, true_and]
    omega
  · have hwhole : ¬ IsWhole (shownNumeral (decide (disp.value w < 0)) (disp.value w).natAbs
        (decimalCount (disp.decimals w)) disp.segments.toNat).whole := by
      rw [whole_shownNumeral_of_eq _ _ _ _ (by have := hfits.2; omega)]
      exact fun h => h.ne_nil rfl
    simp only [hwhole, hpoint, false_and]

end Display

/-- **When a printed number is canonical.** An accepted frame prints digits on both sides of the
point, and no superfluous zero, exactly when its reading is one that keeps them. -/
theorem printed_value_canonical_iff (disp : Display) (d : Window) (values : Text)
    (hrow : d.row = .ok values) (hflags : disp.flags d = 0 ∨ disp.flags d = 128) :
    (∃ text, disp.text? values = some text ∧ IsCanonical text) ↔
      disp.KeepsDigits (disp.value d) (decimalCount (disp.decimals d)) := by
  obtain ⟨hfits, htext⟩ := disp.text?_row hrow hflags
  rw [← disp.isCanonical_numeral_iff d hfits, htext]
  simp only [Option.some.injEq, exists_eq_left']

theorem printed_value_canonical_iff_phase :
    (∃ text, Display.secondary.text? "Rs\t0.5002\tkOhm\ttheta\t-0.1\tDeg\t100KHz".toList = some text ∧
      IsCanonical text) ↔ Display.secondary.KeepsDigits (Display.secondary.value phaseFrame)
        (decimalCount (Display.secondary.decimals phaseFrame)) :=
  printed_value_canonical_iff .secondary phaseFrame _ (by decide +kernel) (by decide)

/-- A resistance frame with the reading 5 and six decimals, which is printed as `.00000`. -/
def pointFirstFrame : Window :=
  ⟨[0x00, 0x0d, 0x60, 0x58, 0x00, 0x03, 0x00, 0x05, 0x16, 0x00, 0x04, 0x00, 0x00, 0x71, 0x80,
    0x0d, 0x0a], rfl⟩

/-- Not every printed number has a digit before its point. -/
theorem exists_not_canonical :
    ¬ ∀ (disp : Display) (d : Window) (values : Text), d.row = .ok values →
      disp.flags d = 0 ∨ disp.flags d = 128 →
      ∃ text, disp.text? values = some text ∧ IsCanonical text := by
  intro h
  have hrow : pointFirstFrame.row = .ok "Rs\t.00000\tkOhm\ttheta\t0.0\tDeg\t1KHz".toList := by
    decide +kernel
  have hflags : Display.primary.flags pointFirstFrame = 0 ∨
      Display.primary.flags pointFirstFrame = 128 := by decide
  obtain ⟨text, htext, hcanonical⟩ := h .primary pointFirstFrame _ hrow hflags
  obtain ⟨hfits, hnumeral⟩ := Display.primary.text?_row hrow hflags
  rw [hnumeral, Option.some.injEq] at htext
  rw [← htext, Display.primary.isCanonical_numeral_iff pointFirstFrame hfits] at hcanonical
  exact hcanonical.1 (by decide)

end UT612
