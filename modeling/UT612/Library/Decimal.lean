import Mathlib.Data.List.Induction
import Mathlib.Data.List.TakeWhile
import Mathlib.Data.Nat.Digits.Defs
import Mathlib.Data.Rat.Floor
import Mathlib.Tactic.Linarith

/-!
# Decimal notation

Digit strings and their values, and numbers written with a decimal point. Cutting a digit string at
a distance from its right end divides its value by a power of ten, so putting the point into a
string, dropping digits from its right end and dropping zeros from its left end are each one
operation on the value.
-/

namespace Decimal

/-! ### Digit strings -/

def IsDigits (s : List Char) : Prop := ∀ c ∈ s, c.isDigit = true

/-- The number a digit string is read as; the empty string is zero. -/
def value (s : List Char) : Nat := Nat.ofDigitChars 10 s 0

theorem isDigits_toDigits (n : Nat) : IsDigits (Nat.toDigits 10 n) := fun _ hc =>
  Nat.isDigit_of_mem_toDigits (by decide) (by decide) hc

theorem isDigits_append {s t : List Char} : IsDigits (s ++ t) ↔ IsDigits s ∧ IsDigits t :=
  List.forall_mem_append

theorem isDigits_replicate_zero (n : Nat) : IsDigits (List.replicate n '0') := by
  intro c hc
  rw [List.eq_of_mem_replicate hc]
  rfl

theorem IsDigits.take {s : List Char} (h : IsDigits s) (n : Nat) : IsDigits (s.take n) :=
  fun _ hc => h _ (List.mem_of_mem_take hc)

theorem IsDigits.drop {s : List Char} (h : IsDigits s) (n : Nat) : IsDigits (s.drop n) :=
  fun _ hc => h _ (List.mem_of_mem_drop hc)

theorem IsDigits.not_mem {s : List Char} (h : IsDigits s) {c : Char} (hc : c.isDigit = false) :
    c ∉ s := by
  intro hmem
  rw [h c hmem] at hc
  exact Bool.noConfusion hc

/-- A digit is the character of a number below ten. -/
theorem exists_digitChar {c : Char} (h : c.isDigit = true) : ∃ d, d < 10 ∧ c = Nat.digitChar d := by
  have hbounds : 48 ≤ c.toNat ∧ c.toNat ≤ 57 := by
    simpa [Char.isDigit, UInt32.le_iff_toNat_le] using h
  refine ⟨c.toNat - 48, by omega, Char.toNat_inj.mp ?_⟩
  rw [Nat.toNat_digitChar_of_lt_ten (by omega)]
  omega

@[simp] theorem value_nil : value [] = 0 := rfl

@[simp] theorem value_toDigits (n : Nat) : value (Nat.toDigits 10 n) = n :=
  Nat.ofDigitChars_ten_toDigits

theorem value_append (s t : List Char) : value (s ++ t) = 10 ^ t.length * value s + value t := by
  rw [value, Nat.ofDigitChars_append, Nat.ofDigitChars_eq_ofDigitChars_zero]
  rfl

theorem value_digitChar {d : Nat} (h : d < 10) : value [Nat.digitChar d] = d := by
  rw [← Nat.toDigits_of_lt_base h, value_toDigits]

theorem value_replicate_zero_append (n : Nat) (s : List Char) :
    value (List.replicate n '0' ++ s) = value s := by
  rw [value_append, show value (List.replicate n '0') = 10 ^ n * 0 from
    Nat.ofDigitChars_replicate_zero, Nat.mul_zero, Nat.mul_zero, Nat.zero_add]

theorem value_zero_cons (s : List Char) : value ('0' :: s) = value s :=
  value_replicate_zero_append 1 s

theorem value_lt {s : List Char} (h : IsDigits s) : value s < 10 ^ s.length := by
  induction s using List.reverseRecOn with
  | nil => simp
  | append_singleton s c ih =>
      obtain ⟨hs, hc⟩ := isDigits_append.mp h
      obtain ⟨d, hd, rfl⟩ := exists_digitChar (hc c (by simp))
      have := ih hs
      rw [value_append, value_digitChar hd, List.length_append, List.length_singleton, pow_succ]
      omega

/-! ### Cutting a digit string -/

/-- The digits before a cut are the quotient by the power of ten, those after it the remainder. -/
theorem value_div_mod {s t : List Char} (ht : IsDigits t) :
    value (s ++ t) / 10 ^ t.length = value s ∧ value (s ++ t) % 10 ^ t.length = value t := by
  have hpos : 0 < 10 ^ t.length := Nat.pow_pos (by decide)
  rw [value_append]
  constructor
  · rw [Nat.mul_add_div hpos, Nat.div_eq_of_lt (value_lt ht), Nat.add_zero]
  · rw [Nat.mul_add_mod, Nat.mod_eq_of_lt (value_lt ht)]

theorem value_take {s : List Char} (h : IsDigits s) (k : Nat) :
    value (s.take k) = value s / 10 ^ (s.length - k) := by
  have hcut := (value_div_mod (s := s.take k) (h.drop k)).1
  rw [List.take_append_drop, List.length_drop] at hcut
  exact hcut.symm

/-! ### Leading zeros -/

/-- A digit string without the zeros that precede its last digit or another digit. -/
def trimZeros : List Char → List Char
  | '0' :: c :: s => trimZeros (c :: s)
  | s => s

theorem value_trimZeros (s : List Char) : value (trimZeros s) = value s := by
  induction s using trimZeros.induct with
  | case1 c s ih => rw [trimZeros, value_zero_cons, ih]
  | case2 s hs =>
      rw [trimZeros]
      exact hs

/-- The digits of a number have no leading zero, and no other string of that kind has its value. -/
theorem toDigits_value {s : List Char} (h : IsDigits s) (hne : s ≠ []) (hhead : s.head? ≠ some '0') :
    0 < value s ∧ Nat.toDigits 10 (value s) = s := by
  induction s using List.reverseRecOn with
  | nil => exact absurd rfl hne
  | append_singleton s c ih =>
      obtain ⟨hs, hc⟩ := isDigits_append.mp h
      obtain ⟨d, hd, rfl⟩ := exists_digitChar (hc c (by simp))
      by_cases hnil : s = []
      · subst hnil
        have hpos : 0 < d := by
          rcases Nat.eq_zero_or_pos d with rfl | hpos
          · exact absurd rfl hhead
          · exact hpos
        rw [List.nil_append, value_digitChar hd]
        exact ⟨hpos, Nat.toDigits_of_lt_base hd⟩
      · rw [List.head?_append_of_ne_nil _ hnil] at hhead
        obtain ⟨hpos, hdigits⟩ := ih hs hnil hhead
        rw [value_append, value_digitChar hd, List.length_singleton, pow_one]
        refine ⟨by omega, ?_⟩
        rw [← Nat.toDigits_append_toDigits (by decide) hpos hd, hdigits, Nat.toDigits_of_lt_base hd]

/-- **Without its leading zeros a digit string is the digits of its value.** -/
theorem trimZeros_eq_toDigits {s : List Char} (h : IsDigits s) (hne : s ≠ []) :
    trimZeros s = Nat.toDigits 10 (value s) := by
  induction s using trimZeros.induct with
  | case1 c s ih =>
      rw [trimZeros, value_zero_cons]
      exact ih (fun x hx => h x (List.mem_cons_of_mem _ hx)) (by simp)
  | case2 s hs =>
      have hself : trimZeros s = s := by
        rw [trimZeros]
        exact hs
      rw [hself]
      match s, hne with
      | [c], _ =>
          obtain ⟨d, hd, rfl⟩ := exists_digitChar (h c (by simp))
          rw [value_digitChar hd, Nat.toDigits_of_lt_base hd]
      | c :: c' :: s, _ =>
          have hzero : c ≠ '0' := fun hc => hs c' s (by rw [hc])
          exact (toDigits_value h (by simp) (by simpa using hzero)).2.symm

/-! ### Numbers with a decimal point -/

/-- A number in decimal notation: a sign, the digits before the point and the digits after it. -/
structure Numeral where
  negative : Bool
  whole : List Char
  fraction : List Char
  deriving DecidableEq, Repr

namespace Numeral

variable (x : Numeral)

def text : List Char := (if x.negative then ['-'] else []) ++ x.whole ++ '.' :: x.fraction

/-- Every character of the number besides its sign and its point is a digit. -/
def IsDecimal : Prop := IsDigits (x.whole ++ x.fraction)

def digitCount : Nat := x.whole.length + x.fraction.length

/-- What the number stands for, without its sign; missing digits count as zero. -/
def magnitude : ℚ := value x.whole + value x.fraction / 10 ^ x.fraction.length

def toRat : ℚ := if x.negative then -x.magnitude else x.magnitude

/-- The text of a number read back. -/
def read (t : List Char) : Numeral :=
  let negative := t.head? == some '-'
  let unsigned := if negative then t.tail else t
  { negative
    whole := unsigned.takeWhile (· ≠ '.')
    fraction := (unsigned.dropWhile (· ≠ '.')).tail }

variable {x}

theorem IsDecimal.whole_digits (h : x.IsDecimal) : IsDigits x.whole := (isDigits_append.mp h).1

theorem IsDecimal.fraction_digits (h : x.IsDecimal) : IsDigits x.fraction :=
  (isDigits_append.mp h).2

theorem takeWhile_dropWhile_point {s t : List Char} (hs : IsDigits s) :
    (s ++ '.' :: t).takeWhile (· ≠ '.') = s ∧ (s ++ '.' :: t).dropWhile (· ≠ '.') = '.' :: t := by
  have hpoint : ∀ c ∈ s, (decide (c ≠ '.')) = true := by
    intro c hc
    have hne : c ≠ '.' := fun heq => hs.not_mem (c := '.') rfl (heq ▸ hc)
    exact decide_eq_true hne
  constructor
  · rw [List.takeWhile_append_of_pos hpoint]
    simp
  · rw [List.dropWhile_append_of_pos hpoint]
    simp

theorem head?_text (h : x.IsDecimal) : x.text.head? = some '-' ↔ x.negative = true := by
  obtain ⟨negative, whole, fraction⟩ := x
  cases negative with
  | true => simp [text]
  | false =>
      cases whole with
      | nil => simp [text]
      | cons c whole =>
          have hc : c ≠ '-' := fun heq =>
            h.whole_digits.not_mem (c := '-') rfl (heq ▸ List.mem_cons_self)
          simp [text, hc]

/-- **Reading a number's text gives the number.** -/
theorem read_text (h : x.IsDecimal) : read x.text = x := by
  have hsign : (x.text.head? == some '-') = x.negative := by
    rw [Bool.eq_iff_iff, beq_iff_eq]
    exact head?_text h
  have hunsigned : (if x.negative then x.text.tail else x.text) = x.whole ++ '.' :: x.fraction := by
    cases hx : x.negative <;> simp [text, hx]
  obtain ⟨htake, hdrop⟩ := takeWhile_dropWhile_point (t := x.fraction) h.whole_digits
  simp only [read, hsign, hunsigned, htake, hdrop, List.tail_cons]

theorem count_point_text (h : x.IsDecimal) : x.text.count '.' = 1 := by
  have hwhole := List.count_eq_zero.mpr (h.whole_digits.not_mem (c := '.') rfl)
  have hfraction := List.count_eq_zero.mpr (h.fraction_digits.not_mem (c := '.') rfl)
  have hsign : (if x.negative then ['-'] else []).count '.' = 0 := by
    cases x.negative <;> rfl
  simp [text, List.count_append, hsign, hwhole, hfraction]

/-- The magnitude is the value of all digits, scaled by the number of those after the point. -/
theorem magnitude_eq :
    x.magnitude = (value (x.whole ++ x.fraction) : ℚ) / 10 ^ x.fraction.length := by
  have hpow : (10 : ℚ) ^ x.fraction.length ≠ 0 := by positivity
  rw [magnitude, value_append]
  push_cast
  field_simp

theorem magnitude_nonneg : 0 ≤ x.magnitude := by
  rw [magnitude]
  positivity

end Numeral

/-! ### Canonical notation -/

/-- Digits before a point: a lone zero, or no leading zero. -/
def IsWhole (s : List Char) : Prop :=
  s = ['0'] ∨ ∃ c t, s = c :: t ∧ c ≠ '0' ∧ IsDigits s

/-- The texts of the grammar `-? (0 | [1-9][0-9]*) '.' [0-9]+`. -/
def IsCanonical (t : List Char) : Prop :=
  ∃ sign whole fraction, t = sign ++ whole ++ '.' :: fraction ∧ (sign = [] ∨ sign = ['-']) ∧
    IsWhole whole ∧ fraction ≠ [] ∧ IsDigits fraction

theorem IsWhole.isDigits {s : List Char} (h : IsWhole s) : IsDigits s := by
  rcases h with rfl | ⟨_, _, _, _, h⟩
  · exact isDigits_replicate_zero 1
  · exact h

theorem IsWhole.ne_nil {s : List Char} (h : IsWhole s) : s ≠ [] := by
  rcases h with rfl | ⟨_, _, rfl, _, _⟩ <;> exact List.cons_ne_nil _ _

/-- The digits of a number have no superfluous zero. -/
theorem isWhole_toDigits (n : Nat) : IsWhole (Nat.toDigits 10 n) := by
  have hdigits := isDigits_toDigits n
  match hs : Nat.toDigits 10 n with
  | [] => exact absurd hs Nat.toDigits_ne_nil
  | [c] =>
      by_cases hc : c = '0'
      · exact .inl (by rw [hc])
      · exact .inr ⟨c, [], rfl, hc, hs ▸ hdigits⟩
  | c :: c' :: s =>
      refine .inr ⟨c, c' :: s, rfl, ?_, hs ▸ hdigits⟩
      rintro rfl
      -- without the zero the number would fit into one digit less
      have htail : IsDigits (c' :: s) := fun x hx => hdigits x (hs ▸ List.mem_cons_of_mem _ hx)
      have hvalue : value (c' :: s) = n := by rw [← value_zero_cons, ← hs, value_toDigits]
      have hfits := (Nat.length_toDigits_le_iff (b := 10) (n := n) (k := (c' :: s).length)
        (by decide) (by simp)).mpr (hvalue ▸ value_lt htail)
      rw [hs, List.length_cons] at hfits
      omega

/-- A number is written canonically if its digits before the point are, and there are digits after
it. -/
theorem Numeral.isCanonical_text {x : Numeral} (h : x.IsDecimal) :
    IsCanonical x.text ↔ IsWhole x.whole ∧ x.fraction ≠ [] := by
  constructor
  · rintro ⟨sign, whole, fraction, htext, hsign, hwhole, hne, hfraction⟩
    have hdecimal (negative : Bool) : Numeral.IsDecimal ⟨negative, whole, fraction⟩ :=
      isDigits_append.mpr ⟨hwhole.isDigits, hfraction⟩
    have hx : ∃ negative, x = ⟨negative, whole, fraction⟩ := by
      rcases hsign with rfl | rfl
      · exact ⟨false, by rw [← read_text h, htext]; exact read_text (hdecimal false)⟩
      · exact ⟨true, by rw [← read_text h, htext]; exact read_text (hdecimal true)⟩
    obtain ⟨negative, rfl⟩ := hx
    exact ⟨hwhole, hne⟩
  · rintro ⟨hwhole, hne⟩
    refine ⟨if x.negative then ['-'] else [], x.whole, x.fraction, rfl, ?_, hwhole, hne,
      h.fraction_digits⟩
    cases x.negative
    · exact .inl rfl
    · exact .inr rfl

end Decimal
