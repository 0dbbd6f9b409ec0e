import UT612.Model.Scan

/-!
# Numbers that are read back

A number written in the digits of a base, with zeros before it or not, is the number that `sscanf`
and `strtol` take off the start of a text, if what follows is no part of it.
-/

namespace UT612

/-- How a base is written: what becomes of the lower case digits. -/
structure Digits (base : Nat) (f : Char → Char) : Prop where
  one_lt : 1 < base
  zero : f '0' = '0'
  value : ∀ d < base, digitValue base (f (Nat.digitChar d)) = some d
  plain : ∀ d < base, isSpace (f (Nat.digitChar d)) = false ∧ f (Nat.digitChar d) ≠ '-' ∧
    f (Nat.digitChar d) ≠ '+' ∧ f (Nat.digitChar d) ≠ 'x' ∧ f (Nat.digitChar d) ≠ 'X'

/-- The digits of `%X`. -/
theorem digits_upper : Digits 16 Char.toUpper := ⟨by decide, rfl, by decide, by decide⟩

/-- The digits of `%d`. -/
theorem digits_decimal : Digits 10 id := ⟨by decide, rfl, by decide, by decide⟩

/-- A number, filled with zeros up to a width. -/
def putDigits (base : Nat) (f : Char → Char) (width n : Nat) : Text :=
  ((Nat.toDigits base n).map f).leftpad width '0'

/-- What can follow a number and is no part of it. -/
def Stops (base : Nat) (text : Text) : Prop :=
  ∀ c ∈ text.head?, digitValue base c = none ∧ c ≠ 'x' ∧ c ≠ 'X'

instance (base : Nat) (text : Text) : Decidable (Stops base text) :=
  Option.decidableForallMem text.head?

section Digits

variable {base : Nat} {f : Char → Char}

/-- One of the digits that are written. -/
def IsDigit (base : Nat) (f : Char → Char) (c : Char) : Prop :=
  ∃ d < base, c = f (Nat.digitChar d)

variable (h : Digits base f)
include h

theorem Digits.pos : 0 < base := Nat.lt_of_succ_lt h.one_lt

theorem Digits.isDigit_zero : IsDigit base f '0' := ⟨0, h.pos, h.zero.symm⟩

theorem Digits.isDigit_toDigits (n : Nat) : ∀ c ∈ (Nat.toDigits base n).map f, IsDigit base f c := by
  induction n using Nat.strongRecOn with
  | ind n ih =>
      by_cases hn : n < base
      · rw [Nat.toDigits_of_lt_base hn, List.map_singleton]
        exact List.forall_mem_singleton.mpr ⟨n, hn, rfl⟩
      · have hle : base ≤ n := Nat.le_of_not_lt hn
        rw [Nat.toDigits_of_base_le h.one_lt hle, List.map_append, List.map_singleton,
          List.forall_mem_append]
        exact ⟨ih (n / base) (Nat.div_lt_self (Nat.lt_of_lt_of_le h.pos hle) h.one_lt),
          List.forall_mem_singleton.mpr ⟨n % base, Nat.mod_lt n h.pos, rfl⟩⟩

theorem Digits.isDigit_putDigits (width n : Nat) :
    ∀ c ∈ putDigits base f width n, IsDigit base f c := by
  rw [putDigits, List.leftpad, List.forall_mem_append]
  exact ⟨fun c hc => List.eq_of_mem_replicate hc ▸ h.isDigit_zero, h.isDigit_toDigits n⟩

omit h in
theorem exists_putDigits (base : Nat) (f : Char → Char) (width n : Nat) :
    ∃ c cs, putDigits base f width n = c :: cs := by
  apply List.exists_cons_of_ne_nil
  rw [putDigits, List.leftpad]
  exact List.append_ne_nil_of_right_ne_nil _ (mt List.map_eq_nil_iff.mp Nat.toDigits_ne_nil)

omit h in
theorem scanDigits_of_stops {text : Text} (hstops : Stops base text) (n : Nat) :
    scanDigits base n text = (n, text) := by
  cases text with
  | nil => rfl
  | cons c text => rw [scanDigits, (hstops c rfl).1]

theorem Digits.scanDigits_toDigits (n : Nat) (text : Text) :
    scanDigits base 0 ((Nat.toDigits base n).map f ++ text) = scanDigits base n text := by
  induction n using Nat.strongRecOn generalizing text with
  | ind n ih =>
      by_cases hn : n < base
      · rw [Nat.toDigits_of_lt_base hn, List.map_singleton, List.singleton_append, scanDigits,
          h.value n hn]
        simp only [Nat.mul_zero, Nat.zero_add]
      · have hle : base ≤ n := Nat.le_of_not_lt hn
        rw [Nat.toDigits_of_base_le h.one_lt hle, List.map_append, List.map_singleton,
          List.append_assoc, List.singleton_append,
          ih (n / base) (Nat.div_lt_self (Nat.lt_of_lt_of_le h.pos hle) h.one_lt), scanDigits,
          h.value _ (Nat.mod_lt n h.pos)]
        simp only [Nat.div_add_mod]

theorem Digits.scanDigits_zeros (k : Nat) (text : Text) :
    scanDigits base 0 (List.replicate k '0' ++ text) = scanDigits base 0 text := by
  have hzero : digitValue base '0' = some 0 := h.zero ▸ h.value 0 h.pos
  induction k with
  | zero => rfl
  | succ k ih =>
      rw [List.replicate_succ, List.cons_append, scanDigits, hzero]
      exact ih

theorem Digits.scanDigits_putDigits (width n : Nat) (text : Text) :
    scanDigits base 0 (putDigits base f width n ++ text) = scanDigits base n text := by
  rw [putDigits, List.leftpad, List.append_assoc, h.scanDigits_zeros, h.scanDigits_toDigits]

omit h in
theorem scanPrefix_eq {c : Char} {text : Text} (hx : ∀ x ∈ text.head?, x ≠ 'x' ∧ x ≠ 'X') :
    scanPrefix base (c :: text) = c :: text := by
  unfold scanPrefix
  split
  · next x rest heq =>
    obtain ⟨rfl, rfl⟩ := List.cons.inj heq
    exact if_neg (not_or.mpr (hx x rfl))
  · rfl

/-- A number that has been written is read back. -/
theorem Digits.scanSubject_putDigits (width n : Nat) {text : Text} (hstops : Stops base text) :
    scanSubject base (putDigits base f width n ++ text) = some ⟨false, n, text⟩ := by
  obtain ⟨c, cs, hcs⟩ := exists_putDigits base f width n
  have hdigits := h.isDigit_putDigits width n
  rw [hcs] at hdigits
  obtain ⟨⟨d, hd, hc⟩, hcs'⟩ := List.forall_mem_cons.mp hdigits
  obtain ⟨hspace, hminus, hplus, -, -⟩ := h.plain d hd
  rw [← hc] at hspace hminus hplus
  have hplain : scanPrefix base (c :: (cs ++ text)) = c :: (cs ++ text) := by
    apply scanPrefix_eq
    intro x hx
    cases cs with
    | nil => exact (hstops x hx).2
    | cons c' cs =>
        obtain rfl : c' = x := Option.some.inj hx
        obtain ⟨d', hd', rfl⟩ := hcs' c' (List.mem_cons_self ..)
        exact (h.plain d' hd').2.2.2
  have hscan := h.scanDigits_putDigits width n text
  rw [scanDigits_of_stops hstops, hcs, List.cons_append] at hscan
  have hvalue : digitValue base c = some d := hc ▸ h.value d hd
  have hmagnitude : scanMagnitude base false (c :: (cs ++ text)) = some ⟨false, n, text⟩ := by
    rw [scanMagnitude, List.head?_cons, Option.bind_some, hvalue]
    simp only [hscan]
  rw [scanSubject, hcs, List.cons_append, List.dropWhile_cons_of_neg (by simp [hspace])]
  split
  · exact absurd (List.cons.inj ‹_›).1 hminus
  · exact absurd (List.cons.inj ‹_›).1 hplus
  · rw [hplain, hmagnitude]

/-! ### Formats -/

theorem Digits.sscanf_putDigits (format : List Directive) (width n : Nat) {text : Text}
    (hstops : Stops base text) :
    sscanf (.integer base :: format) (putDigits base f width n ++ text) =
      ⟨false, n, text⟩ :: sscanf format text := by
  rw [sscanf, h.scanSubject_putDigits width n hstops]

end Digits

theorem sscanf_literal (format : List Directive) (c : Char) (text : Text) :
    sscanf (.literal c :: format) (c :: text) = sscanf format text := by
  rw [sscanf, if_pos rfl]

theorem stops_cons {base : Nat} {c : Char} (h : digitValue base c = none ∧ c ≠ 'x' ∧ c ≠ 'X')
    (text : Text) : Stops base (c :: text) := by
  intro c' hc
  obtain rfl : c = c' := Option.some.inj hc
  exact h

end UT612
