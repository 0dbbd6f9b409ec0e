import UT612.Proof.Hid.Read
import UT612.Proof.Hid.Scan

/-!
# Kernel versions

Before version 2.6.34 the kernel put the number of a report before its bytes where a device has
numbered reports, and `hid_read_timeout` takes it off again. It knows the version from the release
that `uname` names, of which two or three numbers are read, whatever follows them.
-/

namespace UT612

/-! ### Releases -/

/-- A release is the name of a version: three numbers and what is no part of them, or two where no
third one can be read. -/
inductive Release : Text → Nat → Nat → Nat → Prop where
  | three {a b c : Nat} {rest : Text} (hrest : Stops 10 rest) :
      Release (Nat.toDigits 10 a ++ '.' :: (Nat.toDigits 10 b ++ '.' :: (Nat.toDigits 10 c ++ rest)))
        a b c
  | two {a b : Nat} {rest : Text} (hrest : Stops 10 rest)
      (hthird : ∀ text, rest = '.' :: text → scanSubject 10 text = none) :
      Release (Nat.toDigits 10 a ++ '.' :: (Nat.toDigits 10 b ++ rest)) a b 0

/-- One version comes before another. -/
def Before (a b c a' b' c' : Nat) : Prop := a < a' ∨ a = a' ∧ (b < b' ∨ b = b' ∧ c < c')

instance (a b c a' b' c' : Nat) : Decidable (Before a b c a' b' c') :=
  inferInstanceAs (Decidable (_ ∨ _))

theorem putDigits_decimal (n : Nat) : putDigits 10 id 0 n = Nat.toDigits 10 n := by
  rw [putDigits, List.map_id, List.leftpad, Nat.zero_sub, List.replicate_zero, List.nil_append]

theorem sscanf_toDigits (format : List Directive) (n : Nat) {text : Text} (h : Stops 10 text) :
    sscanf (.integer 10 :: format) (Nat.toDigits 10 n ++ text) =
      ⟨false, n, text⟩ :: sscanf format text := by
  rw [← putDigits_decimal, digits_decimal.sscanf_putDigits format 0 n h]

theorem int_of_lt {n : Nat} (h : n < 2 ^ 31) (rest : Text) : Subject.int ⟨false, n, rest⟩ = n := by
  have hlong : Subject.long ⟨false, n, rest⟩ = n := by
    simp only [Subject.long, Bool.false_eq_true, if_false]
    rw [if_neg (by omega)]
  rw [Subject.int, hlong]
  apply Int.bmod_eq_of_le <;> omega

/-- The version that is detected. -/
theorem detectKernelVersion_eq {kernel : Kernel} {a b c : Nat} (h : Release kernel.release a b c)
    (ha : a < 2 ^ 31) (hb : b < 2 ^ 31) (hc : c < 2 ^ 31) (con : Console) :
    detectKernelVersion kernel con = (kernel.versionCode a b c % 2 ^ 32, con) := by
  have hdot : ∀ text, Stops 10 ('.' :: text) := stops_cons (by decide)
  generalize hrelease : kernel.release = text at h
  cases h with
  | @three a b c rest hrest =>
      rw [detectKernelVersion, hrelease, sscanf_toDigits _ a (hdot _), sscanf_literal,
        sscanf_toDigits _ b (hdot _), sscanf_literal, sscanf_toDigits _ c hrest, sscanf]
      simp only [int_of_lt ha, int_of_lt hb, int_of_lt hc]
  | @two a b rest hrest hthird =>
      have hnone : sscanf [.literal '.', .integer 10] rest = [] := by
        cases rest with
        | nil => rfl
        | cons d text =>
            rw [sscanf]
            split_ifs with hd
            · rw [sscanf, hthird text (congrArg (· :: text) hd)]
            · rfl
      have hfirst : ∀ format, sscanf (.integer 10 :: .literal '.' :: .integer 10 :: format)
          (Nat.toDigits 10 a ++ '.' :: (Nat.toDigits 10 b ++ rest)) =
            ⟨false, a, '.' :: (Nat.toDigits 10 b ++ rest)⟩ :: ⟨false, b, rest⟩ ::
              sscanf format rest := by
        intro format
        rw [sscanf_toDigits _ a (hdot _), sscanf_literal, sscanf_toDigits _ b hrest]
      rw [detectKernelVersion, hrelease, hfirst, hnone, hfirst, sscanf]
      simp only [int_of_lt ha, int_of_lt hb, Nat.cast_zero]

/-! ### Reading -/

/-- The encoding of versions keeps their order. -/
theorem code_lt_iff {a b c a' b' c' : Nat} (hb : b < 256) (hc : c < 256) (hb' : b' < 256)
    (hc' : c' < 256) :
    a * 2 ^ 16 + b * 2 ^ 8 + c < a' * 2 ^ 16 + b' * 2 ^ 8 + c' ↔ Before a b c a' b' c' := by
  rw [Before]
  omega

/-- A report that does not fill the array is read with its number or without it. -/
theorem hidReadTimeout_report (kernel : Kernel) (kernelVersion : Nat) (dev : HidDevice)
    {revents : UInt16} (hready : revents &&& (pollError ||| pollHangUp ||| pollInvalid) = 0)
    {report : List UInt8} (hne : report ≠ []) (hfits : report.length < dataSize)
    (hle : report.length ≤ (uninitialized dataSize).length) {received : List UInt8}
    (hreceived : received =
      if chopsReports kernel kernelVersion dev = true then report.tail else report) :
    hidReadTimeout kernel kernelVersion dev (uninitialized dataSize) 1000 (.ready revents)
        (.bytes report hle) = .ok (received.length, written received) := by
  obtain ⟨byte, rest, rfl⟩ := List.exists_cons_of_ne_nil hne
  have hread := hidReadTimeout_eq kernel kernelVersion dev
    ⟨.ready revents, .bytes (byte :: rest) hle⟩
  have hevents : (PollAnswer.ready revents).isReady = true := decide_eq_true hready
  have hshort : ((byte :: rest).length == dataSize) = false := beq_false_of_ne hfits.ne
  simp only [RoundAnswer.overruns, RoundAnswer.result, hevents, readOverruns, hshort,
    Bool.and_false, Bool.false_eq_true, if_false, if_true, readResult, reportRead] at hread
  rw [hread, hreceived]
  cases chopsReports kernel kernelVersion dev <;> rfl

section Kernel

variable {kernel : Kernel} {a b c : Nat}
  (hcode : ∀ a b c : Nat, c < 256 → kernel.versionCode a b c = a * 2 ^ 16 + b * 2 ^ 8 + c)
  (h : Release kernel.release a b c) (ha : a < 2 ^ 16) (hb : b < 256) (hc : c < 256)
include hcode h ha hb hc

theorem hidInit_fst_eq (con : Console) :
    (hidInit kernel con).1 = a * 2 ^ 16 + b * 2 ^ 8 + c := by
  rw [hidInit, detectKernelVersion_eq h (by omega) (by omega) (by omega), hcode a b c hc]
  exact Nat.mod_eq_of_lt (by omega)

/-- Reports are chopped by the version that is named, if one is. -/
theorem chopsReports_eq (con : Console) (dev : HidDevice) :
    chopsReports kernel (hidInit kernel con).1 dev =
      (dev.usesNumberedReports && decide (Before 0 0 0 a b c ∧ Before a b c 2 6 34)) := by
  have hzero : a * 2 ^ 16 + b * 2 ^ 8 + c ≠ 0 ↔ Before 0 0 0 a b c := by
    rw [Before]
    omega
  have hold : a * 2 ^ 16 + b * 2 ^ 8 + c < kernel.versionCode 2 6 34 ↔ Before a b c 2 6 34 := by
    have hcode' : kernel.versionCode 2 6 34 = 2 * 2 ^ 16 + 6 * 2 ^ 8 + 34 := hcode 2 6 34 (by decide)
    rw [hcode', code_lt_iff hb hc (by decide) (by decide)]
  rw [chopsReports, hidInit_fst_eq hcode h ha hb hc, Bool.eq_iff_iff]
  simp only [Bool.and_eq_true, bne_iff_ne, decide_eq_true_eq, hzero, hold]
  exact and_comm

end Kernel

/-- A kernel of an old version. -/
def oldKernel : Kernel where
  release := "2.6.32-5-amd64".toList
  versionCode a b c := (a * 2 ^ 16 + b * 2 ^ 8 + c).toNat
  strerror _ := []

end UT612
