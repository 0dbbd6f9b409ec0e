import UT612.Model.Udev
import Mathlib.Algebra.BigOperators.Group.List.Basic
import Mathlib.Algebra.GroupWithZero.Nat

/-!
# What a uevent says

`parse_uevent_info` copies the strings it finds, so that a line that comes twice leaves behind a copy
that nothing points to any more. The attribute means what its last lines mean, and the copies left
behind are those of the earlier ones.
-/

namespace UT612

open Memory Assertion

/-! ### Strings in memory -/

/-- A pointer to a string, or the null pointer. -/
def stringAt (a : Nat) : Option Text → Assertion Block
  | none => fact (a = 0)
  | some s => cell a (Block.chars s)

/-- Strings at addresses that nothing is known about. -/
def strings (ss : List Text) : Assertion Block := (ss.map fun s => exist fun a => cell a (Block.chars s)).prod

theorem strings_append (ss ss' : List Text) : strings (ss ++ ss') = strings ss * strings ss' := by
  rw [strings, List.map_append, List.prod_append]
  rfl

theorem card_of_strings {ss : List Text} {m : Store Block} (h : strings ss m) :
    m.keys.card = ss.length := by
  induction ss generalizing m with
  | nil => rw [one_apply.mp h, Finmap.keys_empty, Finset.card_empty, List.length_nil]
  | cons s ss ih =>
      rw [strings, List.map_cons, List.prod_cons] at h
      obtain ⟨m₁, m₂, hdisjoint, rfl, ⟨a, -, rfl⟩, hm₂⟩ := h
      rw [card_union hdisjoint, ih hm₂, single, Finmap.keys_singleton, Finset.card_singleton,
        List.length_cons, Nat.add_comm]

theorem stringAt_le_strings (a : Nat) (s : Option Text) : stringAt a s ≤ strings s.toList := by
  cases s with
  | none => exact fun m h => h.2
  | some s =>
      rw [Option.toList_some, strings, List.map_singleton, List.prod_singleton]
      exact le_exist (fun a => cell a (Block.chars s)) a

/-- A load from a block of the right kind. -/
theorem triple_load_as {α : Type} {f : Block → HidProgram α} {b : Block} {x : α} (h : f b = pure x)
    (a : Nat) : Triple (cell a b) (load a >>= f) fun y => fact (y = x) * cell a b := by
  rw [← mul_one (cell a b)]
  refine (triple_load a b).step_value ?_
  rw [mul_one, h]
  exact Triple.value _ x

theorem triple_charsAt (a : Nat) (s : Text) :
    Triple (cell a (Block.chars s)) (charsAt a) fun t => fact (t = s) * cell a (Block.chars s) :=
  triple_load_as (f := Block.asChars) rfl a

theorem triple_free_stringAt (a : Nat) (s : Option Text) :
    Triple (stringAt a s) (free a) fun _ => 1 := by
  cases s with
  | none =>
      refine Triple.of_all (fun m hm => hm.1) fun ha => ?_
      subst ha
      rw [stringAt, fact_of rfl]
      exact triple_free_null
  | some s => exact triple_free a (Block.chars s)

/-! ### The meaning of an attribute -/

/-- What the lines so far say, and the copies of strings that have been replaced by later ones. -/
structure Uevent where
  hidId : HidId
  serial : Option Text
  name : Option Text
  lost : List Text

def Uevent.start : Uevent := ⟨.start, none, none, []⟩

def Uevent.property (u : Uevent) (key value : Text) : Uevent :=
  if key = "HID_ID".toList then { u with hidId := scanHidId value u.hidId }
  else if key = "HID_NAME".toList then
    { u with name := some value, lost := u.name.toList ++ u.lost }
  else if key = "HID_UNIQ".toList then
    { u with serial := some value, lost := u.serial.toList ++ u.lost }
  else u

/-- The key and the value of a line. -/
def property (line : Text) : Option (Text × Text) :=
  match line.dropWhile (· ≠ '=') with
  | [] => none
  | _ :: value => some (line.takeWhile (· ≠ '='), value)

def properties (text : Text) : List (Text × Text) := (lines text).filterMap property

/-- What properties say after others. -/
def Uevent.after (u : Uevent) (ps : List (Text × Text)) : Uevent :=
  ps.foldl (fun u p => u.property p.1 p.2) u

def uevent (text : Text) : Uevent := Uevent.start.after (properties text)

def Uevent.complete (u : Uevent) : Bool := u.hidId.found && u.name.isSome && u.serial.isSome

theorem name_property (u : Uevent) (key value : Text) :
    (u.property key value).name = if key = "HID_NAME".toList then some value else u.name := by
  have hid : "HID_ID".toList ≠ "HID_NAME".toList := by decide
  rw [Uevent.property]
  split_ifs with h₁ h₂ h₃ h₄
  · exact absurd (h₁.symm.trans h₂) hid
  · rfl
  · rfl
  · rfl
  · rfl

theorem serial_property (u : Uevent) (key value : Text) :
    (u.property key value).serial = if key = "HID_UNIQ".toList then some value else u.serial := by
  have hid : "HID_ID".toList ≠ "HID_UNIQ".toList := by decide
  have hname : "HID_NAME".toList ≠ "HID_UNIQ".toList := by decide
  rw [Uevent.property]
  split_ifs with h₁ h₂ h₃ h₄ h₅
  · exact absurd (h₁.symm.trans h₂) hid
  · rfl
  · exact absurd (h₃.symm.trans h₄) hname
  · rfl
  · rfl
  · rfl

/-- The value of the last line with a key. -/
def lastValue (key : Text) (ps : List (Text × Text)) : Option Text :=
  (ps.filter fun p => p.1 = key).getLast?.map Prod.snd

theorem lastValue_cons (key : Text) (p : Text × Text) (ps : List (Text × Text)) :
    lastValue key (p :: ps) =
      (lastValue key ps).or (if p.1 = key then some p.2 else none) := by
  rw [lastValue, lastValue, List.filter_cons]
  by_cases hkey : p.1 = key
  · rw [if_pos (decide_eq_true hkey), if_pos hkey, List.getLast?_cons]
    cases (ps.filter fun p => p.1 = key).getLast? <;> rfl
  · rw [if_neg (by simpa using hkey), if_neg hkey, Option.or_none]

/-- A variable that the lines with one key set has the value of the last of them. -/
theorem field_after {f : Uevent → Option Text} {key : Text}
    (h : ∀ (u : Uevent) key' value,
      f (u.property key' value) = if key' = key then some value else f u)
    (u : Uevent) (ps : List (Text × Text)) : f (u.after ps) = (lastValue key ps).or (f u) := by
  induction ps generalizing u with
  | nil => rfl
  | cons p ps ih =>
      rw [lastValue_cons, Option.or_assoc]
      refine (ih (u.property p.1 p.2)).trans (congrArg _ ?_)
      rw [h]
      split_ifs <;> rfl

theorem name_uevent (text : Text) :
    (uevent text).name = lastValue "HID_NAME".toList (properties text) :=
  (field_after name_property .start (properties text)).trans Option.or_none

theorem serial_uevent (text : Text) :
    (uevent text).serial = lastValue "HID_UNIQ".toList (properties text) :=
  (field_after serial_property .start (properties text)).trans Option.or_none

/-! ### Copies left behind -/

/-- How many lines have a key. -/
def times (key : Text) (ps : List (Text × Text)) : Nat := ps.countP fun p => p.1 = key

theorem times_cons (key : Text) (p : Text × Text) (ps : List (Text × Text)) :
    times key (p :: ps) = times key ps + if p.1 = key then 1 else 0 := by
  rw [times, List.countP_cons]
  simp only [decide_eq_true_eq]
  rfl

theorem length_lastValue (key : Text) (ps : List (Text × Text)) :
    (lastValue key ps).toList.length + (times key ps - 1) = times key ps := by
  rw [times, List.countP_eq_length_filter, lastValue]
  cases hps : (ps.filter fun p => p.1 = key) with
  | nil => rfl
  | cons p qs =>
      rw [List.getLast?_cons]
      exact Nat.add_comm 1 qs.length

/-- The copies that have been made. -/
def Uevent.copies (u : Uevent) : Nat :=
  u.lost.length + u.name.toList.length + u.serial.toList.length

theorem copies_property (u : Uevent) (key value : Text) :
    (u.property key value).copies = u.copies +
      ((if key = "HID_NAME".toList then 1 else 0) + if key = "HID_UNIQ".toList then 1 else 0) := by
  have hid_name : "HID_ID".toList ≠ "HID_NAME".toList := by decide
  have hid_uniq : "HID_ID".toList ≠ "HID_UNIQ".toList := by decide
  have hname_uniq : "HID_NAME".toList ≠ "HID_UNIQ".toList := by decide
  rw [Uevent.property]
  by_cases hid : key = "HID_ID".toList
  · rw [if_pos hid, hid, if_neg hid_name, if_neg hid_uniq]
    rfl
  · by_cases hname : key = "HID_NAME".toList
    · rw [if_neg hid, if_pos hname, if_pos hname, hname, if_neg hname_uniq]
      simp only [Uevent.copies, List.length_append, Option.toList_some, List.length_singleton]
      omega
    · by_cases huniq : key = "HID_UNIQ".toList
      · rw [if_neg hid, if_neg hname, if_pos huniq, if_neg hname, if_pos huniq]
        simp only [Uevent.copies, List.length_append, Option.toList_some, List.length_singleton]
        omega
      · rw [if_neg hid, if_neg hname, if_neg huniq, if_neg hname, if_neg huniq]
        rfl

theorem copies_after (u : Uevent) (ps : List (Text × Text)) :
    (u.after ps).copies = u.copies + (times "HID_NAME".toList ps + times "HID_UNIQ".toList ps) := by
  induction ps generalizing u with
  | nil => rfl
  | cons p ps ih =>
      rw [times_cons, times_cons, show u.after (p :: ps) = (u.property p.1 p.2).after ps from rfl, ih,
        copies_property]
      omega

/-- **The leak.** Every line but the last with the name, and but the last with the serial number,
leaves behind a copy. -/
theorem length_lost (text : Text) :
    (uevent text).lost.length =
      (times "HID_NAME".toList (properties text) - 1) +
        (times "HID_UNIQ".toList (properties text) - 1) := by
  have hcopies := copies_after .start (properties text)
  have hname := length_lastValue "HID_NAME".toList (properties text)
  have hserial := length_lastValue "HID_UNIQ".toList (properties text)
  change (uevent text).copies = 0 + _ at hcopies
  rw [Uevent.copies, name_uevent, serial_uevent] at hcopies
  omega

/-! ### The parser -/

/-- The variables of the parser and the strings it has copied. -/
def ueventAt (v : UeventInfo) (u : Uevent) : Assertion Block :=
  fact (v.hidId = u.hidId ∧ v.foundSerial = u.serial.isSome ∧ v.foundName = u.name.isSome) *
    (stringAt v.serialNumberUtf8 u.serial * stringAt v.productNameUtf8 u.name * strings u.lost)

theorem ueventAt_start : ueventAt .start .start = 1 := by
  rw [ueventAt, fact_mul_of ⟨rfl, rfl, rfl⟩]
  exact (congrArg₂ (· * ·) (congrArg₂ (· * ·) (fact_of rfl) (fact_of rfl)) rfl).trans (by
    rw [one_mul, one_mul]
    rfl)

variable (A : Allocator Block)

theorem triple_parseUeventLine (line : Text) (v : UeventInfo) (u : Uevent) :
    Triple (ueventAt v u) (parseUeventLine A line v) fun v' =>
      ueventAt v' (u.after (property line).toList) := by
  rw [parseUeventLine, property]
  cases line.dropWhile (· ≠ '=') with
  | nil => exact Triple.pure (Q := fun v' => ueventAt v' u) v
  | cons c value =>
      simp only [Option.toList_some, Uevent.after, List.foldl_cons, List.foldl_nil, Uevent.property]
      refine Triple.of_fact fun hvalues => ?_
      obtain ⟨hid, hserial, hname⟩ := hvalues
      split_ifs with hkey hkey' hkey''
      · refine (Triple.pure (Q := fun v' => ueventAt v' _) _).pre ?_
        rw [ueventAt, fact_mul_of]
        exact ⟨congrArg (scanHidId value) hid, hserial, hname⟩
      · refine (triple_alloc A (Block.chars value)).call fun a => ?_
        refine (Triple.pure (Q := fun v' => ueventAt v' _) _).pre ?_
        rw [ueventAt, fact_mul_of ⟨hid, hserial, rfl⟩, strings_append]
        calc cell a (Block.chars value) * (stringAt v.serialNumberUtf8 u.serial *
              stringAt v.productNameUtf8 u.name * strings u.lost)
            = stringAt v.serialNumberUtf8 u.serial * cell a (Block.chars value) *
              (stringAt v.productNameUtf8 u.name * strings u.lost) := by ac_rfl
          _ ≤ _ := mul_mono le_rfl (mul_mono (stringAt_le_strings _ _) le_rfl)
      · refine (triple_alloc A (Block.chars value)).call fun a => ?_
        refine (Triple.pure (Q := fun v' => ueventAt v' _) _).pre ?_
        rw [ueventAt, fact_mul_of ⟨hid, rfl, hname⟩, strings_append]
        calc cell a (Block.chars value) * (stringAt v.serialNumberUtf8 u.serial *
              stringAt v.productNameUtf8 u.name * strings u.lost)
            = cell a (Block.chars value) * stringAt v.productNameUtf8 u.name *
              (stringAt v.serialNumberUtf8 u.serial * strings u.lost) := by ac_rfl
          _ ≤ _ := mul_mono le_rfl (mul_mono (stringAt_le_strings _ _) le_rfl)
      · refine (Triple.pure (Q := fun v' => ueventAt v' _) _).pre ?_
        rw [ueventAt, fact_mul_of ⟨hid, hserial, hname⟩]

theorem triple_parseUeventLines (ls : List Text) (v : UeventInfo) (u : Uevent) :
    Triple (ueventAt v u) (parseUeventLines A ls v) fun v' =>
      ueventAt v' (u.after (ls.filterMap property)) := by
  induction ls generalizing v u with
  | nil => exact Triple.pure (Q := fun v' => ueventAt v' u) v
  | cons line ls ih =>
      refine (triple_parseUeventLine A line v u).bind fun v' => ?_
      have hafter : u.after ((line :: ls).filterMap property) =
          (u.after (property line).toList).after (ls.filterMap property) := by
        rw [Uevent.after, Uevent.after, Uevent.after, ← List.foldl_append, List.filterMap_cons]
        cases property line <;> rfl
      rw [hafter]
      exact ih v' _

/-- **What the parser does.** It sets its variables to what the attribute says, says itself whether
that is all there is to say, and owns the two strings and the copies left behind. -/
theorem triple_parseUeventInfo (text : Text) :
    Triple 1 (parseUeventInfo A (some text)) fun r =>
      fact (r.1 = (uevent text).complete) * ueventAt r.2 (uevent text) := by
  refine (triple_alloc A (Block.chars text)).call fun tmp => ?_
  refine (triple_charsAt tmp text).step_value ?_
  rw [mul_comm, ← ueventAt_start]
  refine (triple_parseUeventLines A (lines text) .start .start).step fun v => ?_
  rw [mul_comm]
  refine (triple_free tmp (Block.chars text)).step fun _ => ?_
  rw [one_mul]
  refine (Triple.pure (Q := fun r : Bool × UeventInfo =>
    fact (r.1 = (uevent text).complete) * ueventAt r.2 (uevent text)) _).pre fun m hm => ?_
  refine fact_mul_apply.mpr ⟨?_, hm⟩
  obtain ⟨⟨hid, hserial, hname⟩, -⟩ := fact_mul_apply.mp hm
  rw [hid, hserial, hname]
  rfl

end UT612
