import UT612.Library.Segmentation
import UT612.Model.Hid

/-!
# The items of a report descriptor

The search for report numbers jumps from key to key, by lengths that it takes from the keys
themselves. The items it sees are a segmentation, the only one the descriptor has, so that a data byte
is never taken for a key, whatever its value.
-/

namespace UT612

open Segmentation

/-- A whole item: a key and its data, or a long key, the length of its data, a tag and the data. -/
inductive IsItem : List UInt8 → Prop where
  | short {key : UInt8} {data : List UInt8} (hkey : key &&& 0xf0 ≠ 0xf0)
      (hlength : data.length = shortDataLen key) : IsItem (key :: data)
  | long {key size tag : UInt8} {data : List UInt8} (hkey : key &&& 0xf0 = 0xf0)
      (hlength : data.length = size.toNat) : IsItem (key :: size :: tag :: data)

/-- How far the first key of a descriptor says that the second is. -/
def itemLength : List UInt8 → Nat
  | [] => 0
  | [key] => if key &&& 0xf0 = 0xf0 then 3 else shortDataLen key + 1
  | key :: size :: _ => if key &&& 0xf0 = 0xf0 then size.toNat + 3 else shortDataLen key + 1

theorem itemLength_short {key : UInt8} (hkey : key &&& 0xf0 ≠ 0xf0) (bytes : List UInt8) :
    itemLength (key :: bytes) = shortDataLen key + 1 := by
  cases bytes <;> exact if_neg hkey

/-- The index of the search stays in the range of an `unsigned int`. -/
theorem index_lt_of_itemStep {value : List UInt8} {size i step : Nat} {key : UInt8}
    (hsize : size ≤ hidMaxDescriptorSize) (hi : i < size)
    (h : itemStep value size i key = .ok step) : i + step < 2 ^ 32 := by
  have hstep : step ≤ 258 := by
    rw [itemStep] at h
    split_ifs at h with hlong hinside
    · rw [element] at h
      cases hbyte : value[i + 1]? with
      | none =>
          rw [hbyte] at h
          exact nomatch h
      | some dataLen =>
          rw [hbyte] at h
          obtain rfl := Except.ok.inj h
          have := dataLen.toNat_lt
          omega
    · obtain rfl := Except.ok.inj h
      decide
    · obtain rfl := Except.ok.inj h
      have : shortDataLen key ≤ 4 := by
        rw [shortDataLen]
        split <;> decide
      omega
  simp only [hidMaxDescriptorSize] at hsize
  omega

theorem itemLength_pos (key : UInt8) (bytes : List UInt8) : 0 < itemLength (key :: bytes) := by
  cases bytes <;> simp only [itemLength] <;> split <;> exact Nat.succ_pos _

theorem not_isItem_nil : ¬ IsItem [] := by
  rintro ⟨⟩

/-- The items at the start of a descriptor are told by their length. -/
theorem isItem_iff_length {key : UInt8} {s bytes : List UInt8} (h : s <+: key :: bytes) :
    IsItem s ↔ s.length = itemLength (key :: bytes) := by
  cases s with
  | nil => exact iff_of_false not_isItem_nil (Nat.ne_of_lt (itemLength_pos key bytes))
  | cons key' s =>
      obtain ⟨rfl, t, rfl⟩ := List.cons_prefix_cons.mp h
      by_cases hkey : key' &&& 0xf0 = 0xf0
      · constructor
        · intro hitem
          cases hitem with
          | short hshort => exact absurd hkey hshort
          | long _ hlength => exact ((if_pos hkey).trans (by simp [hlength])).symm
        · intro hlength
          rcases s with _ | ⟨size, _ | ⟨tag, data⟩⟩
          · cases t <;> simp [itemLength, hkey] at hlength
          · simp [itemLength, hkey] at hlength
          · simp only [List.cons_append, itemLength, if_pos hkey, List.length_cons] at hlength
            exact .long hkey (by omega)
      · rw [itemLength_short hkey, List.length_cons]
        constructor
        · intro hitem
          cases hitem with
          | short _ hlength => rw [hlength]
          | long hlong => exact absurd hlong hkey
        · exact fun hlength => .short hkey (Nat.succ.inj hlength)

/-! ### The search -/

section Search

variable {value : List UInt8} {size : Nat} {before bytes : List UInt8} {key : UInt8}
  (hsize : size ≤ value.length)
include hsize

theorem size_eq {xs : List UInt8} (hvalue : value.take size = before ++ xs) :
    size = before.length + xs.length := by
  have h := congrArg List.length hvalue
  rwa [List.length_take, Nat.min_eq_left hsize, List.length_append] at h

theorem element_eq {xs : List UInt8} {byte : UInt8} {i : Nat}
    (hvalue : value.take size = before ++ xs) (h : xs[i]? = some byte) :
    element value (before.length + i) = .ok byte := by
  have hlt : before.length + i < size := by
    rw [size_eq hsize hvalue]
    exact Nat.add_lt_add_left (List.getElem?_eq_some_iff.mp h).1 _
  have hbyte : value[before.length + i]? = some byte := by
    rw [← List.getElem?_take_of_lt hlt, hvalue, List.getElem?_append_right (Nat.le_add_right _ _),
      Nat.add_sub_cancel_left, h]
  rw [element, hbyte]

theorem itemStep_eq (hvalue : value.take size = before ++ key :: bytes) :
    itemStep value size before.length key = .ok (itemLength (key :: bytes)) := by
  have hlength := size_eq hsize hvalue
  rw [itemStep]
  by_cases hkey : key &&& 0xf0 = 0xf0
  · rw [if_pos hkey]
    cases bytes with
    | nil =>
        rw [if_neg (by simp only [List.length_singleton] at hlength; omega)]
        exact congrArg Except.ok (if_pos hkey).symm
    | cons byte bytes =>
        rw [if_pos (by simp only [List.length_cons] at hlength; omega),
          element_eq hsize hvalue (i := 1) rfl]
        exact congrArg Except.ok (if_pos hkey).symm
  · rw [if_neg hkey, itemLength_short hkey]

theorem usesNumberedReportsLoop_step (hvalue : value.take size = before ++ key :: bytes)
    (hkey : key ≠ 0x85) (rounds : Nat) :
    usesNumberedReportsLoop value size (rounds + 1) before.length =
      usesNumberedReportsLoop value size rounds (before.length + itemLength (key :: bytes)) := by
  have hlt : before.length < size := by
    rw [size_eq hsize hvalue, List.length_cons]
    omega
  have helement : element value before.length = .ok key := element_eq hsize hvalue (i := 0) rfl
  rw [usesNumberedReportsLoop, if_pos hlt, helement]
  refine (if_neg hkey).trans ?_
  rw [itemStep_eq hsize hvalue]
  rfl

theorem usesNumberedReportsLoop_found (hvalue : value.take size = before ++ 0x85 :: bytes)
    (rounds : Nat) :
    usesNumberedReportsLoop value size (rounds + 1) before.length = .ok true := by
  have hlt : before.length < size := by
    rw [size_eq hsize hvalue, List.length_cons]
    omega
  have helement : element value before.length = .ok 0x85 := element_eq hsize hvalue (i := 0) rfl
  rw [usesNumberedReportsLoop, if_pos hlt, helement]
  rfl

omit hsize in
theorem usesNumberedReportsLoop_end {rounds i : Nat} (h : size ≤ i) :
    usesNumberedReportsLoop value size rounds i = .ok false := by
  cases rounds with
  | zero => rfl
  | succ rounds => exact if_neg (Nat.not_lt.mpr h)

/-- A key that is not a report number is skipped with its data. -/
theorem usesNumberedReportsLoop_eq {xs : List UInt8} {items : List (List UInt8)}
    {rest : List UInt8} {rounds : Nat} (hvalue : value.take size = before ++ xs)
    (hrounds : xs.length ≤ rounds) (h : IsSegmentation IsItem xs items rest) :
    usesNumberedReportsLoop value size rounds before.length =
      .ok ((items ++ [rest]).any fun s => s.head? = some 0x85) := by
  have hlength := size_eq hsize hvalue
  induction items generalizing before xs rounds with
  | nil =>
      obtain ⟨rfl, -, hrest⟩ := h
      rw [List.flatten_nil, List.nil_append] at hvalue hrounds hlength
      cases rest with
      | nil => exact usesNumberedReportsLoop_end (Nat.le_of_eq hlength)
      | cons key bytes =>
          obtain ⟨rounds, rfl⟩ := Nat.exists_eq_add_one_of_ne_zero (Nat.ne_zero_of_lt hrounds)
          by_cases hkey : key = 0x85
          · subst hkey
            exact usesNumberedReportsLoop_found hsize hvalue rounds
          · -- what is left is no whole item, and the next key would be behind its end
            have hlong : (key :: bytes).length < itemLength (key :: bytes) := by
              by_contra hle
              refine hrest _ (List.take_prefix (itemLength (key :: bytes)) (key :: bytes)) ?_
              rw [isItem_iff_length (List.take_prefix _ _), List.length_take]
              exact Nat.min_eq_left (Nat.not_lt.mp hle)
            rw [usesNumberedReportsLoop_step hsize hvalue hkey,
              usesNumberedReportsLoop_end (by omega)]
            simp [hkey]
  | cons s items ih =>
      have hs := h.segment s List.mem_cons_self
      obtain ⟨key, data, rfl⟩ := List.exists_cons_of_ne_nil fun heq => not_isItem_nil (heq ▸ hs.stops)
      have hxs : xs = key :: (data ++ (items.flatten ++ rest)) := by
        rw [← h.join, List.flatten_cons, List.append_assoc, List.cons_append]
      have htail : IsSegmentation IsItem (items.flatten ++ rest) items rest :=
        ⟨rfl, fun t ht => h.segment t (List.mem_cons_of_mem _ ht), h.unfinished⟩
      subst hxs
      obtain ⟨rounds, rfl⟩ := Nat.exists_eq_add_one_of_ne_zero (Nat.ne_zero_of_lt hrounds)
      by_cases hkey : key = 0x85
      · subst hkey
        exact usesNumberedReportsLoop_found hsize hvalue rounds
      · have hprefix : key :: data <+: key :: (data ++ (items.flatten ++ rest)) :=
          ⟨items.flatten ++ rest, rfl⟩
        have hjump : before.length + itemLength (key :: (data ++ (items.flatten ++ rest))) =
            (before ++ key :: data).length := by
          rw [List.length_append, (isItem_iff_length hprefix).mp hs.stops]
        have hvalue' : value.take size = before ++ key :: data ++ (items.flatten ++ rest) := by
          rw [hvalue, List.append_assoc, List.cons_append]
        have hrounds' : (items.flatten ++ rest).length ≤ rounds := by
          rw [List.length_cons, List.length_append] at hrounds
          omega
        rw [usesNumberedReportsLoop_step hsize hvalue hkey, hjump,
          ih hvalue' hrounds' htail (size_eq hsize hvalue')]
        simp [hkey]

end Search

/-- The search does not leave the descriptor. -/
theorem usesNumberedReports_ok {value : List UInt8} {size : Nat} (hsize : size ≤ value.length) :
    ∃ numbered, usesNumberedReports value size = .ok numbered := by
  classical
  have hstart : value.take size = [] ++ value.take size := rfl
  exact ⟨_, usesNumberedReportsLoop_eq hsize hstart (List.length_take_le _ _)
    (isSegmentation_run not_isItem_nil (value.take size))⟩

/-- **The items of a descriptor.** Any bytes have one division into whole items and a rest, and a
descriptor has report numbers for the search if and only if an item, or the rest, begins with the key
of one. The data of an item decide nothing. -/
theorem usesNumberedReports_iff (value : List UInt8) (size : Nat) (hsize : size ≤ value.length) :
    ∃ items rest numbered,
      (IsSegmentation IsItem (value.take size) items rest ∧
        ∀ items' rest', IsSegmentation IsItem (value.take size) items' rest' →
          items' = items ∧ rest' = rest) ∧
      usesNumberedReports value size = .ok numbered ∧
      (numbered = true ↔ ∃ s ∈ items ++ [rest], s.head? = some 0x85) := by
  classical
  have h := isSegmentation_run not_isItem_nil (value.take size)
  have hstart : value.take size = [] ++ value.take size := rfl
  refine ⟨_, _, _, ⟨h, fun _ _ h' => h'.unique h⟩,
    usesNumberedReportsLoop_eq hsize hstart (List.length_take_le _ _) h, ?_⟩
  simp only [List.any_eq_true, decide_eq_true_eq]

/-- A usage whose two bytes of data are both the key of a report number. -/
theorem usesNumberedReports_iff_usage :
    ∃ items rest numbered,
      (IsSegmentation IsItem ([0x06, 0x85, 0x85].take 3) items rest ∧
        ∀ items' rest', IsSegmentation IsItem ([0x06, 0x85, 0x85].take 3) items' rest' →
          items' = items ∧ rest' = rest) ∧
      usesNumberedReports [0x06, 0x85, 0x85] 3 = .ok numbered ∧
      (numbered = true ↔ ∃ s ∈ items ++ [rest], s.head? = some 0x85) :=
  usesNumberedReports_iff [0x06, 0x85, 0x85] 3 (by decide)

end UT612
