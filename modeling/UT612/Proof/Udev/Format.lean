import UT612.Proof.Hid.Scan
import UT612.Proof.Udev.Uevent

/-!
# Uevents as they are written

The kernel writes a uevent as lines of a key, an equals sign and a value, and the identity of a HID
device as three numbers in hexadecimal digits between colons. What `parse_uevent_info` makes of such
an attribute is what was written into it, but for the upper half of the two USB numbers.
-/

namespace UT612

open Memory Assertion

/-! ### Identities -/

/-- A number through `%X`, filled with zeros up to a width. -/
def putHex (width n : Nat) : Text := putDigits 16 Char.toUpper width n

/-- The value of `HID_ID`. -/
def putHidId (busType vendorId productId : Nat) : Text :=
  putHex 4 busType ++ ':' :: (putHex 8 vendorId ++ ':' :: putHex 8 productId)

example : putHidId 0x0003 0x05ac 0x8242 = "0003:000005AC:00008242".toList := by decide

theorem unsigned_eq {n : Nat} (h : n < 2 ^ 64) (bits : Nat) (rest : Text) :
    Subject.unsigned bits ⟨false, n, rest⟩ = n % 2 ^ bits := by
  rw [Subject.unsigned, Subject.unsignedLong]
  simp only [if_neg (Nat.not_le.mpr h), Bool.false_eq_true, if_false]

theorem sscanf_putHex (format : List Directive) (width n : Nat) {text : Text}
    (h : Stops 16 text) :
    sscanf (.integer 16 :: format) (putHex width n ++ text) =
      ⟨false, n, text⟩ :: sscanf format text :=
  digits_upper.sscanf_putDigits format width n h

theorem scanHidId_putHidId {busType vendorId productId : Nat} (hbus : busType < 2 ^ 64)
    (hvendor : vendorId < 2 ^ 64) (hproduct : productId < 2 ^ 64) (id : HidId) :
    scanHidId (putHidId busType vendorId productId) id =
      ⟨some (busType % 2 ^ 32), some (vendorId % 2 ^ 16), some (productId % 2 ^ 16), true⟩ := by
  have hend : Stops 16 [] := nofun
  have hcolon : ∀ text, Stops 16 (':' :: text) := stops_cons (by decide)
  have hlast := sscanf_putHex [] 8 productId hend
  rw [List.append_nil] at hlast
  have hscan : sscanf [.integer 16, .literal ':', .integer 16, .literal ':', .integer 16]
      (putHidId busType vendorId productId) =
        [⟨false, busType, ':' :: (putHex 8 vendorId ++ ':' :: putHex 8 productId)⟩,
          ⟨false, vendorId, ':' :: putHex 8 productId⟩, ⟨false, productId, []⟩] := by
    rw [putHidId, sscanf_putHex _ 4 busType (hcolon _), sscanf_literal,
      sscanf_putHex _ 8 vendorId (hcolon _), sscanf_literal, hlast, sscanf]
  rw [scanHidId, hscan]
  simp only [unsigned_eq hbus, unsigned_eq hvendor, unsigned_eq hproduct]

/-! ### Lines -/

/-- The text of an attribute. -/
def putUevent (ps : List (Text × Text)) : Text := ps.flatMap fun p => p.1 ++ '=' :: p.2 ++ ['\n']

/-- A line that can be written: there is no equals sign in the key, and no line feed in either. -/
def Writable (p : Text × Text) : Prop := '=' ∉ p.1 ∧ '\n' ∉ p.1 ∧ '\n' ∉ p.2

instance (p : Text × Text) : Decidable (Writable p) := inferInstanceAs (Decidable (_ ∧ _ ∧ _))

theorem lines_cons {line : Text} (hne : line ≠ []) (h : '\n' ∉ line) (text : Text) :
    lines (line ++ '\n' :: text) = line :: lines text := by
  have hline : ∀ c ∈ line, (c == '\n') = false := fun c hc =>
    beq_false_of_ne fun heq => h (heq ▸ hc)
  rw [lines, List.splitOnP_append_cons_of_forall_mem hline '\n' rfl,
    List.filter_cons_of_pos (by simpa using hne), lines]

theorem property_line {key : Text} (h : '=' ∉ key) (value : Text) :
    property (key ++ '=' :: value) = some (key, value) := by
  have hkey : ∀ c ∈ key, decide (c ≠ '=') = true := fun c hc =>
    decide_eq_true fun heq => h (heq ▸ hc)
  rw [property, List.dropWhile_append_of_pos hkey, List.takeWhile_append_of_pos hkey]
  simp

/-- The lines that are written are read back. -/
theorem properties_putUevent {ps : List (Text × Text)} (h : ∀ p ∈ ps, Writable p) :
    properties (putUevent ps) = ps := by
  induction ps with
  | nil => rfl
  | cons p ps ih =>
      obtain ⟨⟨hkey, hkey', hvalue⟩, hps⟩ := List.forall_mem_cons.mp h
      have hline : '\n' ∉ p.1 ++ '=' :: p.2 := by
        simp [hkey', hvalue]
      have hne : p.1 ++ '=' :: p.2 ≠ [] := List.append_ne_nil_of_right_ne_nil _ (List.cons_ne_nil _ _)
      rw [properties, putUevent, List.flatMap_cons, List.append_assoc, List.singleton_append,
        lines_cons hne hline, List.filterMap_cons, property_line hkey]
      exact congrArg (List.cons p) (ih hps)

/-! ### Attributes -/

theorem hidId_property (u : Uevent) (key value : Text) :
    (u.property key value).hidId =
      if key = "HID_ID".toList then scanHidId value u.hidId else u.hidId := by
  rw [Uevent.property]
  split_ifs <;> rfl

theorem hidId_after_of_none {ps : List (Text × Text)} (h : lastValue "HID_ID".toList ps = none)
    (u : Uevent) : (u.after ps).hidId = u.hidId := by
  induction ps generalizing u with
  | nil => rfl
  | cons p ps ih =>
      rw [lastValue_cons, Option.or_eq_none_iff] at h
      obtain ⟨hps, hp⟩ := h
      have hkey : p.1 ≠ "HID_ID".toList := fun hkey => by simp [hkey] at hp
      refine (ih hps (u.property p.1 p.2)).trans ?_
      rw [hidId_property, if_neg hkey]

/-- The last line with an identity is the last one that is scanned. -/
theorem hidId_after {ps : List (Text × Text)} {value : Text}
    (h : lastValue "HID_ID".toList ps = some value) (u : Uevent) :
    ∃ id, (u.after ps).hidId = scanHidId value id := by
  induction ps generalizing u with
  | nil => exact nomatch h
  | cons p ps ih =>
      rw [lastValue_cons] at h
      cases hps : lastValue "HID_ID".toList ps with
      | some value' =>
          rw [hps, Option.some_or] at h
          exact ih (hps.trans h) (u.property p.1 p.2)
      | none =>
          rw [hps, Option.none_or] at h
          split_ifs at h with hkey
          obtain rfl := Option.some.inj h
          refine ⟨u.hidId, (hidId_after_of_none hps (u.property p.1 p.2)).trans ?_⟩
          rw [hidId_property, if_pos hkey]

/-- **The round trip.** Of an attribute that has been written the parser finds the identity, with the
numbers of the device modulo `2 ^ 16`, the name and the serial number in the last lines with their
keys, of which it makes two new blocks, and leaves the blocks of the memory as they were. -/
theorem parseUeventInfo_putUevent (A : Allocator Block) {ps : List (Text × Text)}
    (hps : ∀ p ∈ ps, Writable p) {busType vendorId productId : Nat} (hbus : busType < 2 ^ 64)
    (hvendor : vendorId < 2 ^ 64) (hproduct : productId < 2 ^ 64) {name serial : Text}
    (hid : lastValue "HID_ID".toList ps = some (putHidId busType vendorId productId))
    (hname : lastValue "HID_NAME".toList ps = some name)
    (hserial : lastValue "HID_UNIQ".toList ps = some serial) (m : Store Block) :
    ∃ v m', parseUeventInfo A (some (putUevent ps)) m = .ok ((true, v), m') ∧
      v.hidId =
        ⟨some (busType % 2 ^ 32), some (vendorId % 2 ^ 16), some (productId % 2 ^ 16), true⟩ ∧
      m'.lookup v.productNameUtf8 = some (.chars name) ∧
      m'.lookup v.serialNumberUtf8 = some (.chars serial) ∧
      v.productNameUtf8 ∉ m ∧ v.serialNumberUtf8 ∉ m ∧
      v.serialNumberUtf8 ≠ v.productNameUtf8 ∧
      ∀ a ∈ m, m'.lookup a = m.lookup a := by
  have hproperties := properties_putUevent hps
  obtain ⟨id, hhid⟩ := hidId_after hid .start
  rw [scanHidId_putHidId hbus hvendor hproduct] at hhid
  have hname' : (uevent (putUevent ps)).name = some name := by
    rw [name_uevent, hproperties, hname]
  have hserial' : (uevent (putUevent ps)).serial = some serial := by
    rw [serial_uevent, hproperties, hserial]
  have hid' : (uevent (putUevent ps)).hidId =
      ⟨some (busType % 2 ^ 32), some (vendorId % 2 ^ 16), some (productId % 2 ^ 16), true⟩ := by
    rw [uevent, hproperties, hhid]
  obtain ⟨r, m', hrun, hm'⟩ := (triple_parseUeventInfo A (putUevent ps)).run m
  obtain ⟨result, v⟩ := r
  rw [mul_assoc, fact_mul_apply, ueventAt, mul_assoc, fact_mul_apply, hserial', hname'] at hm'
  obtain ⟨hresult, ⟨hv, -⟩, hm'⟩ := hm'
  have hcomplete : (uevent (putUevent ps)).complete = true := by
    rw [Uevent.complete, hid', hname', hserial']
    rfl
  obtain rfl : result = true := hresult.trans hcomplete
  obtain ⟨m₁, hdisjoint, rfl, hm₁⟩ := mul_exactly.mp hm'
  rw [mul_assoc] at hm₁
  have hdistinct := ne_of_cell_mul_cell hm₁
  have hserialAt := cell_mul_lookup hm₁
  rw [mul_left_comm] at hm₁
  have hnameAt := cell_mul_lookup hm₁
  have hserialMem := Finmap.mem_of_lookup_eq_some hserialAt
  have hnameMem := Finmap.mem_of_lookup_eq_some hnameAt
  refine ⟨v, _, hrun, hv.trans hid', ?_, ?_, hdisjoint _ hnameMem, hdisjoint _ hserialMem, hdistinct,
    fun a ha => ?_⟩
  · rw [Finmap.lookup_union_left hnameMem, hnameAt]
  · rw [Finmap.lookup_union_left hserialMem, hserialAt]
  · exact Finmap.lookup_union_right fun hmem => hdisjoint a hmem ha

/-- The uevent of a meter, with its name in two lines. -/
def meterUevent : List (Text × Text) :=
  [("HID_ID".toList, putHidId 3 0x10c4 0xea80), ("HID_NAME".toList, "Silicon".toList),
    ("HID_NAME".toList, "CP2110".toList), ("HID_UNIQ".toList, "0041A5C2".toList)]

/-- A memory with a block of its own. -/
def usedMemory : Store Block := single 1 (Block.chars "hidraw0".toList)

theorem parseUeventInfo_putUevent_meter :
    ∃ v m', parseUeventInfo (Allocator.next Block) (some (putUevent meterUevent)) usedMemory =
        .ok ((true, v), m') ∧
      v.hidId = ⟨some 3, some 0x10c4, some 0xea80, true⟩ ∧
      m'.lookup v.productNameUtf8 = some (.chars "CP2110".toList) ∧
      m'.lookup v.serialNumberUtf8 = some (.chars "0041A5C2".toList) ∧
      v.productNameUtf8 ∉ usedMemory ∧ v.serialNumberUtf8 ∉ usedMemory ∧
      v.serialNumberUtf8 ≠ v.productNameUtf8 ∧
      ∀ a ∈ usedMemory, m'.lookup a = usedMemory.lookup a := by
  have hps : ∀ p ∈ meterUevent, Writable p := by decide
  exact parseUeventInfo_putUevent (Allocator.next Block) hps (show 3 < 2 ^ 64 by decide)
    (show 0x10c4 < 2 ^ 64 by decide) (show 0xea80 < 2 ^ 64 by decide) rfl rfl rfl usedMemory

end UT612
