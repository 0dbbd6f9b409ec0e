import UT612.Proof.Udev.Record

/-!
# The device list

`hid_enumerate` keeps a list that ends at `cur_dev`. Each device that libudev finds puts a record at
its end, or none: the record of a USB device without a parent is taken off again. So the list holds
what is to be said of the devices, in the order they were found in.
-/

namespace UT612

open Memory Assertion LinkedList

/-! ### What is to be said of a device -/

structure Identity where
  busType : Nat
  vendorId : Nat
  productId : Nat
  serial : Text
  name : Text

def Uevent.identity (u : Uevent) : Option Identity :=
  if u.complete then do
    let busType ← u.hidId.busType
    let vendorId ← u.hidId.vendorId
    let productId ← u.hidId.productId
    let serial ← u.serial
    let name ← u.name
    return ⟨busType, vendorId, productId, serial, name⟩
  else none

theorem identity_eq_none {u : Uevent} (h : u.complete = false) : u.identity = none :=
  if_neg (ne_true_of_eq_false h)

/-- An identity of which all has been found has all of it. -/
def HidId.Valid (id : HidId) : Prop :=
  id.found = true → ∃ busType vendorId productId,
    id = ⟨some busType, some vendorId, some productId, true⟩

theorem valid_scanHidId {id : HidId} (h : id.Valid) (value : Text) : (scanHidId value id).Valid := by
  rw [scanHidId, HidId.Valid]
  split
  · exact fun _ => ⟨_, _, _, rfl⟩
  · intro hfound
    obtain ⟨_, _, _, rfl⟩ := h hfound
    exact ⟨_, _, _, rfl⟩
  · intro hfound
    obtain ⟨_, _, _, rfl⟩ := h hfound
    exact ⟨_, _, _, rfl⟩
  · exact h

theorem valid_property {u : Uevent} (h : u.hidId.Valid) (key value : Text) :
    (u.property key value).hidId.Valid := by
  rw [Uevent.property]
  split_ifs
  · exact valid_scanHidId h value
  · exact h
  · exact h
  · exact h

theorem valid_after {u : Uevent} (h : u.hidId.Valid) (ps : List (Text × Text)) :
    (u.after ps).hidId.Valid := by
  induction ps generalizing u with
  | nil => exact h
  | cons p ps ih => exact ih (valid_property h p.1 p.2)

/-- What the variables of the parser are when it has found everything. -/
theorem exists_identity {text : Text} (h : (uevent text).complete = true) :
    ∃ i, (uevent text).identity = some i ∧
      (uevent text).hidId = ⟨some i.busType, some i.vendorId, some i.productId, true⟩ ∧
      (uevent text).serial = some i.serial ∧ (uevent text).name = some i.name := by
  obtain ⟨⟨hfound, hname⟩, hserial⟩ : ((uevent text).hidId.found = true ∧
      (uevent text).name.isSome = true) ∧ (uevent text).serial.isSome = true := by
    simpa only [Uevent.complete, Bool.and_eq_true] using h
  have hstart : Uevent.start.hidId.Valid := nofun
  obtain ⟨busType, vendorId, productId, hid⟩ := valid_after hstart (properties text) hfound
  obtain ⟨serial, hserial⟩ := Option.isSome_iff_exists.mp hserial
  obtain ⟨name, hname⟩ := Option.isSome_iff_exists.mp hname
  refine ⟨⟨busType, vendorId, productId, serial, name⟩, ?_, hid, hserial, hname⟩
  have hid' : (uevent text).hidId = ⟨some busType, some vendorId, some productId, true⟩ := hid
  rw [Uevent.identity, if_pos h, hid', hserial, hname]
  rfl

section Host

variable (A : Allocator Block) (mbstowcs : Text → Option Text) (vendorId productId : Nat)

def Identity.listed (raw : HidrawDevice) (i : Identity) : Option ListedDevice :=
  if (vendorId = 0 ∨ vendorId = i.vendorId) ∧ (productId = 0 ∨ productId = i.productId) then
    if i.busType = busUsb then
      raw.usbDev.map fun usbDev =>
        usbDev.listed mbstowcs raw.devNode i.serial i.vendorId i.productId raw.intfDev
    else if i.busType = busBluetooth then
      some (bluetoothListed mbstowcs raw.devNode i.serial i.vendorId i.productId i.name)
    else none
  else none

/-- What the uevent of a device says, nothing if it is no HID device. -/
def HidrawDevice.tells (raw : HidrawDevice) : Uevent :=
  match raw.hidDev with
  | some (some text) => uevent text
  | _ => .start

def HidrawDevice.listed (raw : HidrawDevice) : Option ListedDevice :=
  raw.tells.identity.bind (Identity.listed mbstowcs vendorId productId raw)

/-- A HID device has an attribute `uevent`. -/
def HidrawDevice.Readable (raw : HidrawDevice) : Prop := raw.hidDev ≠ some none

/-! ### The list in memory -/

/-- The list up to `cur_dev`. -/
def enumerationAt (e : Enumeration) (ds : List ListedDevice) : Assertion Block :=
  match ds.getLast? with
  | none => fact (e.root = 0 ∧ e.curDev = 0)
  | some d => segment recordAt ds.dropLast e.root e.curDev * recordAt e.curDev 0 d

/-- The list up to `prev_dev`, when `cur_dev` has been linked to it. -/
def linkedAt (e : Enumeration) (ds : List ListedDevice) : Assertion Block :=
  match ds.getLast? with
  | none => fact (e.root = e.curDev ∧ e.prevDev = 0)
  | some d => segment recordAt ds.dropLast e.root e.prevDev * recordAt e.prevDev e.curDev d

theorem enumerationAt_concat (e : Enumeration) (ds : List ListedDevice) (d : ListedDevice) :
    enumerationAt e (ds ++ [d]) =
      segment recordAt ds e.root e.curDev * recordAt e.curDev 0 d := by
  rw [enumerationAt, List.getLast?_concat, List.dropLast_concat]

theorem linkedAt_concat (e : Enumeration) (ds : List ListedDevice) (d : ListedDevice) :
    linkedAt e (ds ++ [d]) =
      segment recordAt ds e.root e.prevDev * recordAt e.prevDev e.curDev d := by
  rw [linkedAt, List.getLast?_concat, List.dropLast_concat]

theorem linkedAt_mul_recordAt_le (e : Enumeration) (ds : List ListedDevice) (d : ListedDevice) :
    linkedAt e ds * recordAt e.curDev 0 d ≤ enumerationAt e (ds ++ [d]) := by
  rw [enumerationAt_concat]
  rcases List.eq_nil_or_concat' ds with rfl | ⟨ds, d', rfl⟩
  · exact mul_mono (fun m hm => ⟨hm.1.1, hm.2⟩) le_rfl
  · rw [linkedAt_concat]
    exact mul_mono (segment_concat_le ds d' _ _ _) le_rfl

theorem triple_linkRecord (e : Enumeration) (ds : List ListedDevice) :
    Triple (enumerationAt e ds) (linkRecord A e) fun e' =>
      linkedAt e' ds * cell e'.curDev (Block.info .unwritten) := by
  refine (triple_alloc A _).call fun tmp => ?_
  rw [mul_comm]
  rcases List.eq_nil_or_concat' ds with rfl | ⟨ds, d, rfl⟩
  · refine Triple.of_fact fun hvalues => ?_
    obtain ⟨hroot, hcur⟩ := hvalues
    rw [if_neg (not_not.mpr hcur)]
    refine (Triple.pure (Q := fun e' => linkedAt e' [] * cell e'.curDev _) _).pre ?_
    exact (fact_mul_of ⟨rfl, hcur⟩ _).ge
  · rw [enumerationAt_concat, mul_comm (segment _ _ _ _), mul_assoc]
    refine Triple.of_all ne_zero_of_recordAt_mul fun hcur => ?_
    rw [if_pos hcur]
    refine (triple_setNext e.curDev 0 tmp d).step fun _ => ?_
    refine (Triple.pure (Q := fun e' => linkedAt e' (ds ++ [d]) * cell e'.curDev _) _).pre ?_
    rw [linkedAt_concat, mul_assoc, mul_left_comm]

/-- A record that is not wanted leaves the list as it was. -/
theorem triple_dropRecord (e : Enumeration) (ds : List ListedDevice) (devPath : Option Text)
    (serial : Text) (devVid devPid : Nat) :
    Triple (linkedAt e ds * filledAt e.curDev devPath serial devVid devPid) (dropRecord e) fun e' =>
      enumerationAt e' ds := by
  rw [mul_comm, filledAt, exist_mul]
  refine Triple.of_exist fun p => ?_
  obtain ⟨path, serialNumber⟩ := p
  rw [mul_assoc]
  refine (triple_infoAt e.curDev _).step_value ?_
  rw [mul_comm (stringAt _ _), mul_assoc, mul_left_comm]
  refine triple_known ((triple_free_wideStringAt serialNumber _).step fun _ => ?_)
  rw [one_mul, mul_left_comm]
  refine triple_known ((triple_free_stringAt path _).step fun _ => ?_)
  rw [one_mul]
  refine (triple_free e.curDev _).step fun _ => ?_
  rw [one_mul]
  rcases List.eq_nil_or_concat' ds with rfl | ⟨ds, d, rfl⟩
  · refine Triple.of_all (fun m hm => hm.1.2) fun hprev => ?_
    rw [if_neg (not_not.mpr hprev)]
    exact (Triple.pure (Q := fun e' => enumerationAt e' []) _).pre fun m hm => ⟨⟨rfl, rfl⟩, hm.2⟩
  · rw [linkedAt_concat, mul_comm]
    refine Triple.of_all ne_zero_of_recordAt_mul fun hprev => ?_
    rw [if_pos hprev]
    refine (triple_setNext e.prevDev e.curDev 0 d).step fun _ => ?_
    refine (Triple.pure (Q := fun e' => enumerationAt e' (ds ++ [d])) _).pre ?_
    rw [enumerationAt_concat, mul_comm]

/-- The record of a device with an identity that is asked for. -/
theorem triple_createRecord (raw : HidrawDevice) (i : Identity) (v : UeventInfo) (e : Enumeration)
    (ds : List ListedDevice) (hbus : i.busType = busUsb ∨ i.busType = busBluetooth)
    (hmatch : (vendorId = 0 ∨ vendorId = i.vendorId) ∧ (productId = 0 ∨ productId = i.productId)) :
    Triple (enumerationAt e ds * (stringAt v.serialNumberUtf8 (some i.serial) *
        stringAt v.productNameUtf8 (some i.name)))
      (createRecord A mbstowcs raw v i.busType i.vendorId i.productId e) fun e' =>
        enumerationAt e' (ds ++ (i.listed mbstowcs vendorId productId raw).toList) *
          (stringAt v.serialNumberUtf8 (some i.serial) *
            stringAt v.productNameUtf8 (some i.name)) := by
  refine (triple_linkRecord A e ds).step fun e' => ?_
  refine Triple.reorder (cell e'.curDev (Block.info .unwritten) *
    stringAt v.serialNumberUtf8 (some i.serial) *
      (linkedAt e' ds * stringAt v.productNameUtf8 (some i.name))) (by ac_rfl) ?_
  refine (triple_fillRecord A mbstowcs raw.devNode i.serial i.vendorId i.productId _ _).step
    fun _ => ?_
  rw [Identity.listed, if_pos hmatch]
  have hadd : ∀ d, recordAt e'.curDev 0 d * (linkedAt e' ds *
      (stringAt v.serialNumberUtf8 (some i.serial) * stringAt v.productNameUtf8 (some i.name))) ≤
      enumerationAt e' (ds ++ [d]) *
        (stringAt v.serialNumberUtf8 (some i.serial) *
          stringAt v.productNameUtf8 (some i.name)) := by
    intro d
    rw [← mul_assoc, mul_comm (recordAt _ _ _)]
    exact mul_mono (linkedAt_mul_recordAt_le e' ds d) le_rfl
  by_cases husb : i.busType = busUsb
  · rw [if_pos husb, if_pos husb]
    cases raw.usbDev with
    | none =>
        refine Triple.reorder (linkedAt e' ds *
          filledAt e'.curDev raw.devNode (wideText mbstowcs i.serial) i.vendorId i.productId *
          (stringAt v.serialNumberUtf8 (some i.serial) *
            stringAt v.productNameUtf8 (some i.name))) (by ac_rfl) ?_
        rw [Option.map_none, Option.toList_none, List.append_nil]
        exact (triple_dropRecord e' ds _ _ _ _).frame _
    | some usbDev =>
        rw [mul_assoc]
        refine (triple_fillUsb A mbstowcs _ _ _ _ usbDev raw.intfDev _).step fun _ => ?_
        refine (Triple.pure (Q := fun e' => enumerationAt e' _ * _) e').pre ?_
        refine le_trans (le_of_eq ?_) (hadd _)
        ac_rfl
  · have hbluetooth : i.busType = busBluetooth := hbus.resolve_left husb
    rw [if_neg husb, if_neg husb, if_pos hbluetooth, if_pos hbluetooth]
    refine Triple.reorder
      (filledAt e'.curDev raw.devNode (wideText mbstowcs i.serial) i.vendorId i.productId *
        stringAt v.productNameUtf8 (some i.name) *
        (stringAt v.serialNumberUtf8 (some i.serial) * linkedAt e' ds)) (by ac_rfl) ?_
    refine (triple_fillBluetooth A mbstowcs _ _ _ _ i.name _ _).step fun _ => ?_
    refine (Triple.pure (Q := fun e' => enumerationAt e' _ * _) e').pre ?_
    refine le_trans (le_of_eq ?_) (hadd _)
    ac_rfl

/-- One device, once its uevent has been read. -/
theorem triple_enumerateParsed (raw : HidrawDevice) (text : Text) (hraw : raw.hidDev = some (some text))
    (v : UeventInfo) (e : Enumeration) (ds : List ListedDevice) :
    Triple (enumerationAt e ds * ueventAt v (uevent text))
      (enumerateParsed A mbstowcs vendorId productId raw (uevent text).complete v e) fun e' =>
        enumerationAt e' (ds ++ (raw.listed mbstowcs vendorId productId).toList) *
          (stringAt v.serialNumberUtf8 (uevent text).serial *
            stringAt v.productNameUtf8 (uevent text).name * strings (uevent text).lost) := by
  have hlisted : raw.listed mbstowcs vendorId productId =
      (uevent text).identity.bind (Identity.listed mbstowcs vendorId productId raw) := by
    rw [HidrawDevice.listed, HidrawDevice.tells, hraw]
  rw [ueventAt, mul_left_comm]
  refine Triple.of_fact fun hvalues => ?_
  obtain ⟨hid, -, -⟩ := hvalues
  rw [enumerateParsed, hlisted]
  cases hcomplete : (uevent text).complete with
  | false =>
      rw [identity_eq_none hcomplete, Option.bind_none, Option.toList_none, List.append_nil]
      exact Triple.pure (Q := fun e' => enumerationAt e' ds * _) e
  | true =>
      obtain ⟨i, hi, hid', hserial, hname⟩ := exists_identity hcomplete
      rw [hi, Option.bind_some, hserial, hname, hid, hid']
      refine triple_known ?_
      by_cases hbus : i.busType = busUsb ∨ i.busType = busBluetooth
      · rw [if_neg (by tauto)]
        refine triple_known (triple_known ?_)
        by_cases hmatch : (vendorId = 0 ∨ vendorId = i.vendorId) ∧
            (productId = 0 ∨ productId = i.productId)
        · rw [if_pos hmatch, ← mul_assoc]
          refine ((triple_createRecord A mbstowcs vendorId productId raw i v e ds hbus hmatch).frame
            _).post fun e' => ?_
          rw [mul_assoc]
        · rw [if_neg hmatch, Identity.listed, if_neg hmatch, Option.toList_none, List.append_nil]
          exact Triple.pure (Q := fun e' => enumerationAt e' ds * _) e
      · obtain ⟨husb, hbluetooth⟩ := not_or.mp hbus
        have hnone : i.listed mbstowcs vendorId productId raw = none := by
          rw [Identity.listed, if_neg husb, if_neg hbluetooth, ite_self]
        rw [if_pos ⟨husb, hbluetooth⟩, hnone, Option.toList_none, List.append_nil]
        exact Triple.pure (Q := fun e' => enumerationAt e' ds * _) e

/-- **One device.** It adds what is to be said of it, and leaves behind the copies its uevent does. -/
theorem triple_enumerateDevice (raw : HidrawDevice) (hraw : raw.Readable) (e : Enumeration)
    (ds : List ListedDevice) :
    Triple (enumerationAt e ds) (enumerateDevice A mbstowcs vendorId productId raw e) fun e' =>
      enumerationAt e' (ds ++ (raw.listed mbstowcs vendorId productId).toList) *
        strings raw.tells.lost := by
  rw [enumerateDevice]
  cases hdev : raw.hidDev with
  | none =>
      have htells : raw.tells = .start := by rw [HidrawDevice.tells, hdev]
      have hnone : raw.listed mbstowcs vendorId productId = none := by
        rw [HidrawDevice.listed, htells]
        rfl
      rw [hnone, htells, Option.toList_none, List.append_nil]
      refine (Triple.pure (Q := fun e' => enumerationAt e' ds * strings []) e).pre (le_of_eq ?_)
      exact (mul_one _).symm
  | some attr =>
      cases attr with
      | none => exact absurd hdev hraw
      | some text =>
          have htells : raw.tells = uevent text := by rw [HidrawDevice.tells, hdev]
          rw [htells]
          refine (triple_parseUeventInfo A text).call fun r => ?_
          obtain ⟨result, v⟩ := r
          rw [mul_assoc]
          refine Triple.of_fact fun hresult => ?_
          obtain rfl : result = (uevent text).complete := hresult
          rw [mul_comm]
          refine (triple_enumerateParsed A mbstowcs vendorId productId raw text hdev v e ds).bind
            fun e' => ?_
          rw [mul_comm, mul_assoc, mul_assoc]
          refine (triple_free_stringAt _ _).step fun _ => ?_
          rw [one_mul]
          refine (triple_free_stringAt _ _).step fun _ => ?_
          rw [one_mul, mul_comm]
          exact Triple.pure (Q := fun e' => enumerationAt e' _ * strings _) e'

/-- What is to be said of several devices. -/
def listedDevices (devices : List HidrawDevice) : List ListedDevice :=
  devices.filterMap (HidrawDevice.listed mbstowcs vendorId productId)

/-- The copies that their uevents leave behind. -/
def lostStrings (devices : List HidrawDevice) : List Text := devices.flatMap fun raw => raw.tells.lost

/-- The lines of a device's uevent that another with the same string comes after. -/
def HidrawDevice.repeated (raw : HidrawDevice) : Nat :=
  match raw.hidDev with
  | some (some text) =>
      (times "HID_NAME".toList (properties text) - 1) +
        (times "HID_UNIQ".toList (properties text) - 1)
  | _ => 0

theorem length_lostStrings (devices : List HidrawDevice) :
    (lostStrings devices).length = (devices.map HidrawDevice.repeated).sum := by
  rw [lostStrings, List.length_flatMap]
  refine congrArg List.sum (List.map_congr_left fun raw _ => ?_)
  rw [HidrawDevice.tells, HidrawDevice.repeated]
  split
  · exact length_lost _
  · rfl

theorem listedDevices_cons (raw : HidrawDevice) (devices : List HidrawDevice) :
    listedDevices mbstowcs vendorId productId (raw :: devices) =
      (raw.listed mbstowcs vendorId productId).toList ++
        listedDevices mbstowcs vendorId productId devices := by
  rw [listedDevices, List.filterMap_cons]
  cases raw.listed mbstowcs vendorId productId <;> rfl

theorem triple_enumerateDevices {devices : List HidrawDevice} (h : ∀ raw ∈ devices, raw.Readable)
    (e : Enumeration) (ds : List ListedDevice) :
    Triple (enumerationAt e ds) (enumerateDevices A mbstowcs vendorId productId devices e) fun e' =>
      enumerationAt e' (ds ++ listedDevices mbstowcs vendorId productId devices) *
        strings (lostStrings devices) := by
  induction devices generalizing e ds with
  | nil =>
      refine (Triple.pure (Q := fun e' => enumerationAt e' (ds ++ []) * strings []) e).pre ?_
      rw [List.append_nil]
      exact (mul_one _).ge
  | cons raw devices ih =>
      obtain ⟨hraw, hdevices⟩ := List.forall_mem_cons.mp h
      refine (triple_enumerateDevice A mbstowcs vendorId productId raw hraw e ds).bind fun e' => ?_
      refine ((ih hdevices e' _).frame _).post fun e'' => ?_
      rw [listedDevices_cons, List.append_assoc, mul_assoc, mul_comm (strings _), ← strings_append]
      exact le_rfl

/-- A list that has been ended, from its first record on. -/
theorem enumerationAt_le (e : Enumeration) (ds : List ListedDevice) :
    enumerationAt e ds ≤ segment recordAt ds e.root 0 := by
  rcases List.eq_nil_or_concat' ds with rfl | ⟨ds, d, rfl⟩
  · exact fun m hm => ⟨hm.1.1, hm.2⟩
  · rw [enumerationAt_concat]
    exact segment_concat_le ds d _ _ _

/-- What has been printed by a `hid_enumerate`. -/
def enumerationConsole (kernel : Kernel) (udev : Option (List HidrawDevice)) (con : Console) :
    Console :=
  match udev with
  | none => (hidInit kernel con).2.out "Can't create udev\n".toList
  | some _ => (hidInit kernel con).2

/-- **The device list.** From any memory `hid_enumerate` makes a list of what is to be said of the
devices, in their order. Besides it there is nothing new in the memory but the copies left behind. -/
theorem triple_hidEnumerate {kernel : Kernel} {udev : Option (List HidrawDevice)}
    (h : ∀ raw ∈ udev.getD [], raw.Readable) (con : Console) :
    Triple 1 (hidEnumerate A mbstowcs kernel udev vendorId productId con) fun r =>
      fact (r.2 = enumerationConsole kernel udev con) *
        (segment recordAt (listedDevices mbstowcs vendorId productId (udev.getD [])) r.1 0 *
          strings (lostStrings (udev.getD []))) := by
  cases udev with
  | none =>
      have hnone : (fact True : Assertion Block) * (segment recordAt [] 0 0 * strings []) = 1 := by
        rw [fact_of trivial, segment_nil, one_mul]
        exact one_mul 1
      refine (Triple.pure (Q := fun r : Nat × Console => fact (r.2 = enumerationConsole kernel none con)
        * (segment recordAt [] r.1 0 * strings [])) _).pre (hnone.ge.trans ?_)
      exact mul_mono (fun m hm => ⟨rfl, hm.2⟩) le_rfl
  | some devices =>
      have hstart : enumerationAt ⟨0, 0, 0⟩ [] = 1 := fact_of ⟨rfl, rfl⟩
      rw [← hstart]
      refine (triple_enumerateDevices A mbstowcs vendorId productId h ⟨0, 0, 0⟩ []).bind fun e => ?_
      refine (Triple.pure (Q := fun r : Nat × Console => fact (r.2 = (hidInit kernel con).2) * _)
        (e.root, (hidInit kernel con).2)).pre ?_
      rw [fact_mul_of rfl]
      exact mul_mono (enumerationAt_le e _) le_rfl

/-! ### Attributes that are not there -/

theorem fails_parseUeventInfo (P : Assertion Block) : Fails P (parseUeventInfo A none) :=
  (Fails.wrong P (.access 0)).first _

theorem fails_enumerateDevice {raw : HidrawDevice} (hraw : ¬ raw.Readable) (P : Assertion Block)
    (e : Enumeration) :
    Fails P (enumerateDevice A mbstowcs vendorId productId raw e) := by
  rw [enumerateDevice, not_not.mp hraw]
  exact (fails_parseUeventInfo A P).first _

theorem fails_enumerateDevices {devices : List HidrawDevice} (h : ¬ ∀ raw ∈ devices, raw.Readable)
    (e : Enumeration) (ds : List ListedDevice) :
    Fails (enumerationAt e ds) (enumerateDevices A mbstowcs vendorId productId devices e) := by
  induction devices generalizing e ds with
  | nil => exact absurd (fun raw hraw => nomatch hraw) h
  | cons raw devices ih =>
      by_cases hraw : raw.Readable
      · have hdevices : ¬ ∀ raw ∈ devices, raw.Readable :=
          fun hdevices => h (List.forall_mem_cons.mpr ⟨hraw, hdevices⟩)
        refine Fails.later (triple_enumerateDevice A mbstowcs vendorId productId raw hraw e ds)
          fun e' => ?_
        exact (ih hdevices e' _).frame _
      · exact (fails_enumerateDevice A mbstowcs vendorId productId hraw _ e).first _

/-- A HID device without the attribute `uevent` is not expected. -/
theorem fails_hidEnumerate {kernel : Kernel} {udev : Option (List HidrawDevice)}
    (h : ¬ ∀ raw ∈ udev.getD [], raw.Readable) (con : Console) :
    Fails 1 (hidEnumerate A mbstowcs kernel udev vendorId productId con) := by
  cases udev with
  | none => exact absurd (fun raw hraw => nomatch hraw) h
  | some devices =>
      have hstart : enumerationAt ⟨0, 0, 0⟩ [] = 1 := fact_of ⟨rfl, rfl⟩
      rw [← hstart]
      exact (fails_enumerateDevices A mbstowcs vendorId productId h ⟨0, 0, 0⟩ []).first _

end Host

end UT612
