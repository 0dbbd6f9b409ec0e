import UT612.Proof.Udev.Uevent

/-!
# Records

What a record of the device list is in memory, with the strings it points to, and what the steps
that create one, fill it out or take it off the list do to the part of the memory they own.
-/

namespace UT612

open Memory Assertion LinkedList

/-- A pointer to a wide string, or the null pointer. -/
def wideStringAt (a : Nat) : Option Text → Assertion Block
  | none => fact (a = 0)
  | some s => cell a (Block.wide s)

theorem triple_free_wideStringAt (a : Nat) (s : Option Text) :
    Triple (wideStringAt a s) (free a) fun _ => 1 := by
  cases s with
  | none =>
      refine Triple.of_all (fun m hm => hm.1) fun ha => ?_
      subst ha
      rw [wideStringAt, fact_of rfl]
      exact triple_free_null
  | some s => exact triple_free a (Block.wide s)

theorem triple_wideAt (a : Nat) (s : Text) :
    Triple (wideStringAt a (some s)) (wideAt a) fun t =>
      fact (t = s) * wideStringAt a (some s) :=
  triple_load_as (f := Block.asWide) rfl a

theorem triple_infoAt (a : Nat) (d : HidDeviceInfo) :
    Triple (cell a (Block.info d)) (infoAt a) fun d' =>
      fact (d' = d) * cell a (Block.info d) :=
  triple_load_as (f := Block.asInfo) rfl a

theorem triple_setInfo (a : Nat) (d : HidDeviceInfo) (f : HidDeviceInfo → HidDeviceInfo) :
    Triple (cell a (Block.info d)) (setInfo a f) fun _ => cell a (Block.info (f d)) := by
  rw [← mul_one (cell a (Block.info d))]
  refine (triple_infoAt a d).step_value ?_
  rw [mul_one]
  exact triple_store a (Block.info d) (Block.info (f d))

/-- A field that has been written can be read. -/
theorem triple_known {α γ : Type} {P : Assertion Block} {x : α} {f : α → HidProgram γ}
    {S : γ → Assertion Block} (h : Triple P (f x) S) : Triple P (known (some x) >>= f) S := h

section Host

variable (A : Allocator Block) (mbstowcs : Text → Option Text)

/-- The wide string that is made of a string, an empty one if it has no meaning in the locale. -/
def wideText (s : Text) : Text := (mbstowcs s).getD []

theorem triple_utf8ToWchar (s : Option Text) :
    Triple 1 (utf8ToWchar A mbstowcs s) fun a => wideStringAt a (s.map (wideText mbstowcs)) := by
  cases s with
  | none => exact (Triple.pure (Q := fun a => wideStringAt a none) 0).pre (fact_of rfl).ge
  | some s => exact triple_alloc A (Block.wide (wideText mbstowcs s))

theorem triple_utf8ToWcharAt (a : Nat) (s : Text) :
    Triple (stringAt a (some s)) (utf8ToWcharAt A mbstowcs a) fun b =>
      wideStringAt b (some (wideText mbstowcs s)) * stringAt a (some s) := by
  refine Triple.of_all (fun m hm => hm.1.ne') fun ha => ?_
  rw [utf8ToWcharAt, if_neg ha, stringAt, ← mul_one (cell a (Block.chars s))]
  refine (triple_charsAt a s).step_value ?_
  rw [mul_one, ← one_mul (cell a (Block.chars s))]
  refine ((triple_utf8ToWchar A mbstowcs (some s)).frame _).post fun b => ?_
  rw [one_mul]
  exact le_rfl

theorem triple_strdupOrNull (s : Option Text) :
    Triple 1 (strdupOrNull A s) fun a => stringAt a s := by
  cases s with
  | none => exact (Triple.pure (Q := fun a => stringAt a none) 0).pre (fact_of rfl).ge
  | some s => exact triple_alloc A (Block.chars s)

/-! ### Filling out -/

/-- A record without the strings of its bus. -/
def HidDeviceInfo.filled (path serialNumber devVid devPid : Nat) : HidDeviceInfo :=
  { HidDeviceInfo.unwritten with
    path := some path
    vendorId := some devVid
    productId := some devPid
    serialNumber := some serialNumber
    releaseNumber := some 0
    interfaceNumber := some (-1)
    next := some 0 }

/-- Such a record at the end of the list, with what it points to. -/
def filledAt (a : Nat) (devPath : Option Text) (serial : Text) (devVid devPid : Nat) :
    Assertion Block :=
  exist fun p : Nat × Nat => cell a (Block.info (.filled p.1 p.2 devVid devPid)) *
    (stringAt p.1 devPath * wideStringAt p.2 (some serial))

theorem triple_fillRecord (devPath : Option Text) (serial : Text) (devVid devPid utf8 a : Nat) :
    Triple (cell a (Block.info .unwritten) * stringAt utf8 (some serial))
      (fillRecord A mbstowcs devPath devVid devPid utf8 a) fun _ =>
        filledAt a devPath (wideText mbstowcs serial) devVid devPid * stringAt utf8 (some serial) := by
  refine (triple_setInfo a _ _).step fun _ => ?_
  refine (triple_strdupOrNull A devPath).call fun path => ?_
  rw [mul_left_comm]
  refine (triple_setInfo a _ _).step fun _ => ?_
  refine (triple_setInfo a _ _).step fun _ => ?_
  rw [← mul_assoc, mul_comm]
  refine (triple_utf8ToWcharAt A mbstowcs utf8 serial).step fun serialNumber => ?_
  rw [mul_comm, mul_assoc]
  refine (triple_setInfo a _ _).step fun _ => ?_
  refine ((triple_setInfo a _ _).frame _).post fun _ => ?_
  change cell a (Block.info (.filled path serialNumber devVid devPid)) * _ ≤ _
  rw [← mul_assoc (stringAt path devPath), ← mul_assoc]
  exact mul_mono (le_exist (fun p : Nat × Nat =>
    cell a (Block.info (.filled p.1 p.2 devVid devPid)) * (stringAt p.1 devPath *
      wideStringAt p.2 (some (wideText mbstowcs serial)))) (path, serialNumber)) le_rfl

/-! ### Whole records -/

/-- What the list says of a device. -/
structure ListedDevice where
  path : Option Text
  vendorId : Nat
  productId : Nat
  serialNumber : Text
  releaseNumber : Nat
  manufacturerString : Option Text
  productString : Option Text
  interfaceNumber : Int
  deriving DecidableEq, Repr

structure Pointers where
  path : Nat
  serialNumber : Nat
  manufacturerString : Nat
  productString : Nat

def recordOf (p : Pointers) (d : ListedDevice) (next : Nat) : HidDeviceInfo where
  path := some p.path
  vendorId := some d.vendorId
  productId := some d.productId
  serialNumber := some p.serialNumber
  releaseNumber := some d.releaseNumber
  manufacturerString := some p.manufacturerString
  productString := some p.productString
  interfaceNumber := some d.interfaceNumber
  next := some next

/-- The strings of a record. -/
def pointersAt (p : Pointers) (d : ListedDevice) : Assertion Block :=
  stringAt p.path d.path * wideStringAt p.serialNumber (some d.serialNumber) *
    wideStringAt p.manufacturerString d.manufacturerString *
    wideStringAt p.productString d.productString

/-- A record with its strings and its link. -/
def recordAt (a next : Nat) (d : ListedDevice) : Assertion Block :=
  exist fun p : Pointers => cell a (Block.info (recordOf p d next)) * pointersAt p d

theorem le_recordAt (a next : Nat) (d : ListedDevice) (p : Pointers) :
    cell a (Block.info (recordOf p d next)) * pointersAt p d ≤ recordAt a next d :=
  le_exist (fun p : Pointers => cell a (Block.info (recordOf p d next)) * pointersAt p d) p

theorem record_le (a next : Nat) (d : ListedDevice) (p : Pointers) :
    cell a (Block.info (recordOf p d next)) *
      (wideStringAt p.productString d.productString *
        (wideStringAt p.manufacturerString d.manufacturerString *
          (stringAt p.path d.path * wideStringAt p.serialNumber (some d.serialNumber)))) ≤
      recordAt a next d := by
  refine le_trans (le_of_eq ?_) (le_recordAt a next d p)
  rw [pointersAt]
  ac_rfl

theorem address_of_recordAt (a next : Nat) (d : ListedDevice) (m : Store Block)
    (h : recordAt a next d m) : a ≠ 0 ∧ a ∈ m := by
  obtain ⟨p, m₁, m₂, -, rfl, ⟨hpos, rfl⟩, -⟩ := h
  exact ⟨hpos.ne', Finmap.mem_union.mpr (.inl (mem_single.mpr rfl))⟩

theorem ne_zero_of_recordAt_mul {a next : Nat} {d : ListedDevice} {P : Assertion Block}
    (m : Store Block) (h : (recordAt a next d * P) m) : a ≠ 0 :=
  ne_zero_of_node address_of_recordAt m h

/-- A record of which the pointers are known. -/
def pinnedAt (a next : Nat) (x : Pointers × ListedDevice) : Assertion Block :=
  cell a (Block.info (recordOf x.1 x.2 next)) * pointersAt x.1 x.2

theorem address_of_pinnedAt (a next : Nat) (x : Pointers × ListedDevice) (m : Store Block)
    (h : pinnedAt a next x m) : a ≠ 0 ∧ a ∈ m := address_of_recordAt a next x.2 m ⟨x.1, h⟩

theorem segment_recordAt (ds : List ListedDevice) (a b : Nat) :
    segment recordAt ds a b =
      exist fun ys : {ys : List (Pointers × ListedDevice) // ys.map Prod.snd = ds} =>
        segment pinnedAt ys.1 a b :=
  @segment_exist Block ListedDevice Pointers pinnedAt ds a b

section Factors

variable (a next : Nat) (p : Pointers) (d : ListedDevice)

theorem info_dvd : cell a (Block.info (recordOf p d next)) ∣ pinnedAt a next (p, d) :=
  dvd_mul_right _ _

theorem path_dvd : stringAt p.path d.path ∣ pinnedAt a next (p, d) :=
  (((dvd_mul_right _ _).mul_right _).mul_right _).mul_left _

theorem serialNumber_dvd :
    wideStringAt p.serialNumber (some d.serialNumber) ∣ pinnedAt a next (p, d) :=
  (((dvd_mul_left _ _).mul_right _).mul_right _).mul_left _

theorem manufacturerString_dvd :
    wideStringAt p.manufacturerString d.manufacturerString ∣ pinnedAt a next (p, d) :=
  ((dvd_mul_left _ _).mul_right _).mul_left _

theorem productString_dvd :
    wideStringAt p.productString d.productString ∣ pinnedAt a next (p, d) :=
  (dvd_mul_left _ _).mul_left _

end Factors

theorem triple_setNext (a next next' : Nat) (d : ListedDevice) :
    Triple (recordAt a next d) (setInfo a fun d => { d with next := some next' }) fun _ =>
      recordAt a next' d := by
  refine Triple.of_exist fun p => ?_
  exact ((triple_setInfo a _ _).frame _).post fun _ => le_recordAt a next' d p

section Bus

variable (devPath : Option Text) (serial : Text) (devVid devPid : Nat)

/-- A device on the USB. -/
def UsbDevice.listed (usbDev : UsbDevice) (intfDev : Option (Option Text)) : ListedDevice where
  path := devPath
  vendorId := devVid
  productId := devPid
  serialNumber := wideText mbstowcs serial
  releaseNumber := releaseNumber usbDev.bcdDevice
  manufacturerString := usbDev.manufacturer.map (wideText mbstowcs)
  productString := usbDev.product.map (wideText mbstowcs)
  interfaceNumber := (intfDev.map interfaceNumber).getD (-1)

def bluetoothListed (name : Text) : ListedDevice where
  path := devPath
  vendorId := devVid
  productId := devPid
  serialNumber := wideText mbstowcs serial
  releaseNumber := 0
  manufacturerString := some []
  productString := some (wideText mbstowcs name)
  interfaceNumber := -1

theorem triple_fillUsb (usbDev : UsbDevice) (intfDev : Option (Option Text)) (a : Nat) :
    Triple (filledAt a devPath (wideText mbstowcs serial) devVid devPid)
      (fillUsb A mbstowcs usbDev intfDev a) fun _ =>
        recordAt a 0 (usbDev.listed mbstowcs devPath serial devVid devPid intfDev) := by
  refine Triple.of_exist fun p => ?_
  obtain ⟨path, serialNumber⟩ := p
  refine (triple_utf8ToWchar A mbstowcs usbDev.manufacturer).call fun manufacturer => ?_
  rw [mul_left_comm]
  refine (triple_setInfo a _ _).step fun _ => ?_
  refine (triple_utf8ToWchar A mbstowcs usbDev.product).call fun product => ?_
  rw [mul_left_comm]
  refine (triple_setInfo a _ _).step fun _ => ?_
  refine (triple_setInfo a _ _).step fun _ => ?_
  cases intfDev with
  | none =>
      exact (Triple.pure (Q := fun _ => recordAt a 0 _) ()).pre
        (record_le a 0 (usbDev.listed mbstowcs devPath serial devVid devPid none)
          ⟨path, serialNumber, manufacturer, product⟩)
  | some str =>
      exact ((triple_setInfo a _ _).frame _).post fun _ =>
        record_le a 0 (usbDev.listed mbstowcs devPath serial devVid devPid (some str))
          ⟨path, serialNumber, manufacturer, product⟩

theorem triple_fillBluetooth (name : Text) (utf8 a : Nat) :
    Triple (filledAt a devPath (wideText mbstowcs serial) devVid devPid * stringAt utf8 (some name))
      (fillBluetooth A mbstowcs utf8 a) fun _ =>
        recordAt a 0 (bluetoothListed mbstowcs devPath serial devVid devPid name) *
          stringAt utf8 (some name) := by
  rw [filledAt, exist_mul]
  refine Triple.of_exist fun p => ?_
  obtain ⟨path, serialNumber⟩ := p
  refine (triple_alloc A (Block.wide [])).call fun manufacturer => ?_
  rw [mul_assoc, mul_left_comm]
  refine (triple_setInfo a _ _).step fun _ => ?_
  rw [← mul_assoc, ← mul_assoc, mul_comm]
  refine (triple_utf8ToWcharAt A mbstowcs utf8 name).step fun product => ?_
  rw [mul_comm, mul_assoc, mul_assoc]
  refine ((triple_setInfo a _ _).frame _).post fun _ => ?_
  change cell a (Block.info (recordOf ⟨path, serialNumber, manufacturer, product⟩
    (bluetoothListed mbstowcs devPath serial devVid devPid name) 0)) * _ ≤ _
  refine le_trans (le_of_eq ?_) (mul_mono (le_recordAt a 0
    (bluetoothListed mbstowcs devPath serial devVid devPid name)
    ⟨path, serialNumber, manufacturer, product⟩) le_rfl)
  simp only [pointersAt, bluetoothListed, wideStringAt]
  ac_rfl

end Bus

end Host

end UT612
