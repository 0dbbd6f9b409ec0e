import UT612.Proof.Source.Rounds
import UT612.Proof.Udev.Listing

/-!
# The strings of an open device

What `printHidDeviceInfo` prints, as a function of what libudev says of the device. It has no value
where the code uses a value that is not there: a bus that the uevent does not name, a name or serial
number that it lacks, and a string that fills its array and is not ended.
-/

namespace UT612

open Memory Assertion

variable (A : Allocator Block) (locale : Locale)

/-! ### One string -/

/-- What `get_device_string` puts into an array for a uevent. -/
def Uevent.deviceString (u : Uevent) (node : DeviceNode) (key : DeviceStringId)
    (string : WideArray) : Option (Int × WideArray) :=
  u.hidId.busType.bind fun busType =>
    if busType = busBluetooth then
      match key with
      | .manufacturer => some (0, string.map fun _ => some '\x00')
      | .product => u.name.map (mbstowcsInto locale string)
      | .serial => u.serial.map (mbstowcsInto locale string)
    else
      match node.usbDev.bind fun attr => attr key with
      | some str => some (mbstowcsInto locale string str)
      | none => some (if u.complete then 1 else 0, string)

/-- The uevent of an open device, if libudev gets to it. -/
def ueventOf (udev : Option (Option DeviceNode)) : Option (DeviceNode × Option Text) :=
  udev.join.bind fun node => node.hidDev.map fun text => (node, text)

/-- What `get_device_string` comes to. -/
def deviceStringOf (udev : Option (Option DeviceNode)) (key : DeviceStringId) (string : WideArray)
    (con : Console) : Option ((Int × WideArray) × Console) :=
  match ueventOf udev with
  | none => some ((-1, string), if udev.isNone then con.out "Can't create udev\n".toList else con)
  | some (node, text) => text.bind fun text =>
      ((uevent text).deviceString locale node key string).map fun r => (r, con)

/-- The copies that it leaves behind. -/
def lostOf (udev : Option (Option DeviceNode)) : List Text :=
  match ueventOf udev with
  | some (_, some text) => (uevent text).lost
  | _ => []

theorem computes_printfString (a : Nat) (s : Option Text) :
    Computes (stringAt a s) (printfString a) s (stringAt a s) := by
  cases s with
  | none => exact Computes.of_fails (fails_printfString a)
  | some s => exact Computes.of_triple (triple_printfString a s)

theorem computes_mbstowcsInto {P : Assertion Block} {a : Nat} {s : Option Text}
    (hP : stringAt a s ∣ P) (string : WideArray) :
    Computes P (printfString a >>= fun s => pure (mbstowcsInto locale string s))
      (s.map (mbstowcsInto locale string)) P := by
  rw [Option.map_eq_bind]
  exact (Computes.look hP (computes_printfString a s)).bind fun x _ => Computes.pure P _

theorem computes_known {α γ : Type} {P S : Assertion Block} {x : Option α} {f : α → HidProgram γ}
    {g : α → Option γ} (h : ∀ y, x = some y → Computes P (f y) (g y) S) :
    Computes P (known x >>= f) (x.bind g) S := by
  cases x with
  | none => exact Computes.of_fails ((Fails.wrong P .undefined).first f)
  | some y => exact h y rfl

theorem computes_deviceString (node : DeviceNode) (key : DeviceStringId) (string : WideArray)
    (v : UeventInfo) (u : Uevent) :
    Computes (ueventAt v u) (deviceString locale node key string u.complete v)
      (u.deviceString locale node key string) (ueventAt v u) := by
  have hserial : stringAt v.serialNumberUtf8 u.serial ∣ ueventAt v u :=
    ((dvd_mul_right _ _).mul_right _).mul_left _
  have hname : stringAt v.productNameUtf8 u.name ∣ ueventAt v u :=
    ((dvd_mul_left _ _).mul_right _).mul_left _
  refine Computes.of_all (fun m hm => (fact_mul_apply.mp hm).1.1) fun hid => ?_
  unfold deviceString Uevent.deviceString
  rw [hid]
  refine computes_known fun busType _ => ?_
  by_cases hbus : busType = busBluetooth
  · rw [if_pos hbus, if_pos hbus]
    cases key with
    | manufacturer => exact Computes.pure _ _
    | product => exact computes_mbstowcsInto locale hname string
    | serial => exact computes_mbstowcsInto locale hserial string
  · rw [if_neg hbus, if_neg hbus]
    cases node.usbDev.bind fun attr => attr key with
    | none => exact Computes.pure _ _
    | some str => exact Computes.pure _ _

theorem computes_freeStrings (node : DeviceNode) (key : DeviceStringId) (string : WideArray)
    (v : UeventInfo) (u : Uevent) (con : Console) :
    Computes (ueventAt v u)
      (do
        let r ← deviceString locale node key string u.complete v
        free v.serialNumberUtf8
        free v.productNameUtf8
        return (r, con))
      ((u.deviceString locale node key string).map fun r => (r, con)) (strings u.lost) := by
  rw [Option.map_eq_bind]
  refine (computes_deviceString locale node key string v u).bind fun r _ => Computes.of_triple ?_
  rw [ueventAt, mul_assoc (stringAt _ _)]
  refine Triple.of_fact fun _ => ?_
  refine (triple_free_stringAt _ _).step fun _ => ?_
  rw [one_mul]
  refine (triple_free_stringAt _ _).step fun _ => ?_
  rw [one_mul]
  exact Triple.value _ _

/-- `get_device_string` owns nothing when it returns but the copies that it leaves behind. -/
theorem computes_getDeviceString (udev : Option (Option DeviceNode)) (key : DeviceStringId)
    (string : WideArray) (con : Console) :
    Computes 1 (getDeviceString A locale udev key string con)
      (deviceStringOf locale udev key string con) (strings (lostOf udev)) := by
  cases udev with
  | none => exact Computes.pure _ _
  | some node? =>
      cases node? with
      | none => exact Computes.pure _ _
      | some node =>
          obtain ⟨hidDev, usbDev⟩ := node
          cases hidDev with
          | none => exact Computes.pure _ _
          | some text? =>
              cases text? with
              | none => exact Computes.of_fails ((fails_parseUeventInfo A 1).first _)
              | some text =>
                  refine Computes.after (triple_parseUeventInfo A text) fun p => ?_
                  obtain ⟨result, v⟩ := p
                  refine Computes.of_fact fun hresult => ?_
                  obtain rfl : result = (uevent text).complete := hresult
                  exact computes_freeStrings locale _ key string v _ con

/-! ### All three -/

theorem computes_evaluate {α γ : Type} {P S : Assertion Block} {x : Except Fault α}
    {f : α → HidProgram γ} {g : α → Option γ} (h : ∀ y, x = .ok y → Computes P (f y) (g y) S) :
    Computes P (evaluate x >>= f) (x.toOption.bind g) S := by
  cases x with
  | error fault => exact Computes.of_fails (fails_evaluate P fault f)
  | ok y => exact h y rfl

/-- What the reading of a string comes to. -/
def readStringOf (node : DeviceStringId → Option (Option DeviceNode)) (key : DeviceStringId)
    (name : Text) (string : WideArray) (con : Console) : Option (WideArray × Text × Console) :=
  (deviceStringOf locale (node key) key (some '\x00' :: string.drop 1) con).bind fun r =>
    (wideIn r.1.2).toOption.bind fun s =>
      some (r.1.2, locale.putWide s, warnUnread name r.1.1 r.2)

theorem computes_readDeviceString (node : DeviceStringId → Option (Option DeviceNode))
    (key : DeviceStringId) (name : Text) (string : WideArray) (con : Console) :
    Computes 1 (readDeviceString A locale node key name string con)
      (readStringOf locale node key name string con) (strings (lostOf (node key))) := by
  refine (computes_getDeviceString A locale (node key) key _ con).bind fun r _ => ?_
  exact computes_evaluate fun s _ => Computes.pure _ _

/-- What `printHidDeviceInfo` comes to. -/
def deviceInfoOf (node : DeviceStringId → Option (Option DeviceNode)) (con : Console) :
    Option Console :=
  (readStringOf locale node .manufacturer "manufacturer".toList (List.replicate maxStr none)
    con).bind fun r =>
  (readStringOf locale node .product "product".toList r.1
    (r.2.2.out (manufacturerStringLine r.2.1))).bind fun r =>
  (readStringOf locale node .serial "serial number".toList r.1
    (r.2.2.out (productStringLine r.2.1))).bind fun r =>
  (wideHead r.1).toOption.bind fun c => some (r.2.2.out (serialNumberStringLine c r.2.1))

/-- The copies that it leaves behind. -/
def lostOfDevice (node : DeviceStringId → Option (Option DeviceNode)) : List Text :=
  lostOf (node .manufacturer) ++ lostOf (node .product) ++ lostOf (node .serial)

theorem computes_printHidDeviceInfo (node : DeviceStringId → Option (Option DeviceNode))
    (con : Console) :
    Computes 1 (printHidDeviceInfo A locale node con) (deviceInfoOf locale node con)
      (strings (lostOfDevice node)) := by
  rw [lostOfDevice, strings_append, strings_append, mul_assoc, mul_comm, mul_comm (strings _)]
  refine (computes_readDeviceString A locale node .manufacturer _ _ con).bind fun r _ => ?_
  refine (computes_readDeviceString A locale node .product _ r.1 _).call fun r _ => ?_
  refine (computes_readDeviceString A locale node .serial _ r.1 _).call fun r _ => ?_
  refine computes_evaluate fun c _ => ?_
  refine Computes.reorder _ _ rfl ?_ (Computes.pure _ _)
  ac_rfl

/-! ### When they can be printed -/

/-- An array begins with a string that is ended. -/
def Ended (string : WideArray) : Prop :=
  ∃ (s : Text) (rest : WideArray), string = s.map some ++ some '\x00' :: rest

theorem not_ended_nil : ¬ Ended [] := by
  rintro ⟨s, rest, h⟩
  exact List.append_ne_nil_of_right_ne_nil _ (List.cons_ne_nil _ _) h.symm

theorem not_ended_none (string : WideArray) : ¬ Ended (none :: string) := by
  rintro ⟨s, rest, h⟩
  cases s <;> simp at h

theorem ended_cons_iff (c : Char) (string : WideArray) :
    Ended (some c :: string) ↔ c = '\x00' ∨ Ended string := by
  constructor
  · rintro ⟨s, rest, h⟩
    cases s with
    | nil =>
        left
        simpa using (List.cons.inj h).1
    | cons d s => exact .inr ⟨s, rest, (List.cons.inj h).2⟩
  · rintro (rfl | ⟨s, rest, rfl⟩)
    · exact ⟨[], string, rfl⟩
    · exact ⟨c :: s, rest, rfl⟩

/-- Only a string that is ended can be printed. -/
theorem exists_wideIn_eq_ok_iff (string : WideArray) :
    (∃ s, wideIn string = .ok s) ↔ Ended string := by
  induction string with
  | nil => exact iff_of_false (fun h => nomatch h.choose_spec) not_ended_nil
  | cons c? string ih =>
      cases c? with
      | none => exact iff_of_false (fun h => nomatch h.choose_spec) (not_ended_none string)
      | some c =>
          rw [ended_cons_iff, ← ih, wideIn]
          by_cases hc : c = '\x00'
          · rw [if_pos hc]
            exact iff_of_true ⟨[], rfl⟩ (.inl hc)
          · rw [if_neg hc, or_iff_right hc]
            cases wideIn string with
            | error fault =>
                exact iff_of_false (fun h => nomatch h.choose_spec) fun h => nomatch h.choose_spec
            | ok s => exact iff_of_true ⟨c :: s, rfl⟩ ⟨s, rfl⟩

theorem Ended.exists_wideHead {string : WideArray} (h : Ended string) :
    ∃ c, wideHead string = .ok c := by
  obtain ⟨s, rest, rfl⟩ := h
  cases s with
  | nil => exact ⟨'\x00', rfl⟩
  | cons c s => exact ⟨c, rfl⟩

/-- What `get_device_string` uses of the uevent of a device is there: the bus, and for Bluetooth the
name or the serial number, if it is asked for. -/
structure Uevent.Tells (u : Uevent) (key : DeviceStringId) : Prop where
  bus : u.hidId.busType ≠ none
  name : key = .product → u.hidId.busType = some busBluetooth → u.name ≠ none
  serial : key = .serial → u.hidId.busType = some busBluetooth → u.serial ≠ none

/-- An array with a string copied into it, if there is one. -/
def copied (string : WideArray) (s : Option Text) : WideArray :=
  s.elim string fun s => (mbstowcsInto locale string s).2

/-- An array in which one of the strings has been asked for. -/
def Uevent.arrayAfter (u : Uevent) (node : DeviceNode) (key : DeviceStringId) (string : WideArray) :
    WideArray :=
  if u.hidId.busType = some busBluetooth then
    match key with
    | .manufacturer => string.map fun _ => some '\x00'
    | .product => copied locale string u.name
    | .serial => copied locale string u.serial
  else copied locale string (node.usbDev.bind fun attr => attr key)

/-- The uevent tells what is asked for, and the array holds it. -/
theorem Uevent.deviceString_eq_some {u : Uevent} {node : DeviceNode} {key : DeviceStringId}
    {string : WideArray} {r : Int × WideArray}
    (h : u.deviceString locale node key string = some r) :
    u.Tells key ∧ r.2 = u.arrayAfter locale node key string := by
  obtain ⟨busType, hbus, h⟩ := Option.bind_eq_some_iff.mp h
  unfold Uevent.arrayAfter
  rw [hbus]
  by_cases hbluetooth : busType = busBluetooth
  · rw [if_pos hbluetooth] at h
    rw [if_pos (congrArg some hbluetooth)]
    cases key with
    | manufacturer =>
        obtain rfl := Option.some.inj h
        exact ⟨⟨by simp [hbus], nofun, nofun⟩, rfl⟩
    | product =>
        obtain ⟨s, hs, rfl⟩ := Option.map_eq_some_iff.mp h
        exact ⟨⟨by simp [hbus], by simp [hs], nofun⟩, by rw [hs]; rfl⟩
    | serial =>
        obtain ⟨s, hs, rfl⟩ := Option.map_eq_some_iff.mp h
        exact ⟨⟨by simp [hbus], nofun, by simp [hs]⟩, by rw [hs]; rfl⟩
  · rw [if_neg hbluetooth] at h
    have hnot : u.hidId.busType ≠ some busBluetooth := by simpa [hbus] using hbluetooth
    rw [← hbus, if_neg hnot]
    refine ⟨⟨by simp [hbus], fun _ h => absurd h hnot, fun _ h => absurd h hnot⟩, ?_⟩
    cases hattr : node.usbDev.bind fun attr => attr key with
    | none =>
        rw [hattr] at h
        obtain rfl := Option.some.inj h
        rfl
    | some str =>
        rw [hattr] at h
        obtain rfl := Option.some.inj h
        rfl

theorem Uevent.exists_deviceString {u : Uevent} {key : DeviceStringId} (h : u.Tells key)
    (node : DeviceNode) (string : WideArray) :
    ∃ r, u.deviceString locale node key string = some r := by
  obtain ⟨busType, hbus⟩ := Option.ne_none_iff_exists'.mp h.bus
  unfold Uevent.deviceString
  rw [hbus, Option.bind_some]
  by_cases hbluetooth : busType = busBluetooth
  · rw [if_pos hbluetooth]
    rw [hbluetooth] at hbus
    cases key with
    | manufacturer => exact ⟨_, rfl⟩
    | product =>
        obtain ⟨s, hs⟩ := Option.ne_none_iff_exists'.mp (h.name rfl hbus)
        exact ⟨_, congrArg (Option.map (mbstowcsInto locale string)) hs⟩
    | serial =>
        obtain ⟨s, hs⟩ := Option.ne_none_iff_exists'.mp (h.serial rfl hbus)
        exact ⟨_, congrArg (Option.map (mbstowcsInto locale string)) hs⟩
  · rw [if_neg hbluetooth]
    cases node.usbDev.bind fun attr => attr key with
    | none => exact ⟨_, rfl⟩
    | some str => exact ⟨_, rfl⟩

/-- The attribute `uevent` of an open device is there, if libudev gets to a HID device, and tells what
is asked for. -/
structure Known (udev : Option (Option DeviceNode)) (key : DeviceStringId) : Prop where
  attr : ∀ node text?, ueventOf udev = some (node, text?) → text? ≠ none
  tells : ∀ node text, ueventOf udev = some (node, some text) → (uevent text).Tells key

/-- The array of `printHidDeviceInfo` once one of the strings has been asked for. -/
def arrayOf (udev : Option (Option DeviceNode)) (key : DeviceStringId) (string : WideArray) :
    WideArray :=
  match ueventOf udev with
  | some (node, some text) =>
      (uevent text).arrayAfter locale node key (some '\x00' :: string.drop 1)
  | _ => some '\x00' :: string.drop 1

theorem deviceStringOf_eq_some {udev : Option (Option DeviceNode)} {key : DeviceStringId}
    {string : WideArray} {con : Console} {r : (Int × WideArray) × Console}
    (h : deviceStringOf locale udev key (some '\x00' :: string.drop 1) con = some r) :
    Known udev key ∧ r.1.2 = arrayOf locale udev key string := by
  rw [deviceStringOf] at h
  rw [arrayOf]
  cases hudev : ueventOf udev with
  | none =>
      rw [hudev] at h
      obtain rfl := Option.some.inj h
      exact ⟨⟨by simp [hudev], by simp [hudev]⟩, rfl⟩
  | some p =>
      obtain ⟨node, text?⟩ := p
      rw [hudev] at h
      obtain ⟨text, rfl, h⟩ := Option.bind_eq_some_iff.mp h
      obtain ⟨x, hx, rfl⟩ := Option.map_eq_some_iff.mp h
      obtain ⟨htells, harray⟩ := Uevent.deviceString_eq_some locale hx
      refine ⟨⟨fun _ _ h => ?_, fun _ _ h => ?_⟩, harray⟩
      · obtain ⟨rfl, rfl⟩ := Prod.mk.inj (Option.some.inj (hudev.symm.trans h))
        exact Option.some_ne_none _
      · obtain ⟨rfl, htext⟩ := Prod.mk.inj (Option.some.inj (hudev.symm.trans h))
        obtain rfl := Option.some.inj htext
        exact htells

theorem exists_deviceStringOf {udev : Option (Option DeviceNode)} {key : DeviceStringId}
    (h : Known udev key) (string : WideArray) (con : Console) :
    ∃ r, deviceStringOf locale udev key (some '\x00' :: string.drop 1) con = some r := by
  rw [deviceStringOf]
  cases hudev : ueventOf udev with
  | none => exact ⟨_, rfl⟩
  | some p =>
      obtain ⟨node, text?⟩ := p
      obtain ⟨text, rfl⟩ := Option.ne_none_iff_exists'.mp (h.attr node text? hudev)
      obtain ⟨r, hr⟩ := Uevent.exists_deviceString locale (h.tells node text hudev) node
        (some '\x00' :: string.drop 1)
      exact ⟨(r, con), by simp only [Option.bind_some, hr, Option.map_some]⟩

theorem readStringOf_eq_some {node : DeviceStringId → Option (Option DeviceNode)}
    {key : DeviceStringId} {name : Text} {string : WideArray} {con : Console}
    {r : WideArray × Text × Console}
    (h : readStringOf locale node key name string con = some r) :
    Known (node key) key ∧ r.1 = arrayOf locale (node key) key string ∧ Ended r.1 := by
  obtain ⟨x, hx, h⟩ := Option.bind_eq_some_iff.mp h
  obtain ⟨s, hs, h⟩ := Option.bind_eq_some_iff.mp h
  obtain rfl := Option.some.inj h
  obtain ⟨hknown, harray⟩ := deviceStringOf_eq_some locale hx
  refine ⟨hknown, harray, (exists_wideIn_eq_ok_iff _).mp ⟨s, ?_⟩⟩
  cases hwide : wideIn x.1.2 with
  | error fault =>
      rw [hwide] at hs
      exact nomatch hs
  | ok s' =>
      rw [hwide] at hs
      exact congrArg _ (Option.some.inj hs)

theorem exists_readStringOf {node : DeviceStringId → Option (Option DeviceNode)}
    {key : DeviceStringId} {string : WideArray} (h : Known (node key) key)
    (hended : Ended (arrayOf locale (node key) key string)) (name : Text) (con : Console) :
    ∃ s con', readStringOf locale node key name string con =
      some (arrayOf locale (node key) key string, s, con') := by
  obtain ⟨r, hr⟩ := exists_deviceStringOf locale h string con
  have harray := (deviceStringOf_eq_some locale hr).2
  rw [← harray] at hended
  obtain ⟨s, hs⟩ := (exists_wideIn_eq_ok_iff _).mpr hended
  refine ⟨locale.putWide s, warnUnread name r.1.1 r.2, ?_⟩
  rw [readStringOf, hr, Option.bind_some, hs, ← harray]
  rfl

section Describable

variable (node : DeviceStringId → Option (Option DeviceNode))

/-- The arrays after the three strings, each of them copied over what is left of the one before. -/
def manufacturerArray : WideArray :=
  arrayOf locale (node .manufacturer) .manufacturer (List.replicate maxStr none)

def productArray : WideArray := arrayOf locale (node .product) .product (manufacturerArray locale node)

def serialArray : WideArray := arrayOf locale (node .serial) .serial (productArray locale node)

/-- The strings of an open device can be printed: what is used of its uevent is there, and each string
is ended within the array. -/
structure Describable : Prop where
  known : ∀ key, Known (node key) key
  manufacturer : Ended (manufacturerArray locale node)
  product : Ended (productArray locale node)
  serial : Ended (serialArray locale node)

/-- **Strings that can be printed.** -/
theorem isSome_deviceInfoOf (con : Console) :
    (deviceInfoOf locale node con).isSome ↔ Describable locale node := by
  constructor
  · intro h
    obtain ⟨con', h⟩ := Option.isSome_iff_exists.mp h
    obtain ⟨r, hr, h⟩ := Option.bind_eq_some_iff.mp h
    obtain ⟨r', hr', h⟩ := Option.bind_eq_some_iff.mp h
    obtain ⟨r'', hr'', -⟩ := Option.bind_eq_some_iff.mp h
    obtain ⟨hmanufacturer, harray, hended⟩ := readStringOf_eq_some locale hr
    obtain ⟨hproduct, harray', hended'⟩ := readStringOf_eq_some locale hr'
    obtain ⟨hserial, harray'', hended''⟩ := readStringOf_eq_some locale hr''
    rw [harray] at hended harray'
    rw [harray'] at hended' harray''
    rw [harray''] at hended''
    refine ⟨fun key => ?_, hended, hended', hended''⟩
    cases key with
    | manufacturer => exact hmanufacturer
    | product => exact hproduct
    | serial => exact hserial
  · intro h
    obtain ⟨s, con₁, hmanufacturer⟩ := exists_readStringOf locale (h.known .manufacturer)
      h.manufacturer "manufacturer".toList con
    obtain ⟨s', con₂, hproduct⟩ := exists_readStringOf locale (h.known .product) h.product
      "product".toList (con₁.out (manufacturerStringLine s))
    obtain ⟨s'', con₃, hserial⟩ := exists_readStringOf locale (h.known .serial) h.serial
      "serial number".toList (con₂.out (productStringLine s'))
    obtain ⟨c, hc⟩ := h.serial.exists_wideHead
    have hinfo : deviceInfoOf locale node con = some (con₃.out (serialNumberStringLine c s'')) := by
      refine (congrArg (Option.bind · _) hmanufacturer).trans ?_
      refine (congrArg (Option.bind · _) hproduct).trans ?_
      refine (congrArg (Option.bind · _) hserial).trans ?_
      exact congrArg (fun c => Option.bind (Except.toOption c) _) hc
    rw [hinfo]
    rfl

end Describable

end UT612
