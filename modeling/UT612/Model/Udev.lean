import UT612.Library.LinkedList
import UT612.Model.Hid

/-!
# Finding the device

The part of `hid.c` that lists the HID devices in a linked list of records and opens one of them,
as programs over a memory of blocks. What libudev and the system answer is given, and memory does not
run out. A field of a record that has not been written has no value.
-/

namespace UT612

open Memory LinkedList

/-! ### Blocks -/

/-- The `struct hid_device_info`. -/
structure HidDeviceInfo where
  path : Option Nat
  vendorId : Option Nat
  productId : Option Nat
  serialNumber : Option Nat
  releaseNumber : Option Nat
  manufacturerString : Option Nat
  productString : Option Nat
  interfaceNumber : Option Int
  next : Option Nat
  deriving DecidableEq, Repr

/-- A record as `malloc` returns it. -/
def HidDeviceInfo.unwritten : HidDeviceInfo := ⟨none, none, none, none, none, none, none, none, none⟩

inductive Block where
  | chars (s : Text)
  | wide (s : Text)
  | info (d : HidDeviceInfo)
  | device (dev : HidDevice)
  deriving DecidableEq, Repr

abbrev HidProgram := Program Block

/-- The value of a variable or a field. -/
def known {α : Type} : Option α → HidProgram α
  | none => wrong .undefined
  | some x => pure x

def Block.asChars : Block → HidProgram Text
  | .chars s => pure s
  | _ => wrong .undefined

def Block.asWide : Block → HidProgram Text
  | .wide s => pure s
  | _ => wrong .undefined

def Block.asInfo : Block → HidProgram HidDeviceInfo
  | .info d => pure d
  | _ => wrong .undefined

def Block.asDevice : Block → HidProgram HidDevice
  | .device dev => pure dev
  | _ => wrong .undefined

def charsAt (a : Nat) : HidProgram Text := load a >>= Block.asChars

def wideAt (a : Nat) : HidProgram Text := load a >>= Block.asWide

def infoAt (a : Nat) : HidProgram HidDeviceInfo := load a >>= Block.asInfo

def deviceAt (a : Nat) : HidProgram HidDevice := load a >>= Block.asDevice

/-- An assignment to fields of a record. -/
def setInfo (a : Nat) (f : HidDeviceInfo → HidDeviceInfo) : HidProgram Unit := do
  let d ← infoAt a
  store a (.info (f d))

section Host

variable (A : Allocator Block) (mbstowcs : Text → Option Text)

/-- `strdup` of a string that libudev has, or of the null pointer. -/
def strdup : Option Text → HidProgram Nat
  | none => wrong (.access 0)
  | some s => alloc A (.chars s)

/-- `utf8_to_wchar_t` of a string that libudev has, or of the null pointer. -/
def utf8ToWchar : Option Text → HidProgram Nat
  | none => pure 0
  | some utf8 => alloc A (.wide ((mbstowcs utf8).getD []))

/-- `utf8_to_wchar_t` of a string in memory. -/
def utf8ToWcharAt (utf8 : Nat) : HidProgram Nat :=
  if utf8 = 0 then pure 0
  else do
    let s ← charsAt utf8
    utf8ToWchar A mbstowcs (some s)

/-! ### `parse_uevent_info` -/

/-- What has been read of an identity, and whether all of it has. -/
structure HidId where
  busType : Option Nat
  vendorId : Option Nat
  productId : Option Nat
  found : Bool
  deriving DecidableEq, Repr

/-- The variables that `parse_uevent_info` sets, its own and those of its caller. -/
structure UeventInfo where
  hidId : HidId
  serialNumberUtf8 : Nat
  productNameUtf8 : Nat
  foundSerial : Bool
  foundName : Bool
  deriving DecidableEq, Repr

def HidId.start : HidId := ⟨none, none, none, false⟩

def UeventInfo.start : UeventInfo := ⟨.start, 0, 0, false, false⟩

/-- What `strtok_r` finds between line feeds. -/
def lines (s : Text) : List Text := (s.splitOnP (· == '\n')).filter (· ≠ [])

/-- A number through `%x`, or through `%hx` with fewer bits. -/
def Subject.unsigned (bits : Nat) (s : Subject) : Nat := s.unsignedLong % 2 ^ bits

/-- `sscanf(value, "%x:%hx:%hx", bus_type, vendor_id, product_id)`. -/
def scanHidId (value : Text) (id : HidId) : HidId :=
  match sscanf [.integer 16, .literal ':', .integer 16, .literal ':', .integer 16] value with
  | [bus, vendor, product] =>
      { busType := some (bus.unsigned 32)
        vendorId := some (vendor.unsigned 16)
        productId := some (product.unsigned 16)
        found := true }
  | [bus, vendor] =>
      { id with busType := some (bus.unsigned 32), vendorId := some (vendor.unsigned 16) }
  | [bus] => { id with busType := some (bus.unsigned 32) }
  | _ => id

def parseUeventLine (line : Text) (v : UeventInfo) : HidProgram UeventInfo :=
  match line.dropWhile (· ≠ '=') with
  | [] => pure v
  | _ :: value =>
      let key := line.takeWhile (· ≠ '=')
      if key = "HID_ID".toList then pure { v with hidId := scanHidId value v.hidId }
      else if key = "HID_NAME".toList then do
        let name ← alloc A (.chars value)
        return { v with productNameUtf8 := name, foundName := true }
      else if key = "HID_UNIQ".toList then do
        let serial ← alloc A (.chars value)
        return { v with serialNumberUtf8 := serial, foundSerial := true }
      else pure v

def parseUeventLines : List Text → UeventInfo → HidProgram UeventInfo
  | [], v => pure v
  | line :: lines, v => do
      let v ← parseUeventLine A line v
      parseUeventLines lines v

/-- `parse_uevent_info`, as the value it returns and the variables it sets. -/
def parseUeventInfo (uevent : Option Text) : HidProgram (Bool × UeventInfo) := do
  let tmp ← strdup A uevent
  let text ← charsAt tmp
  let v ← parseUeventLines A (lines text) .start
  free tmp
  return (v.hidId.found && v.foundName && v.foundSerial, v)

/-! ### `hid_enumerate` -/

/-- The attributes of a USB device. -/
structure UsbDevice where
  manufacturer : Option Text
  product : Option Text
  bcdDevice : Option Text
  deriving DecidableEq, Repr

/-- What libudev tells about a device of the `hidraw` subsystem: its node, and those of its parents
that are a HID device, with the attribute `uevent`, a USB device, and a USB interface, with the
attribute `bInterfaceNumber`. -/
structure HidrawDevice where
  devNode : Option Text
  hidDev : Option (Option Text)
  usbDev : Option UsbDevice
  intfDev : Option (Option Text)
  deriving DecidableEq, Repr

def busUsb : Nat := 0x03
def busBluetooth : Nat := 0x05

/-- The pointers of `hid_enumerate`. -/
structure Enumeration where
  root : Nat
  curDev : Nat
  prevDev : Nat
  deriving DecidableEq, Repr

/-- Put a new record at the end of the list. -/
def linkRecord (e : Enumeration) : HidProgram Enumeration := do
  let tmp ← alloc A (.info .unwritten)
  if e.curDev ≠ 0 then do
    setInfo e.curDev fun d => { d with next := some tmp }
    return { root := e.root, curDev := tmp, prevDev := e.curDev }
  else return { root := tmp, curDev := tmp, prevDev := e.curDev }

/-- `dev_path? strdup(dev_path): NULL`. -/
def strdupOrNull : Option Text → HidProgram Nat
  | none => pure 0
  | some s => strdup A (some s)

/-- Fill out the record. -/
def fillRecord (devPath : Option Text) (devVid devPid serialNumberUtf8 curDev : Nat) :
    HidProgram Unit := do
  setInfo curDev fun d => { d with next := some 0 }
  let path ← strdupOrNull A devPath
  setInfo curDev fun d => { d with path := some path }
  setInfo curDev fun d => { d with vendorId := some devVid, productId := some devPid }
  let serialNumber ← utf8ToWcharAt A mbstowcs serialNumberUtf8
  setInfo curDev fun d => { d with serialNumber := some serialNumber }
  setInfo curDev fun d => { d with releaseNumber := some 0, interfaceNumber := some (-1) }

/-- Free this device and take it off the list. -/
def dropRecord (e : Enumeration) : HidProgram Enumeration := do
  let d ← infoAt e.curDev
  let serialNumber ← known d.serialNumber
  free serialNumber
  let path ← known d.path
  free path
  free e.curDev
  if e.prevDev ≠ 0 then do
    setInfo e.prevDev fun d => { d with next := some 0 }
    return { e with curDev := e.prevDev }
  else return { e with root := 0, curDev := 0 }

/-- `strtol(str, NULL, 16)` as an `unsigned short`, or zero. -/
def releaseNumber (str : Option Text) : Nat :=
  match str with
  | none => 0
  | some str => (strtol 16 str % 2 ^ 16).toNat

/-- `strtol(str, NULL, 16)` as an `int`, or -1. -/
def interfaceNumber (str : Option Text) : Int :=
  match str with
  | none => -1
  | some str => (strtol 16 str).bmod (2 ^ 32)

def fillUsb (usbDev : UsbDevice) (intfDev : Option (Option Text)) (curDev : Nat) :
    HidProgram Unit := do
  let manufacturer ← utf8ToWchar A mbstowcs usbDev.manufacturer
  setInfo curDev fun d => { d with manufacturerString := some manufacturer }
  let product ← utf8ToWchar A mbstowcs usbDev.product
  setInfo curDev fun d => { d with productString := some product }
  setInfo curDev fun d => { d with releaseNumber := some (releaseNumber usbDev.bcdDevice) }
  match intfDev with
  | none => pure ()
  | some str => setInfo curDev fun d => { d with interfaceNumber := some (interfaceNumber str) }

def fillBluetooth (productNameUtf8 curDev : Nat) : HidProgram Unit := do
  let manufacturer ← alloc A (.wide [])
  setInfo curDev fun d => { d with manufacturerString := some manufacturer }
  let product ← utf8ToWcharAt A mbstowcs productNameUtf8
  setInfo curDev fun d => { d with productString := some product }

/-- VID/PID match. Create the record. -/
def createRecord (raw : HidrawDevice) (v : UeventInfo) (busType devVid devPid : Nat)
    (e : Enumeration) : HidProgram Enumeration := do
  let e ← linkRecord A e
  fillRecord A mbstowcs raw.devNode devVid devPid v.serialNumberUtf8 e.curDev
  if busType = busUsb then
    match raw.usbDev with
    | none => dropRecord e
    | some usbDev => do
        fillUsb A mbstowcs usbDev raw.intfDev e.curDev
        return e
  else if busType = busBluetooth then do
    fillBluetooth A mbstowcs v.productNameUtf8 e.curDev
    return e
  else return e

/-- The body of the loop behind `parse_uevent_info`, up to `next`. -/
def enumerateParsed (vendorId productId : Nat) (raw : HidrawDevice) (result : Bool)
    (v : UeventInfo) (e : Enumeration) : HidProgram Enumeration :=
  if !result then pure e
  else do
    let busType ← known v.hidId.busType
    if busType ≠ busUsb ∧ busType ≠ busBluetooth then return e
    else do
      let devVid ← known v.hidId.vendorId
      let devPid ← known v.hidId.productId
      if (vendorId = 0 ∨ vendorId = devVid) ∧ (productId = 0 ∨ productId = devPid) then
        createRecord A mbstowcs raw v busType devVid devPid e
      else return e

def enumerateDevice (vendorId productId : Nat) (raw : HidrawDevice) (e : Enumeration) :
    HidProgram Enumeration :=
  match raw.hidDev with
  | none => pure e
  | some uevent => do
      let (result, v) ← parseUeventInfo A uevent
      let e ← enumerateParsed A mbstowcs vendorId productId raw result v e
      free v.serialNumberUtf8
      free v.productNameUtf8
      return e

def enumerateDevices (vendorId productId : Nat) :
    List HidrawDevice → Enumeration → HidProgram Enumeration
  | [], e => pure e
  | raw :: devices, e => do
      let e ← enumerateDevice A mbstowcs vendorId productId raw e
      enumerateDevices vendorId productId devices e

/-- `hid_enumerate`, for the devices that libudev finds, or none when there is no `udev` object. -/
def hidEnumerate (kernel : Kernel) (udev : Option (List HidrawDevice)) (vendorId productId : Nat)
    (con : Console) : HidProgram (Nat × Console) :=
  let con := (hidInit kernel con).2
  match udev with
  | none => pure (0, con.out "Can't create udev\n".toList)
  | some devices => do
      let e ← enumerateDevices A mbstowcs vendorId productId devices ⟨0, 0, 0⟩
      return (e.root, con)

/-! ### `hid_free_enumeration` -/

def freeDeviceInfo (d : Nat) (_ : Unit) : HidProgram (Option Nat × Unit) := do
  let info ← infoAt d
  let next ← known info.next
  let path ← known info.path
  free path
  let serialNumber ← known info.serialNumber
  free serialNumber
  let manufacturerString ← known info.manufacturerString
  free manufacturerString
  let productString ← known info.productString
  free productString
  free d
  return (some next, ())

def hidFreeEnumeration (devs : Nat) : HidProgram Unit := walk freeDeviceInfo devs ()

/-! ### `hid_open` -/

/-- What the system answers to `hid_open_path`: the descriptor of the file, the size of the report
descriptor, which has a bound, and its bytes. -/
structure OpenAnswer where
  fd : Int
  descSize : IoctlAnswer (Fin (hidMaxDescriptorSize + 1))
  desc : IoctlAnswer (List UInt8)
  deriving DecidableEq, Repr

/-- The field `size` of a `struct hidraw_report_descriptor`. -/
def OpenAnswer.size (answer : OpenAnswer) : Nat :=
  match answer.descSize with
  | .failed _ => 0
  | .done _ size => size

/-- The array `value` of it. -/
def descriptorValue (desc : List UInt8) : List UInt8 :=
  (desc ++ List.replicate hidMaxDescriptorSize 0).take hidMaxDescriptorSize

def warnDescSize (kernel : Kernel) (answer : OpenAnswer) (con : Console) : Console :=
  match answer.descSize with
  | .failed errno => perror kernel "HIDIOCGRDESCSIZE".toList errno con
  | .done _ _ => con

/-- The report descriptor of an open device, as the field it sets. -/
def readDescriptor (kernel : Kernel) (answer : OpenAnswer) (con : Console) :
    Except Fault (Bool × Console) :=
  let con := warnDescSize kernel answer con
  match answer.desc with
  | .failed errno => return (false, perror kernel "HIDIOCGRDESC".toList errno con)
  | .done _ desc => do
      let numbered ← usesNumberedReports (descriptorValue desc) answer.size
      return (numbered, con)

/-- An evaluation of the code without memory. -/
def evaluate {α : Type} : Except Fault α → HidProgram α
  | .error .undefinedRead => wrong .undefined
  | .error _ => wrong .uncaught
  | .ok x => pure x

/-- `hid_open_path`, as the handle it returns. -/
def hidOpenPath (kernel : Kernel) (openFile : Text → OpenAnswer) (path : Nat) (con : Console) :
    HidProgram (Nat × Console) := do
  let con := (hidInit kernel con).2
  let dev ← alloc A (.device newHidDevice)
  let pathname ← charsAt path
  let answer := openFile pathname
  store dev (.device { newHidDevice with deviceHandle := answer.fd })
  if 0 < answer.fd then do
    let (numbered, con) ← evaluate (readDescriptor kernel answer con)
    store dev (.device
      { newHidDevice with deviceHandle := answer.fd, usesNumberedReports := numbered })
    return (dev, con)
  else do
    free dev
    return (0, con)

/-- The body of the search of `hid_open`. -/
def matchDevice (vendorId productId : Nat) (serialNumber : Option Text) (curDev pathToOpen : Nat) :
    HidProgram (Option Nat × Nat) := do
  let d ← infoAt curDev
  let devVid ← known d.vendorId
  let devPid ← known d.productId
  let next ← known d.next
  if devVid = vendorId ∧ devPid = productId then
    match serialNumber with
    | some serialNumber => do
        let a ← known d.serialNumber
        let serial ← wideAt a
        if serialNumber = serial then do
          let path ← known d.path
          return (none, path)
        else return (some next, pathToOpen)
    | none => do
        let path ← known d.path
        return (none, path)
  else return (some next, pathToOpen)

/-- The opening of the device, if there is a path. -/
def openDevice (kernel : Kernel) (openFile : Text → OpenAnswer) (pathToOpen : Nat)
    (con : Console) : HidProgram (Nat × Console) :=
  if pathToOpen ≠ 0 then hidOpenPath A kernel openFile pathToOpen con else pure (0, con)

def hidOpen (kernel : Kernel) (udev : Option (List HidrawDevice)) (openFile : Text → OpenAnswer)
    (vendorId productId : Nat) (serialNumber : Option Text) (con : Console) :
    HidProgram (Nat × Console) := do
  let (devs, con) ← hidEnumerate A mbstowcs kernel udev vendorId productId con
  let pathToOpen ← walk (matchDevice vendorId productId serialNumber) devs 0
  let (handle, con) ← openDevice A kernel openFile pathToOpen con
  hidFreeEnumeration devs
  return (handle, con)

def hidClose (dev : Nat) : HidProgram Unit :=
  if dev = 0 then pure ()
  else do
    let _ ← deviceAt dev
    free dev

end Host

end UT612
