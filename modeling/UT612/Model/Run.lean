import UT612.Model.Udev

/-!
# The run of the byte source

The methods of `UT612ByteSource` that work with the device: the list of all HID devices, the strings
of an open one, the reports that set up its UART, and `run`, which opens the device and reads from it
until the user stops the program. What the system answers is given.
-/

namespace UT612

open Memory LinkedList

/-- What the locale says of strings: the wide characters at the start of a string, whether they are
all of it, and what `%ls` prints of a wide string. -/
structure Locale where
  convert : Text → Text × Bool
  putWide : Text → Text

/-- `mbstowcs`, with all the room it takes. -/
def Locale.mbstowcs (locale : Locale) (s : Text) : Option Text :=
  if (locale.convert s).2 then some (locale.convert s).1 else none

section Host

variable (A : Allocator Block) (locale : Locale)

/-! ### All devices -/

/-- A string for `%s`. -/
def printfString (a : Nat) : HidProgram Text := if a = 0 then wrong (.access 0) else charsAt a

/-- A wide string for `%ls`. -/
def printfWide (a : Nat) : HidProgram Text :=
  if a = 0 then wrong (.access 0)
  else do
    let s ← wideAt a
    return locale.putWide s

/-- What is printed about a device. -/
def deviceFound (vendorId productId : Nat) (path serialNumber : Text) : Text :=
  "Device Found\n  type: ".toList ++ putPadded 16 4 vendorId ++ " ".toList ++
    putPadded 16 4 productId ++ "\n  path: ".toList ++ path ++ "\n  serial_number: ".toList ++
    serialNumber

def manufacturerLine (manufacturer : Text) : Text :=
  "  Manufacturer: ".toList ++ manufacturer ++ "\n".toList

def productLine (product : Text) : Text := "  Product:      ".toList ++ product ++ "\n".toList

def releaseLine (releaseNumber : Nat) : Text :=
  "  Release:      ".toList ++ Nat.toDigits 16 releaseNumber ++ "\n".toList

def interfaceLine (interfaceNumber : Int) : Text :=
  "  Interface:    ".toList ++ putInt interfaceNumber ++ "\n".toList

/-- The body of the loop of `printAllHidDevices`. -/
def printHidDevice (curDev : Nat) (con : Console) : HidProgram (Option Nat × Console) := do
  let d ← infoAt curDev
  let vendorId ← known d.vendorId
  let productId ← known d.productId
  let path ← known d.path >>= printfString
  let serialNumber ← known d.serialNumber >>= printfWide locale
  let con := con.out (deviceFound vendorId productId path serialNumber)
  let con := con.out "\n".toList
  let manufacturer ← known d.manufacturerString >>= printfWide locale
  let con := con.out (manufacturerLine manufacturer)
  let product ← known d.productString >>= printfWide locale
  let con := con.out (productLine product)
  let releaseNumber ← known d.releaseNumber
  let con := con.out (releaseLine releaseNumber)
  let interfaceNumber ← known d.interfaceNumber
  let con := con.out (interfaceLine interfaceNumber)
  let con := con.out "\n".toList
  let next ← known d.next
  return (some next, con)

def printAllHidDevices (kernel : Kernel) (udev : Option (List HidrawDevice)) (con : Console) :
    HidProgram Console := do
  let con := con.out "\n--- List of all HID devices: ---\n".toList
  let r ← hidEnumerate A locale.mbstowcs kernel udev 0 0 con
  let con ← walk (printHidDevice locale) r.1 r.2
  hidFreeEnumeration r.1
  return con.out "--------------------------------\n".toList

/-! ### The strings of a device -/

inductive DeviceStringId where
  | manufacturer
  | product
  | serial
  deriving DecidableEq, Repr

/-- What libudev tells about the node of an open file: its parents that are a HID device, with the
attribute `uevent`, and a USB device, with the attributes that are asked for. -/
structure DeviceNode where
  hidDev : Option (Option Text)
  usbDev : Option (DeviceStringId → Option Text)

/-- An array of wide characters, of which some have been written. -/
abbrev WideArray := List (Option Char)

/-- `mbstowcs` into an array, as the value of `get_device_string` and the array. -/
def mbstowcsInto (string : WideArray) (s : Text) : Int × WideArray :=
  let all := (locale.convert s).2
  let text := (locale.convert s).1
  let written := (if all then text ++ ['\x00'] else text).take string.length
  (if !all ∧ text.length < string.length then -1 else 0,
    written.map some ++ string.drop written.length)

/-- What `get_device_string` does with the variables that `parse_uevent_info` sets. -/
def deviceString (node : DeviceNode) (key : DeviceStringId) (string : WideArray) (result : Bool)
    (v : UeventInfo) : HidProgram (Int × WideArray) := do
  let busType ← known v.hidId.busType
  if busType = busBluetooth then
    match key with
    | .manufacturer => return (0, string.map fun _ => some '\x00')
    | .product => do
        let s ← printfString v.productNameUtf8
        return mbstowcsInto locale string s
    | .serial => do
        let s ← printfString v.serialNumberUtf8
        return mbstowcsInto locale string s
  else
    match node.usbDev.bind fun attr => attr key with
    | some str => return mbstowcsInto locale string str
    | none => return (if result then 1 else 0, string)

/-- `get_device_string`, as the value it returns and the array. There is no answer when there is no
`udev` object, and there may be no node. -/
def getDeviceString (udev : Option (Option DeviceNode)) (key : DeviceStringId) (string : WideArray)
    (con : Console) : HidProgram ((Int × WideArray) × Console) :=
  match udev with
  | none => pure ((-1, string), con.out "Can't create udev\n".toList)
  | some none => pure ((-1, string), con)
  | some (some node) =>
      match node.hidDev with
      | none => pure ((-1, string), con)
      | some uevent => do
          let p ← parseUeventInfo A uevent
          let r ← deviceString locale node key string p.1 p.2
          free p.2.serialNumberUtf8
          free p.2.productNameUtf8
          return (r, con)

/-- The wide string in an array. -/
def wideIn : WideArray → Except Fault Text
  | [] => .error .undefinedRead
  | none :: _ => .error .undefinedRead
  | some c :: string =>
      if c = '\x00' then .ok []
      else do
        let s ← wideIn string
        return c :: s

/-- The first character of an array. -/
def wideHead (string : WideArray) : Except Fault Char :=
  match string.head?.join with
  | none => .error .undefinedRead
  | some c => .ok c

def warnUnread (name : Text) (res : Int) (con : Console) : Console :=
  if res < 0 then con.err ("Unable to read ".toList ++ name ++ " string\n".toList) else con

/-- One of the strings that `printHidDeviceInfo` reads, into an array that it makes empty first. -/
def readDeviceString (node : DeviceStringId → Option (Option DeviceNode)) (key : DeviceStringId)
    (name : Text) (string : WideArray) (con : Console) : HidProgram (WideArray × Text × Console) := do
  let r ← getDeviceString A locale (node key) key (some '\x00' :: string.drop 1) con
  let s ← evaluate (wideIn r.1.2)
  return (r.1.2, locale.putWide s, warnUnread name r.1.1 r.2)

def manufacturerStringLine (s : Text) : Text := "Manufacturer String: ".toList ++ s ++ "\n".toList

def productStringLine (s : Text) : Text := "Product String: ".toList ++ s ++ "\n".toList

def serialNumberStringLine (c : Char) (s : Text) : Text :=
  "Serial Number String: (".toList ++ putInt c.toNat ++ ") ".toList ++ s ++ "\n".toList

def maxStr : Nat := 255

def printHidDeviceInfo (node : DeviceStringId → Option (Option DeviceNode)) (con : Console) :
    HidProgram Console := do
  let r ← readDeviceString A locale node .manufacturer "manufacturer".toList
    (List.replicate maxStr none) con
  let con := r.2.2.out (manufacturerStringLine r.2.1)
  let r ← readDeviceString A locale node .product "product".toList r.1 con
  let con := r.2.2.out (productStringLine r.2.1)
  let r ← readDeviceString A locale node .serial "serial number".toList r.1 con
  let c ← evaluate (wideHead r.1)
  return r.2.2.out (serialNumberStringLine c r.2.1)

/-! ### The UART -/

def getsetUartConfig : UInt8 := 0x50
def getsetUartEnable : UInt8 := 0x41

/-- An array of 64 bytes with these at its start. -/
def reportOf (bytes : List UInt8) : List UInt8 := bytes ++ List.replicate (dataSize - bytes.length) 0

def uartConfig : List UInt8 :=
  reportOf [getsetUartConfig, 0x00, 0x00, 0x25, 0x80, 0x00, 0x00, 0x03, 0x00]

def uartEnable (enabled : Bool) : List UInt8 :=
  reportOf [getsetUartEnable, if enabled then 1 else 0]

/-- What the UART functions do with the result of a transfer. -/
def warnTransfer (function : Text) (result : Int) (con : Console) : Console :=
  if result = -1 then
    con.err ("\nERROR: ".toList ++ function ++ ": hid device transfer failed!\n".toList)
  else con

/-- `setupUartForUT612`, for what the device answers to a feature report. -/
def setupUartForUT612 (kernel : Kernel) (feature : List UInt8 → IoctlAnswer Unit) (con : Console) :
    Int × Console :=
  let r := hidSendFeatureReport kernel (feature uartConfig) con
  (r.1, warnTransfer "setupUartForUT612".toList r.1 r.2)

def enableUartForUT612 (kernel : Kernel) (feature : List UInt8 → IoctlAnswer Unit) (enabled : Bool)
    (con : Console) : Int × Console :=
  let r := hidSendFeatureReport kernel (feature (uartEnable enabled)) con
  (r.1, warnTransfer "enableUartForUT612".toList r.1 r.2)

/-! ### Reading -/

/-- The answers of the system to one round of the main loop. -/
structure RoundAnswer where
  poll : PollAnswer
  read : ReadAnswer (uninitialized dataSize).length
  deriving DecidableEq, Repr

/-- The element of the array `data` at an index. -/
def dataAt (data : DataArray) (i : Nat) : Except Fault UInt8 :=
  match data[i]?.join with
  | none => .error .undefinedRead
  | some byte => .ok byte

/-- A round of the main loop. -/
def runRound (now : Nat → TimeOfDay) (kernel : Kernel) (kernelVersion : Nat) (dev : HidDevice)
    (source : UT612ByteSource) (answer : RoundAnswer) (heap : Heap) (con : Console) :
    Except Fault (Heap × Console) := do
  let r ← hidReadTimeout kernel kernelVersion dev (uninitialized dataSize) 1000 answer.poll answer.read
  mainLoopBody now source r.1 (dataAt r.2) heap con

/-- The main loop, until the user stops it. -/
def runLoop (now : Nat → TimeOfDay) (kernel : Kernel) (kernelVersion handle : Nat)
    (source : UT612ByteSource) : List RoundAnswer → Heap → Console → HidProgram (Heap × Console)
  | [], heap, con => pure (heap, con)
  | answer :: answers, heap, con => do
      let dev ← deviceAt handle
      let r ← evaluate (runRound now kernel kernelVersion dev source answer heap con)
      runLoop now kernel kernelVersion handle source answers r.1 r.2

/-! ### `run` -/

/-- What the system answers while `run` runs: libudev to `hid_open`, the opening of a file, libudev
to `printAllHidDevices` and to `printHidDeviceInfo`, the device to a feature report, and the reads
until the user stops the program. -/
structure Answers where
  found : Option (List HidrawDevice)
  openFile : Text → OpenAnswer
  foundAgain : Option (List HidrawDevice)
  node : DeviceStringId → Option (Option DeviceNode)
  feature : List UInt8 → IoctlAnswer Unit
  rounds : List RoundAnswer

def vendorIdOfUT612 : Nat := 0x10c4
def productIdOfUT612 : Nat := 0xea80

def unableToConnect : Text :=
  ("ERROR: unable to connect to the UT612 LCR Meter\n" ++
    "The most common problem is that the cp210x kernel module is interfering\n\n" ++
    "If you installed this program using\n" ++
    "sudo make install\n" ++
    "then you should have a file /etc/modprobe.d/blacklist-cp210x.conf blacklisting the VID:PID of" ++
    " your LCR meter.\n").toList

def troubleshooting : Text :=
  ("\nTo be able to troubleshoot any problems, you need to provide the output of a script in the" ++
    " src folder:\ncd src && ./collect_debug_info.sh\n\n").toList

/-- What `run` does when there is no device. -/
def runUnconnected (kernel : Kernel) (answers : Answers) (source : UT612ByteSource) (con : Console) :
    HidProgram Console :=
  let con := con.err unableToConnect
  if source.verbose then do
    let con ← printAllHidDevices A locale kernel answers.foundAgain con
    return con.out troubleshooting
  else return con

/-- What `run` says about a device. -/
def describeDevice (answers : Answers) (source : UT612ByteSource) (con : Console) :
    HidProgram Console :=
  if source.verbose then printHidDeviceInfo A locale answers.node con else pure con

/-- What `run` does with a device. -/
def runConnected (now : Nat → TimeOfDay) (kernel : Kernel) (answers : Answers)
    (source : UT612ByteSource) (handle : Nat) (heap : Heap) (con : Console) :
    HidProgram (Heap × Console) := do
  let con ← describeDevice A locale answers source con
  let _ ← deviceAt handle
  let con := (setupUartForUT612 kernel answers.feature con).2
  let con := (enableUartForUT612 kernel answers.feature true con).2
  let r ← runLoop now kernel (hidInit kernel con).1 handle source answers.rounds heap con
  let _ ← deviceAt handle
  let con := (enableUartForUT612 kernel answers.feature false r.2).2
  let con := con.out "\nKilled by user\n".toList
  hidClose handle
  return (r.1, con)

/-- `run`, as the value it returns, the objects behind the sinks and what has been printed. -/
def run (now : Nat → TimeOfDay) (kernel : Kernel) (answers : Answers) (source : UT612ByteSource)
    (heap : Heap) (con : Console) : HidProgram (Int × Heap × Console) := do
  let con := (hidInit kernel con).2
  let r ← hidOpen A locale.mbstowcs kernel answers.found answers.openFile vendorIdOfUT612
    productIdOfUT612 none con
  if r.1 = 0 then do
    let con ← runUnconnected A locale kernel answers source r.2
    return (1, heap, con)
  else do
    let r ← runConnected A locale now kernel answers source r.1 heap r.2
    return (0, r)

end Host

end UT612
