import UT612.Model.Source
import UT612.Model.Scan

/-!
# The HID device

The part of `hid.c` that works on a device that has been opened: the search of its report descriptor
for report numbers, and `hid_read_timeout`, which waits for a report and reads it into an array. What
the system calls answer is given; an array element that has not been written has no value.
-/

namespace UT612

/-! ### System calls -/

inductive Errno where
  | eagain
  | einprogress
  | other (number : Nat)
  deriving DecidableEq, Repr

def pollError : UInt16 := 0x08
def pollHangUp : UInt16 := 0x10
def pollInvalid : UInt16 := 0x20

/-- What `poll` answers about one file: `-1`, `0`, or the events of the file. -/
inductive PollAnswer where
  | failed
  | timeout
  | ready (revents : UInt16)
  deriving DecidableEq, Repr

/-- What `read` answers, with an array of a length: `-1`, or the bytes it puts into it. -/
inductive ReadAnswer (length : Nat) where
  | failed (errno : Errno)
  | bytes (bytes : List UInt8) (le_length : bytes.length ≤ length)
  deriving DecidableEq, Repr

/-- What `ioctl` answers: `-1`, or a value and what it has put into its argument. -/
inductive IoctlAnswer (α : Type) where
  | failed (errno : Errno)
  | done (res : Nat) (argument : α)
  deriving DecidableEq, Repr

def IoctlAnswer.res {α : Type} : IoctlAnswer α → Int
  | .failed _ => -1
  | .done res _ => res

/-- What the process gets to know about the machine it runs on: the `release` of `uname`, the macro
`KERNEL_VERSION`, and `strerror`. -/
structure Kernel where
  release : Text
  versionCode : Int → Int → Int → Nat
  strerror : Errno → Text

def perror (kernel : Kernel) (s : Text) (errno : Errno) (con : Console) : Console :=
  con.err (s ++ ": ".toList ++ kernel.strerror errno ++ "\n".toList)

/-! ### The kernel version -/

/-- A number through `%d`. -/
def Subject.int (s : Subject) : Int := s.long.bmod (2 ^ 32)

def detectKernelVersion (kernel : Kernel) (con : Console) : Nat × Console :=
  match sscanf [.integer 10, .literal '.', .integer 10, .literal '.', .integer 10] kernel.release with
  | [major, minor, release] =>
      (kernel.versionCode major.int minor.int release.int % 2 ^ 32, con)
  | _ =>
      match sscanf [.integer 10, .literal '.', .integer 10] kernel.release with
      | [major, minor] => (kernel.versionCode major.int minor.int 0 % 2 ^ 32, con)
      | _ =>
          (0, con.out ("Couldn't determine kernel version from version string \"".toList ++
            kernel.release ++ "\"\n".toList))

/-- `hid_init`, as the new value of `kernel_version`. -/
def hidInit (kernel : Kernel) (con : Console) : Nat × Console := detectKernelVersion kernel con

/-! ### The device -/

structure HidDevice where
  deviceHandle : Int
  blocking : Bool
  usesNumberedReports : Bool
  deriving DecidableEq, Repr

def newHidDevice : HidDevice where
  deviceHandle := -1
  blocking := true
  usesNumberedReports := false

/-- The size of the array that a report descriptor is read into. -/
def hidMaxDescriptorSize : Nat := 4096

/-- The element of an array of bytes. -/
def element (bytes : List UInt8) (i : Nat) : Except Fault UInt8 :=
  match bytes[i]? with
  | none => .error .undefinedRead
  | some byte => .ok byte

/-- The length of the data of a short item. -/
def shortDataLen (key : UInt8) : Nat :=
  match (key &&& 0x3).toNat with
  | 0 => 0
  | 1 => 1
  | 2 => 2
  | 3 => 4
  | _ => 0

/-- How far the next key is from the key at an index. -/
def itemStep (reportDescriptor : List UInt8) (size i : Nat) (key : UInt8) : Except Fault Nat :=
  if key &&& 0xf0 = 0xf0 then
    -- This is a Long Item
    if i + 1 < size then do
      let dataLen ← element reportDescriptor (i + 1)
      return dataLen.toNat + 3
    else .ok (0 + 3)
  else
    -- This is a Short Item
    .ok (shortDataLen key + 1)

/-- The loop of `uses_numbered_reports`, for at most so many rounds. Each takes it at least a byte
on, so that there are never more than the size of the descriptor. The index is an `unsigned int` in
the code; a descriptor has at most 4096 bytes and a step is at most 258, so it does not wrap. -/
def usesNumberedReportsLoop (reportDescriptor : List UInt8) (size : Nat) :
    Nat → Nat → Except Fault Bool
  | 0, _ => .ok false
  | rounds + 1, i =>
      if i < size then do
        let key ← element reportDescriptor i
        if key = 0x85 then return true
        else do
          let step ← itemStep reportDescriptor size i key
          usesNumberedReportsLoop reportDescriptor size rounds (i + step)
      else .ok false

def usesNumberedReports (reportDescriptor : List UInt8) (size : Nat) : Except Fault Bool :=
  usesNumberedReportsLoop reportDescriptor size size 0

/-! ### Reading -/

/-- An array of bytes, of which some have been written. -/
abbrev DataArray := List (Option UInt8)

def uninitialized (length : Nat) : DataArray := List.replicate length none

/-- The bytes that `read` puts at the start of an array. -/
def DataArray.fill (bytes : List UInt8) (data : DataArray) : DataArray :=
  bytes.map some ++ data.drop bytes.length

/-- `memmove(data, data+1, n)`. -/
def DataArray.memmove (n : Nat) (data : DataArray) : Except Fault DataArray :=
  if n + 1 ≤ data.length then .ok ((data.drop 1).take n ++ data.drop n)
  else if n = 0 then .ok data
  else .error .undefinedRead

/-- Whether the first byte of a report is chopped off. -/
def chopsReports (kernel : Kernel) (kernelVersion : Nat) (dev : HidDevice) : Bool :=
  kernelVersion != 0 && kernelVersion < kernel.versionCode 2 6 34 && dev.usesNumberedReports

/-- `hid_read_timeout` once there is something to read. -/
def hidReadBytes (kernel : Kernel) (kernelVersion : Nat) (dev : HidDevice) (data : DataArray)
    (read : ReadAnswer data.length) : Except Fault (Int × DataArray) :=
  match read with
  | .failed errno =>
      let bytesRead : Int := if errno = .eagain ∨ errno = .einprogress then 0 else -1
      if 0 ≤ bytesRead ∧ chopsReports kernel kernelVersion dev then do
        let data ← data.memmove bytesRead.toNat
        return (bytesRead - 1, data)
      else return (bytesRead, data)
  | .bytes bytes _ =>
      let data := data.fill bytes
      if chopsReports kernel kernelVersion dev then do
        let data ← data.memmove bytes.length
        return ((bytes.length : Int) - 1, data)
      else return (bytes.length, data)

/-- `hid_read_timeout`, as the value it returns and the array. -/
def hidReadTimeout (kernel : Kernel) (kernelVersion : Nat) (dev : HidDevice) (data : DataArray)
    (milliseconds : Int) (poll : PollAnswer) (read : ReadAnswer data.length) :
    Except Fault (Int × DataArray) :=
  if 0 ≤ milliseconds then
    match poll with
    | .failed => .ok (-1, data)
    | .timeout => .ok (0, data)
    | .ready revents =>
        if revents &&& (pollError ||| pollHangUp ||| pollInvalid) ≠ 0 then .ok (-1, data)
        else hidReadBytes kernel kernelVersion dev data read
  else hidReadBytes kernel kernelVersion dev data read

/-- `hid_send_feature_report`, as the value it returns. -/
def hidSendFeatureReport (kernel : Kernel) (answer : IoctlAnswer Unit) (con : Console) :
    Int × Console :=
  match answer with
  | .failed errno => (-1, perror kernel "ioctl (SFEATURE)".toList errno con)
  | .done res _ => (res, con)

end UT612
