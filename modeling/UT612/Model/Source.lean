import UT612.Model.Parser
import Mathlib.Logic.Function.Basic

/-!
# Byte sinks and the byte source

The objects behind `IByteSink`, a parser or a file that bytes are saved to, and the part of
`UT612ByteSource` that hands each byte received to all of them: the main loop of `run`, which takes
the bytes out of the reports of the device, and the notification. Sinks are registered by their
addresses, in a set that a loop goes through in the order of the addresses.
-/

namespace UT612

/-- A `ByteStreamToFile`, as the bytes it has put into its file. -/
structure ByteStreamToFile where
  written : List UInt8
  deriving DecidableEq, Repr

def ByteStreamToFile.processByte (byte : UInt8) (f : ByteStreamToFile) : ByteStreamToFile where
  written := f.written ++ [byte]

inductive ByteSink where
  | parser (p : UT612ByteStreamParser)
  | file (f : ByteStreamToFile)
  deriving DecidableEq, Repr

def ByteSink.processByte (now : Nat → TimeOfDay) (byte : UInt8) (con : Console) :
    ByteSink → Except Fault (ByteSink × Console)
  | .parser p => do
      let (p, con) ← UT612.processByte now byte p con
      return (.parser p, con)
  | .file f => return (.file (f.processByte byte), con)

/-- The objects at their addresses. -/
abbrev Heap := Nat → Option ByteSink

/-- `insert` of a `std::set`. -/
def setInsert (a : Nat) : List Nat → List Nat
  | [] => [a]
  | b :: bs => if a < b then a :: b :: bs else if a = b then b :: bs else b :: setInsert a bs

theorem mem_setInsert {a x : Nat} {bs : List Nat} : x ∈ setInsert a bs ↔ x = a ∨ x ∈ bs := by
  induction bs with
  | nil => simp [setInsert]
  | cons b bs ih =>
      simp only [setInsert]
      split_ifs with hlt heq
      · simp
      · simp [heq]
      · simp only [List.mem_cons, ih]
        exact or_left_comm

theorem pairwise_setInsert {a : Nat} {bs : List Nat} (h : bs.Pairwise (· < ·)) :
    (setInsert a bs).Pairwise (· < ·) := by
  induction bs with
  | nil => exact List.pairwise_singleton _ a
  | cons b bs ih =>
      obtain ⟨hb, hbs⟩ := List.pairwise_cons.mp h
      simp only [setInsert]
      split_ifs with hlt heq
      · refine List.pairwise_cons.mpr ⟨fun x hx => ?_, h⟩
        rcases List.mem_cons.mp hx with rfl | hx
        · exact hlt
        · exact Nat.lt_trans hlt (hb x hx)
      · exact h
      · refine List.pairwise_cons.mpr ⟨fun x hx => ?_, ih hbs⟩
        rcases mem_setInsert.mp hx with rfl | hx
        · omega
        · exact hb x hx

structure UT612ByteSource where
  verbose : Bool
  byteSinks : List Nat
  ascending : byteSinks.Pairwise (· < ·)

def newByteSource (verbose : Bool) : UT612ByteSource where
  verbose := verbose
  byteSinks := []
  ascending := .nil

def registerByteSink (sink : Nat) (source : UT612ByteSource) : UT612ByteSource :=
  { source with
    byteSinks := setInsert sink source.byteSinks
    ascending := pairwise_setInsert source.ascending }

def registerAll (sinks : List Nat) (source : UT612ByteSource) : UT612ByteSource :=
  sinks.foldl (fun source sink => registerByteSink sink source) source

/-! ### Notification -/

/-- The loop of `notifyAllByteSinks`. Nothing says what a call through a pointer to no object
does. -/
def notifyByteSinks (now : Nat → TimeOfDay) (byte : UInt8) :
    List Nat → Heap → Console → Except Fault (Heap × Console)
  | [], heap, con => .ok (heap, con)
  | a :: sinks, heap, con =>
      match heap a with
      | none => .error .undefinedRead
      | some sink => do
          let (sink, con) ← sink.processByte now byte con
          notifyByteSinks now byte sinks (Function.update heap a (some sink)) con

def notifyAllByteSinks (now : Nat → TimeOfDay) (byte : UInt8) (source : UT612ByteSource)
    (heap : Heap) (con : Console) : Except Fault (Heap × Console) :=
  notifyByteSinks now byte source.byteSinks heap con

/-! ### The main loop of `run` -/

/-- The size of the array `data`. -/
def dataSize : Nat := 64

/-- What `hid_read_timeout` does in one round: it reports an error, or it puts a report into `data`,
an empty one when the time is over. The array is a new one in each round, and holds nothing after
the report. -/
inductive HidRead where
  | error
  | report (bytes : List UInt8) (le_dataSize : bytes.length ≤ dataSize)
  deriving DecidableEq, Repr

def HidRead.bytes : HidRead → List UInt8
  | .error => []
  | .report bytes _ => bytes

/-- The value that `hid_read_timeout` returns. -/
def HidRead.read : HidRead → Int
  | .error => -1
  | .report bytes _ => bytes.length

/-- The element of `data` at an index. -/
def HidRead.data (r : HidRead) (i : Nat) : Except Fault UInt8 :=
  match r.bytes[i]? with
  | none => .error .undefinedRead
  | some byte => .ok byte

/-- The two messages about a read that brings no report. -/
def warnNoReport (source : UT612ByteSource) (read : Int) (con : Console) : Console :=
  if read = -1 then con.err "\nERROR: hid_read_timeout returned -1\n".toList
  else if read = 0 ∧ source.verbose then
    con.err "\nERROR: timed out calling hid_read_timeout\n".toList
  else con

/-- The message about a length byte that does not go with the size of its report. -/
def warnLength (numUartRxBytes : Nat) (read : Int) (con : Console) : Console :=
  if (numUartRxBytes : Int) ≠ read - 1 then
    con.err ("\nERROR: numUartRxBytes = ".toList ++ putInt numUartRxBytes ++ ", read=".toList ++
      putInt read ++ "\n".toList)
  else con

section Round

variable (now : Nat → TimeOfDay) (source : UT612ByteSource) (read : Int)
  (data : Nat → Except Fault UInt8)

/-- The body of the main loop up to its inner loop, for the value that `hid_read_timeout` has
returned and the elements of `data`: the values that the index of the inner loop is to take, and what
has been printed. -/
def roundStart (con : Console) : Except Fault (List Nat × Console) :=
  let con := warnNoReport source read con
  if 1 < read then do
    let byte ← data 0
    let numUartRxBytes := byte.toNat
    return (List.range numUartRxBytes, warnLength numUartRxBytes read con)
  else return ([], con)

/-- The loop over the bytes of a report, for these values of its index. -/
def forwardLoop : List Nat → Heap → Console → Except Fault (Heap × Console)
  | [], heap, con => .ok (heap, con)
  | i :: indices, heap, con => do
      let byte ← data (i + 1)
      let (heap, con) ← notifyAllByteSinks now byte source heap con
      forwardLoop indices heap con

/-- The body of the main loop, once `hid_read_timeout` has returned. -/
def mainLoopBody (heap : Heap) (con : Console) : Except Fault (Heap × Console) := do
  let (indices, con) ← roundStart source read data con
  forwardLoop now source data indices heap con

end Round

/-- The body of the main loop for what a read does. -/
def mainLoopRound (now : Nat → TimeOfDay) (source : UT612ByteSource) (r : HidRead) (heap : Heap)
    (con : Console) : Except Fault (Heap × Console) :=
  mainLoopBody now source r.read r.data heap con

/-- The main loop, for what the reads do until the user stops it. -/
def mainLoop (now : Nat → TimeOfDay) (source : UT612ByteSource) :
    List HidRead → Heap → Console → Except Fault (Heap × Console)
  | [], heap, con => .ok (heap, con)
  | r :: results, heap, con => do
      let (heap, con) ← mainLoopRound now source r heap con
      mainLoop now source results heap con

/-- What `run` delivers: each byte in turn to all sinks. -/
def deliver (now : Nat → TimeOfDay) (source : UT612ByteSource) :
    List UInt8 → Heap → Console → Except Fault (Heap × Console)
  | [], heap, con => .ok (heap, con)
  | byte :: bytes, heap, con => do
      let (heap, con) ← notifyAllByteSinks now byte source heap con
      deliver now source bytes heap con

end UT612
