import UT612.Model.Decoder

/-!
# The stream parser

The class `UT612ByteStreamParser`: what it remembers between two bytes, its constructor, the column
header, the clock it reads, and `processByte`, which collects bytes into frames and prints one line
for each. The two output streams of the process are an explicit state, the `Console`.
-/

namespace UT612

/-- The output streams of the process, each as the text written to it so far, and the number of
times the clock has been read. -/
structure Console where
  cout : Text
  cerr : Text
  clockReads : Nat
  deriving DecidableEq, Repr

def Console.empty : Console := ⟨[], [], 0⟩

def Console.out (con : Console) (text : Text) : Console := { con with cout := con.cout ++ text }

def Console.err (con : Console) (text : Text) : Console := { con with cerr := con.cerr ++ text }

/-! ### The clock -/

/-- What the operating system tells one call of `getCurrentTime`: the microseconds of `gettimeofday`
and the date and time that `strftime` writes, which there is none of when `localtime_r` fails. -/
structure TimeOfDay where
  localtime : Option Text
  usec : Nat
  deriving DecidableEq, Repr

def getCurrentTime (now : TimeOfDay) : Except Fault Text :=
  match now.localtime with
  | none => .error (.runtimeError "call to localtime_r failed".toList)
  | some result => .ok (result ++ ".".toList ++ putPadded 10 3 (now.usec / 1000))

/-- The answers of the operating system to the successive calls, all of them with a time that
`localtime_r` can convert. -/
structure Clock where
  now : Nat → TimeOfDay
  text : Nat → Text
  getCurrentTime_now : ∀ n, getCurrentTime (now n) = .ok (text n)

/-- A clock that has stopped. -/
def Clock.stopped : Clock where
  now _ := ⟨some "2016-01-10 12:00:00".toList, 250000⟩
  text _ := "2016-01-10 12:00:00.250".toList
  getCurrentTime_now _ := by decide +kernel

/-! ### The parser -/

structure UT612ByteStreamParser where
  doTimestamp : Bool
  frameInProgress : Bool
  lastByteWasCarriageReturn : Bool
  byteCount : UInt64
  lastFrameByteCount : UInt64
  frameCount : UInt64
  buffer : List UInt8
  deriving DecidableEq, Repr

def getColumnHeader (doTimestamp : Bool) : Text :=
  "NO\t".toList ++ (if doTimestamp then "Time\t".toList else []) ++
    "MMode\tMValue\tMUnit\tSMode\tSValue\tSUnit\tFreq".toList

/-- The parser as constructed, before its first byte. -/
def freshParser (doTimestamp : Bool) : UT612ByteStreamParser where
  doTimestamp := doTimestamp
  frameInProgress := false
  lastByteWasCarriageReturn := false
  byteCount := 0
  lastFrameByteCount := 0
  frameCount := 0
  buffer := []

/-- The constructor: the fresh parser, after printing the header if it is asked for. -/
def newParser (doPrintHeader doTimestamp : Bool) (con : Console) : UT612ByteStreamParser × Console :=
  (freshParser doTimestamp,
    if doPrintHeader then con.out (getColumnHeader doTimestamp ++ "\n".toList) else con)

def convert2HexString (data : List UInt8) : Text :=
  "\x7b".toList ++
    ", ".toList.intercalate (data.map fun byte => "0x".toList ++ putPadded 16 2 byte.toNat) ++
    "\x7d".toList

/-- What `processByte` says on `cerr` about a frame that is not `frameSize` bytes after the one
before it. -/
def alignmentWarning (bytesSinceLastFrame : Int) : Text :=
  "\nERROR - FRAME ALIGNMENT ERROR (diff=".toList ++ putInt bytesSinceLastFrame ++ ")\n".toList

/-- What `processByte` says on `cerr` about a frame that `processFrame` throws at. -/
def rejectionMessage (what : Text) (frame : List UInt8) : Text :=
  "Exception: \"".toList ++ what ++ "\"\n".toList ++
    "Offending bytes: ".toList ++ convert2HexString frame ++ "\n".toList

/-- The body of `processByte` once a frame has ended, with the byte counted and in the buffer. -/
def endFrame (now : Nat → TimeOfDay) (p : UT612ByteStreamParser) (con : Console)
    (h : frameSize ≤ p.buffer.length) : Except Fault (UT612ByteStreamParser × Console) := do
  -- Warn on frame alignment errors
  let bytesSinceLastFrame := sizeToInt (p.byteCount - p.lastFrameByteCount)
  let con := if bytesSinceLastFrame ≠ frameSize then con.err (alignmentWarning bytesSinceLastFrame)
    else con
  -- Process the frame
  let con := con.out (putSize p.frameCount.toNat ++ "\t".toList)
  let con ←
    if p.doTimestamp then do
      let time ← getCurrentTime (now con.clockReads)
      pure ({ con with clockReads := con.clockReads + 1 }.out (time ++ "\t".toList))
    else pure con
  let con ←
    match processFrame p.buffer (p.buffer.length - frameSize) (Nat.le_of_eq (Nat.sub_add_cancel h)) with
    | .ok values => pure (con.out values)
    | .error (.runtimeError what) =>
        pure (con.err (rejectionMessage what (p.buffer.drop (p.buffer.length - frameSize))))
    | .error fault => throw fault
  let con := con.out "\n".toList
  return ({ p with
    lastFrameByteCount := p.byteCount, frameCount := p.frameCount + 1, buffer := [] }, con)

def processByte (now : Nat → TimeOfDay) (byte : UInt8) (p : UT612ByteStreamParser) (con : Console) :
    Except Fault (UT612ByteStreamParser × Console) := do
  let currentByteIsLinefeed := byte == 0x0a
  let frameIsEnding := p.lastByteWasCarriageReturn && currentByteIsLinefeed
  let counted := { p with byteCount := p.byteCount + 1, buffer := p.buffer ++ [byte] }
  let (p, con) ←
    if h : frameIsEnding ∧ frameSize ≤ counted.buffer.length then endFrame now counted con h.2
    else pure (counted, con)
  return ({ p with lastByteWasCarriageReturn := byte == 0x0d }, con)

/-- A caller's loop: each byte in turn through `processByte`. -/
def processBytes (now : Nat → TimeOfDay) :
    List UInt8 → UT612ByteStreamParser → Console → Except Fault (UT612ByteStreamParser × Console)
  | [], p, con => .ok (p, con)
  | byte :: bytes, p, con => do
      let (p, con) ← processByte now byte p con
      processBytes now bytes p con

end UT612
