import UT612.Model.Source

/-!
# The program

What `main.cpp` does with the parser: `process` and `processFile` read saved bytes again, and
`processUSB` sets up a live session, with a parser that also prints the time and, if it is asked
for, a file that the bytes are saved to.
-/

namespace UT612

def sizeLine (data : List UInt8) : Text :=
  "SIZE: ".toList ++ putSize data.length ++ " bytes\n".toList

/-- The variables of the loop of `process`: the index, the parser and what has been printed. -/
structure LoopState where
  i : Nat
  p : UT612ByteStreamParser
  con : Console

/-- The variables before the loop: the size has been printed, and what a new parser prints. -/
def loopStart (data : List UInt8) (doPrintHeader : Bool) (con : Console) : LoopState :=
  let con := con.out (sizeLine data)
  -- Simulate stream processing
  let (p, con) := newParser doPrintHeader false con
  ⟨0, p, con⟩

/-- The bound of the index, `data.size() - 2`. -/
def loopBound (data : List UInt8) : Nat := sizeSub data.length 2

/-- One round of the loop: the byte at the index goes to the parser. -/
def processRound (now : Nat → TimeOfDay) (data : List UInt8) (s : LoopState) :
    Except Fault LoopState :=
  match data[s.i]? with
  | none => .error .undefinedRead
  | some byte => do
      let (p, con) ← processByte now byte s.p s.con
      return ⟨s.i + 1, p, con⟩

/-- The loop of `process`, for as many rounds as its bound leaves. -/
def processLoop (now : Nat → TimeOfDay) (data : List UInt8) :
    Nat → LoopState → Except Fault LoopState
  | 0, s => .ok s
  | rounds + 1, s => do
      let s ← processRound now data s
      processLoop now data rounds s

def process (now : Nat → TimeOfDay) (data : List UInt8) (doPrintHeader : Bool) (con : Console) :
    Except Fault Console := do
  let s ← processLoop now data (loopBound data) (loopStart data doPrintHeader con)
  return s.con

/-- `processFile`, for a file with these bytes. -/
def processFile (now : Nat → TimeOfDay) (file : List UInt8) (doPrintHeader : Bool) (con : Console) :
    Except Fault Console :=
  if file.length ≠ 0 then process now file doPrintHeader con else .ok con

/-- What `processUSB` has set up when it calls `run`: the objects, the source that knows them, and
the header on `cout`. The parser and the file, if there is one, are at the given addresses. -/
def setUpUSB (doPrintHeader verbose : Bool) (parserAt : Nat) (byteSaverAt : Option Nat)
    (con : Console) : UT612ByteSource × Heap × Console :=
  let (parser, con) := newParser doPrintHeader true con
  let heap : Heap := Function.update (fun _ => none) parserAt (some (.parser parser))
  let source := registerByteSink parserAt (newByteSource verbose)
  match byteSaverAt with
  | none => (source, heap, con)
  | some a => (registerByteSink a source, Function.update heap a (some (.file ⟨[]⟩)), con)

/-- `processUSB`, for the bytes that `run` delivers. -/
def processUSB (now : Nat → TimeOfDay) (doPrintHeader verbose : Bool) (parserAt : Nat)
    (byteSaverAt : Option Nat) (delivered : List UInt8) (con : Console) :
    Except Fault (Heap × Console) :=
  let (source, heap, con) := setUpUSB doPrintHeader verbose parserAt byteSaverAt con
  deliver now source delivered heap con

end UT612
