import UT612.Library.Getopt
import UT612.Model.Main
import UT612.Model.Run

/-!
# The command line

`main`: the options it asks for, what it says about a command line that it does not take, and what it
does with one that it does: it shows the help, reads a file again or starts a session with the device.
What the process meets, from its files to the answers of the device, is given.
-/

namespace UT612

namespace Program

open Memory Getopt

/-- What the process meets. An object with automatic storage is not where `new` puts one. -/
structure Host where
  allocator : Allocator Block
  locale : Locale
  now : Nat → TimeOfDay
  kernel : Kernel
  answers : Answers
  /-- The bytes of a file that can be read. -/
  file : Text → Option (List UInt8)
  /-- Whether a file can be opened for writing. -/
  creates : Text → Bool
  /-- Whether `getopt_long` looks for options behind operands. -/
  permute : Bool
  /-- What `getopt_long` says before it returns `?`. -/
  complaint : Complaint → Text
  /-- The end of the help, behind the options. -/
  notice : Text
  parserAt : Nat
  byteSaverAt : Nat
  ne : parserAt ≠ byteSaverAt

/-- What the process leaves: its exit status, the file that it has written, and its output. -/
structure Outcome where
  status : Int
  saved : Option (Text × List UInt8)
  con : Console
  deriving DecidableEq, Repr

/-! ### Sessions and files -/

/-- The constructor of `ByteStreamToFile`. The error is written to `cerr` too, of which nothing is left
once it is thrown. -/
def newByteStreamToFile (host : Host) (filename : Text) : Except Fault ByteStreamToFile :=
  if host.creates filename then .ok ⟨[]⟩
  else .error (.runtimeError ("ERROR: unable to open file \"".toList ++ filename ++
    "\" for writing!".toList))

/-- The bytes in the file of a byte saver. -/
def savedBytes (heap : Heap) (byteSaverAt : Nat) : List UInt8 :=
  match heap byteSaverAt with
  | some (.file f) => f.written
  | _ => []

/-- `processUSB`, with what `run` does. -/
def processUSB (host : Host) (doPrintHeader verbose : Bool) (binaryDumpFile : Option Text)
    (con : Console) : HidProgram Outcome :=
  match binaryDumpFile with
  | none => do
      let s := setUpUSB doPrintHeader verbose host.parserAt none con
      let r ← run host.allocator host.locale host.now host.kernel host.answers s.1 s.2.1 s.2.2
      return ⟨r.1, none, r.2.2⟩
  | some filename => do
      let _ ← evaluate (newByteStreamToFile host filename)
      let s := setUpUSB doPrintHeader verbose host.parserAt (some host.byteSaverAt) con
      let r ← run host.allocator host.locale host.now host.kernel host.answers s.1 s.2.1 s.2.2
      return ⟨r.1, some (filename, savedBytes r.2.1 host.byteSaverAt), r.2.2⟩

/-- `processFile`. A file that cannot be read has no bytes. -/
def processFile (host : Host) (file : Text) (doPrintHeader : Bool) (con : Console) :
    HidProgram Outcome := do
  let con ← evaluate (UT612.processFile host.now ((host.file file).getD []) doPrintHeader con)
  return ⟨0, none, con⟩

/-! ### Options -/

/-- The variables of `main`. -/
structure Arguments where
  verbose : Bool
  noHeaders : Bool
  printHelp : Bool
  binaryDumpFile : Option Text
  parseBinary : Option Text
  deriving DecidableEq, Repr

def noArguments : Arguments := ⟨false, false, false, none, none⟩

def options : Options where
  optstring := "l:d:p:vnh".toList
  longopts :=
    [⟨"dumpbinary".toList, true, 'd'⟩, ⟨"parsebinary".toList, true, 'p'⟩,
      ⟨"verbose".toList, false, 'v'⟩, ⟨"noheader".toList, false, 'n'⟩, ⟨"help".toList, false, 'h'⟩]

/-- The `switch` over what `getopt_long` returns, for the characters it has a case for. -/
def setArgument (o : Choice) (args : Arguments) : Option Arguments :=
  match o.val with
  | 'd' => some { args with binaryDumpFile := o.optarg }
  | 'p' => some { args with parseBinary := o.optarg }
  | 'v' => some { args with verbose := true }
  | 'n' => some { args with noHeaders := true }
  | 'h' => some { args with printHelp := true }
  | _ => none

def parsingError : Text :=
  "ERROR: error occurred while parsing command line options.\n\n".toList

def unhandledCode (c : Char) : Text :=
  "ERROR: getopt returned unhandled character code ".toList ++ putInt c.toNat ++ "\n\n".toList

def nonOptionArguments (operands : List Text) : Text :=
  "ERROR: non-option arguments provided: ".toList ++
    (operands.flatMap fun operand => "\"".toList ++ operand ++ "\" ".toList) ++ "\n\n".toList

/-- The loop of `main` over the options: the variables and the operands, or what is said on `cerr`
about an error. -/
def readOptions (host : Host) (s : State) (args : Arguments) :
    Except Text (Arguments × List Text) :=
  match _h : getoptLong options host.permute s with
  | (.done, s') => .ok (args, s'.operands)
  | (.complaint c, _) => .error (host.complaint c ++ parsingError)
  | (.choice o, s') =>
      match setArgument o args with
      | some args => readOptions host s' args
      | none => .error (unhandledCode o.val)
termination_by s.size
decreasing_by exact size_getoptLong _h

/-! ### `main` -/

def helpText : Text :=
  ("Usage: ut612 [options]\n" ++
    "\n" ++
    "Running with no arguments will connect to the UT612 LCR Meter.\n" ++
    "This tool should start printing measurement values provided that the meter is\n" ++
    "on, and has USB mode selected (an icon of a small computer screen with an S\n" ++
    "inside it should be visible in the top left corner of the LCR meters display)\n" ++
    "\n" ++
    "OPTIONS:\n" ++
    "--dumpbinary FILENAME   Save raw bytes received over USB (i.e. no timestamps)\n" ++
    "--parsebinary FILENAME  Parse previously saved raw data\n" ++
    "--verbose               Print a lot of debugging information\n" ++
    "--noheader              Do not print/save the measurement data header\n" ++
    "--help                  Show this help message\n" ++
    "\n").toList

def printHelp (host : Host) (con : Console) : Console := con.out (helpText ++ host.notice)

/-- What `main` does with the variables that the options have set. -/
def act (host : Host) (args : Arguments) (con : Console) : HidProgram Outcome :=
  if args.printHelp then pure ⟨0, none, printHelp host con⟩
  else
    match args.parseBinary with
    | some file => processFile host file (!args.noHeaders) con
    | none => processUSB host (!args.noHeaders) args.verbose args.binaryDumpFile con

/-- `main`, for the words behind the name of the program. -/
def main (host : Host) (words : List Text) (con : Console) : HidProgram Outcome :=
  match readOptions host (start words) noArguments with
  | .error message => pure ⟨1, none, printHelp host (con.err message)⟩
  | .ok (args, operands) =>
      if operands ≠ [] then
        pure ⟨1, none, printHelp host (con.err (nonOptionArguments operands))⟩
      else act host args con

end Program

end UT612
