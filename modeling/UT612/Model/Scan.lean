import UT612.Model.Text

/-!
# Reading numbers

What the C sources take from `sscanf` and `strtol`: white space, a sign and the digits of a base,
before base 16 digits an optional `0x`, and formats made of such numbers and of characters that have
to be there.
-/

namespace UT612

/-- `isspace` in the C locale. -/
def isSpace (c : Char) : Bool :=
  c == ' ' || c == '\t' || c == '\n' || c == '\x0b' || c == '\x0c' || c == '\r'

def digitValue (base : Nat) (c : Char) : Option Nat :=
  let value? :=
    if '0' ≤ c ∧ c ≤ '9' then some (c.toNat - '0'.toNat)
    else if 'a' ≤ c ∧ c ≤ 'z' then some (c.toNat - 'a'.toNat + 10)
    else if 'A' ≤ c ∧ c ≤ 'Z' then some (c.toNat - 'A'.toNat + 10)
    else none
  value?.filter fun value => value < base

/-- The digits at the start of a text, read on from a number, and what is behind them. -/
def scanDigits (base : Nat) (n : Nat) : Text → Nat × Text
  | [] => (n, [])
  | c :: text =>
      match digitValue base c with
      | some d => scanDigits base (base * n + d) text
      | none => (n, c :: text)

/-- The number at the start of a text, as `strtol` and the conversions of `sscanf` take it. -/
structure Subject where
  negative : Bool
  magnitude : Nat
  rest : Text
  deriving DecidableEq, Repr

/-- The digits of a number, of which there has to be one. -/
def scanMagnitude (base : Nat) (negative : Bool) (text : Text) : Option Subject :=
  match text.head?.bind (digitValue base) with
  | none => none
  | some _ => some ⟨negative, (scanDigits base 0 text).1, (scanDigits base 0 text).2⟩

/-- The prefix of a number to base 16. -/
def scanPrefix (base : Nat) (text : Text) : Text :=
  match base, text with
  | 16, '0' :: x :: text => if x = 'x' ∨ x = 'X' then text else '0' :: x :: text
  | _, text => text

def scanSubject (base : Nat) (text : Text) : Option Subject :=
  match text.dropWhile isSpace with
  | '-' :: text => scanMagnitude base true (scanPrefix base text)
  | '+' :: text => scanMagnitude base false (scanPrefix base text)
  | text => scanMagnitude base false (scanPrefix base text)

/-- The value as a `long`, which it is cut off at the ends of. -/
def Subject.long (s : Subject) : Int :=
  if s.negative then -((if 2 ^ 63 ≤ s.magnitude then 2 ^ 63 else s.magnitude : Nat) : Int)
  else ((if 2 ^ 63 ≤ s.magnitude then 2 ^ 63 - 1 else s.magnitude : Nat) : Int)

/-- The value as an `unsigned long`. -/
def Subject.unsignedLong (s : Subject) : Nat :=
  if 2 ^ 64 ≤ s.magnitude then 2 ^ 64 - 1
  else if s.negative then (2 ^ 64 - s.magnitude) % 2 ^ 64 else s.magnitude

/-- `strtol(str, NULL, base)`. -/
def strtol (base : Nat) (str : Text) : Int :=
  match scanSubject base str with
  | none => 0
  | some s => s.long

/-! ### `sscanf` -/

inductive Directive where
  | literal (c : Char)
  | integer (base : Nat)
  deriving DecidableEq, Repr

/-- The numbers that `sscanf` converts before the text or the format ends or the text does not go
with the format. -/
def sscanf : List Directive → Text → List Subject
  | [], _ => []
  | .literal _ :: _, [] => []
  | .literal c :: format, d :: text => if d = c then sscanf format text else []
  | .integer base :: format, text =>
      match scanSubject base text with
      | none => []
      | some s => s :: sscanf format s.rest

end UT612
