import Mathlib.Algebra.Group.Nat.Defs
import Mathlib.Data.List.Basic

/-!
# Text, sizes and faults

What the C++ sources take from the language and its library: `std::string` as the list of its
characters, the insertion operators of an output stream, arithmetic on `size_t` and the conversions
to `int` and `int16_t`, and the ways an evaluation can end without a value.
-/

namespace UT612

/-- A `std::string`. -/
abbrev Text := List Char

/-- How an evaluation ends without a value. -/
inductive Fault where
  /-- `std::runtime_error`, with what it says. -/
  | runtimeError (what : Text)
  /-- `std::out_of_range`, thrown by the members of `std::string`. -/
  | outOfRange
  /-- A read outside a `std::vector`, or of what has not been written or is no object. The language
  gives it no meaning. -/
  | undefinedRead
  deriving DecidableEq, Repr

/-! ### Machine integers -/

/-- `a - b` on two values of type `size_t`: below zero it wraps around at `2 ^ 64`. -/
def sizeSub (a b : Nat) : Nat := if b ≤ a then a - b else a + 2 ^ 64 - b

theorem sizeSub_of_le {a b : Nat} (h : b ≤ a) : sizeSub a b = a - b := if_pos h

theorem sizeSub_of_lt {a b : Nat} (h : a < b) : sizeSub a b = a + 2 ^ 64 - b :=
  if_neg (Nat.not_le.mpr h)

/-- A `size_t` converted to `int`. -/
def sizeToInt (n : UInt64) : Int := (n.toNat : Int).bmod (2 ^ 32)

/-- An `int` converted to `int16_t`. -/
def int16 (n : Nat) : Int := (n : Int).bmod (2 ^ 16)

/-! ### Output -/

/-- `<<` of an `int`. -/
def putInt (n : Int) : Text :=
  if n < 0 then '-' :: Nat.toDigits 10 n.natAbs else Nat.toDigits 10 n.natAbs

/-- `<<` of a `size_t`. -/
def putSize (n : Nat) : Text := Nat.toDigits 10 n

/-- `<<` of a `bool`. -/
def putBool (b : Bool) : Text := if b then ['1'] else ['0']

/-- A number through `printf` in a base, filled with zeros up to a width. -/
def putPadded (base width n : Nat) : Text := (Nat.toDigits base n).leftpad width '0'

/-! ### `std::string` -/

/-- `s.insert(pos, t)`. -/
def stringInsert (s : Text) (pos : Nat) (t : Text) : Except Fault Text :=
  if pos ≤ s.length then .ok (s.take pos ++ t ++ s.drop pos) else .error .outOfRange

end UT612
