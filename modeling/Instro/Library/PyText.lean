import Instro.Library.PyNumber
import Mathlib.Data.List.DropRight

/-!
# Python text

The methods of `str` on lists of characters. Case mapping and the reading of a `float` rest on the
Unicode tables; they are a parameter.
-/

namespace Instro.Library

abbrev Text := List Char

/-- What the Unicode tables say: the uppercase of a character, of one character or more, and the
number that `float` reads in a text. `float` raises `ValueError` where it reads none. -/
structure PyText where
  upperChar : Char → Text
  float : Text → Option PyFloat

namespace PyText

def upper (py : PyText) (text : Text) : Text := text.flatMap py.upperChar

/-- `float(text)` -/
def toFloat (py : PyText) (text : Text) : Except PyException PyFloat :=
  match py.float text with
  | some x => .ok x
  | none => .error .valueError

/-- `str.isspace` of one character. -/
def isSpace (c : Char) : Bool :=
  c.toNat ∈ [0x09, 0x0a, 0x0b, 0x0c, 0x0d, 0x1c, 0x1d, 0x1e, 0x1f, 0x20, 0x85, 0xa0, 0x1680, 0x2000,
    0x2001, 0x2002, 0x2003, 0x2004, 0x2005, 0x2006, 0x2007, 0x2008, 0x2009, 0x200a, 0x2028, 0x2029,
    0x202f, 0x205f, 0x3000]

def strip (text : Text) : Text := (text.dropWhile isSpace).rdropWhile isSpace

/-- What stands before and after the first separator. -/
def partition (sep : Char) (text : Text) : Text × Text :=
  (text.takeWhile (· ≠ sep), (text.dropWhile (· ≠ sep)).tail)

def removePrefix (c : Char) : Text → Text
  | [] => []
  | d :: text => if d = c then text else d :: text

def join (sep : Char) (parts : List Text) : Text := [sep].intercalate parts

/-- `0123456789` -/
def isDigit (c : Char) : Bool := c.isDigit

/-- `int` of decimal digits. More than 4300 digits are refused. -/
def toInt (digits : Text) : Except PyException ℕ :=
  if 4300 < digits.length then .error .valueError
  else .ok (digits.foldl (fun n c => 10 * n + (c.toNat - '0'.toNat)) 0)

/-- `str` of a natural number. -/
def ofNat (n : ℕ) : Text := (Nat.repr n).toList

end PyText

end Instro.Library
