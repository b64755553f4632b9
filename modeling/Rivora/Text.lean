import Mathlib.Data.List.Basic

/-! Functions of Go's text packages, on lists of characters. -/

namespace Rivora.Text

/-- White space as `strings.TrimSpace` has it. -/
def isSpace (c : Char) : Bool :=
  c.toNat ∈ [9, 10, 11, 12, 13, 32, 0x85, 0xA0, 0x1680, 0x2028, 0x2029, 0x202f, 0x205f, 0x3000] ||
    (0x2000 ≤ c.toNat && c.toNat ≤ 0x200a)

/-- A text without the white space around it. -/
def trimSpace (s : List Char) : String :=
  String.ofList (((s.dropWhile isSpace).reverse.dropWhile isSpace).reverse)

/-- The text before the first separator and the text behind it. -/
def cut (separator : Char) (s : List Char) : Option (List Char × List Char) :=
  if separator ∈ s then
    some (s.takeWhile (· ≠ separator), (s.dropWhile (· ≠ separator)).tail)
  else none

/-- The number some decimal digits denote. -/
def digitsValue (s : List Char) : Nat := s.foldl (fun n c => n * 10 + (c.toNat - '0'.toNat)) 0

/-- Decimal digits without a sign, up to a largest value. -/
def parseUint (largest : Nat) (s : List Char) : Option Nat :=
  if s ≠ [] ∧ s.all Char.isDigit ∧ digitsValue s ≤ largest then some (digitsValue s) else none

/-- A letter in lower case, where that is a letter of ASCII; others are of no interest. -/
def lower (c : Char) : Char :=
  if c.toNat = 0x130 then 'i' else if c.toNat = 0x212a then 'k' else c.toLower

end Rivora.Text
