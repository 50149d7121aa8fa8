import InlineComponents.Text.Basic

/-!
# Hexadecimal digits

Digits of base sixteen in either case, single and in groups of four.
-/

namespace InlineComponents.Text

/-- The value of a hexadecimal digit. -/
def hexDigit? (c : Char) : Option Nat :=
  if '0' ≤ c && c ≤ '9' then some (c.toNat - 48)
  else if 'a' ≤ c && c ≤ 'f' then some (c.toNat - 87)
  else if 'A' ≤ c && c ≤ 'F' then some (c.toNat - 55)
  else none

/-- The value of four hexadecimal digits. -/
def hexUnit? (a b c d : Char) : Option Nat := do
  let a ← hexDigit? a
  let b ← hexDigit? b
  let c ← hexDigit? c
  let d ← hexDigit? d
  some (((a * 16 + b) * 16 + c) * 16 + d)

/-- Whether a character is a hexadecimal digit. -/
def isHex (c : Char) : Bool := (hexDigit? c).isSome

/-- The number written by hexadecimal digits. -/
def hexNumber (digits : Text) : Nat :=
  digits.foldl (fun acc c => acc * 16 + (hexDigit? c).getD 0) 0

end InlineComponents.Text
