/-!
# Surrogate pairs

A character beyond the first 65536 may be written as two code units of sixteen bits: a high
surrogate and a low one. A surrogate that is not half of such a pair stands for no character.
-/

namespace InlineComponents.Text

/-- Whether a code unit is the first of a surrogate pair. -/
def isHighSurrogate (unit : Nat) : Bool := 0xd800 ≤ unit && unit ≤ 0xdbff

/-- Whether a code unit is the second of a surrogate pair. -/
def isLowSurrogate (unit : Nat) : Bool := 0xdc00 ≤ unit && unit ≤ 0xdfff

/-- Whether a code point is kept for one of the two halves of a pair. -/
def isSurrogate (point : Nat) : Bool := isHighSurrogate point || isLowSurrogate point

/-- The code point that a surrogate pair stands for. -/
def joinSurrogates (high low : Nat) : Nat := 0x10000 + (high - 0xd800) * 0x400 + (low - 0xdc00)

end InlineComponents.Text
