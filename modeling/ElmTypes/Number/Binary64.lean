namespace ElmTypes

/-- A number of binary64 that is not negative: `significand * 2 ^ scale` times the least positive
one, which is `2 ^ -1074`, or infinity. -/
inductive Binary64 where
  | finite (significand scale : Nat)
  | infinity
deriving DecidableEq

namespace Binary64

def roundHalfEven (num den : Nat) : Nat :=
  if den < 2 * (num % den) || (2 * (num % den) == den && num / den % 2 == 1) then num / den + 1
  else num / den

def ofScaled (significand scale : Nat) : Binary64 :=
  -- only rounding up can give a significand of 54 bits
  if significand = 1 <<< 53 then
    if scale < 2045 then .finite (1 <<< 52) (scale + 1) else .infinity
  else if scale ≤ 2045 then .finite significand scale
  else .infinity

def ofUnits (num den : Nat) : Binary64 :=
  let scale := (num / den).log2 - 52
  ofScaled (roundHalfEven num (den <<< scale)) scale

def digitCount (n : Nat) : Nat := (Nat.toDigits 10 n).length

def ofDecimal (coefficient : Nat) (exponent : Int) : Binary64 :=
  let magnitude := digitCount coefficient + exponent
  -- beyond these powers of ten the digits make no difference
  if coefficient = 0 || magnitude < -330 then .finite 0 0
  else if 310 < magnitude then .infinity
  else
    ofUnits ((coefficient * Nat.pow 10 exponent.toNat) <<< 1074) (Nat.pow 10 (-exponent).toNat)

end Binary64

end ElmTypes
