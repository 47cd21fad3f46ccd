import ElmTypes.Number.Binary64

namespace ElmTypes

structure Decimal where
  coefficient : Nat
  exponent : Int
deriving DecidableEq

namespace Binary64

def leadingExponent (num den : Nat) : Int :=
  if den ≤ num then digitCount (num / den) - 1 else -digitCount ((den - 1) / num)

def onGrid (significand scale : Nat) (grid : Int) : Option Nat :=
  -- all lengths are in quarters of the least positive number
  let shrink := Nat.pow 10 (-grid).toNat
  let step := Nat.pow 10 grid.toNat <<< 1076
  let value := significand <<< (scale + 2) * shrink
  let above := 1 <<< (scale + 1) * shrink
  -- between a power of two and the number below it the gap is half of the gap above
  let below := if significand = 1 <<< 52 && 0 < scale then 1 <<< scale * shrink else above
  let reads (n : Nat) : Bool :=
    if significand % 2 = 0 then value ≤ n * step + below && n * step ≤ value + above
    else value < n * step + below && n * step < value + above
  let floor := value / step
  match reads floor, reads (floor + 1) with
  | false, false => none
  | true, false => some floor
  | false, true => some (floor + 1)
  | true, true => if 2 * (value % step) < step then some floor else some (floor + 1)

def shortest (significand scale : Nat) : Decimal :=
  let top := leadingExponent (significand <<< scale) (1 <<< 1074) + 1
  let point (k : Nat) : Option Decimal := (onGrid significand scale (top - k)).map (⟨·, top - k⟩)
  -- a grid with seventeen digits always has a point that reads back
  ((List.range 18).findSome? point).getD ⟨0, 0⟩

end Binary64

namespace Decimal

structure Layout where
  least : Int
  below : Int

def positional (digits : List Char) (exponent : Int) : List Char :=
  let zeros (n : Int) := List.replicate n.toNat '0'
  let whole := digits.length + exponent
  if 0 ≤ exponent then digits ++ zeros exponent ++ ['.', '0']
  else if 0 < whole then digits.take whole.toNat ++ '.' :: digits.drop whole.toNat
  else '0' :: '.' :: zeros (-whole) ++ digits

def scientific (digits : List Char) (leading : Int) : List Char :=
  let fraction := digits.drop 1
  digits.take 1 ++ (if fraction.isEmpty then [] else '.' :: fraction)
    ++ 'e' :: (toString leading).toList

def render (layout : Layout) (d : Decimal) : String :=
  let digits := Nat.toDigits 10 d.coefficient
  let leading := d.exponent + digits.length - 1
  if layout.least ≤ leading && leading < layout.below then
    String.ofList (positional digits d.exponent)
  else String.ofList (scientific digits leading)

end Decimal

def Binary64.render (layout : Decimal.Layout) : Binary64 → String
  | .infinity => "inf"
  | .finite significand scale =>
      if significand = 0 then "0.0" else (shortest significand scale).render layout

end ElmTypes
