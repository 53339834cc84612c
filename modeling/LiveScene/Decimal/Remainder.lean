import LiveScene.Decimal.Shortest

/-!
# The remainder of two floats

`remainder x y` is `x - n · y` for the whole number `n` next to `x / y` on
the side of zero. It is always a float, so no rounding takes place. It has
the sign of `x`, also when it is zero.
-/

namespace LiveScene.Decimal

/-- The float `r · 2 ^ e`, which must be one. -/
def scaled (r : Nat) (e : Int) : Float := Float.scaleB (Float.ofNat r) e

/-- The remainder of finite magnitudes, as the division of whole multiples
of the smaller of the two units. -/
def remainderOfBinary (x y : Binary) : Float :=
  let unit := min x.exponent y.exponent
  let a := x.significand * Nat.pow 2 (x.exponent - unit).toNat
  let b := y.significand * Nat.pow 2 (y.exponent - unit).toNat
  scaled (a % b) unit

/-- The remainder of two floats; not a number where `x` is infinite or `y` zero. -/
def remainder (x y : Float) : Float :=
  if x.isNaN || y.isNaN || x.isInf || y == 0.0 then 0.0 / 0.0
  else if y.isInf then x
  else
    let r := remainderOfBinary (.ofFloat x) (.ofFloat y)
    if isNegative x then -r else r

end LiveScene.Decimal
