/-!
# Reading decimal numbers

The value of digits, and the float nearest to `m · 10 ^ e`.
`toFloat?` has no value where the nearest float would be infinite. Very
large and very small exponents are settled by the number of digits alone,
without computing the power.
-/

namespace LiveScene.Decimal

/-- The value of a row of decimal digits. -/
def value (digits : List Char) : Nat :=
  digits.foldl (fun n c => n * 10 + (c.toNat - '0'.toNat)) 0

/-- The value of a hexadecimal digit. -/
def hexDigit? (c : Char) : Option Nat :=
  if '0' ≤ c ∧ c ≤ '9' then some (c.toNat - '0'.toNat)
  else if 'a' ≤ c ∧ c ≤ 'f' then some (c.toNat - 'a'.toNat + 10)
  else if 'A' ≤ c ∧ c ≤ 'F' then some (c.toNat - 'A'.toNat + 10)
  else none

/-- How many decimal digits a number has. -/
def digitCount (n : Nat) : Nat := (Nat.toDigits 10 n).length

/-- The float nearest to `m · 10 ^ e`, an infinity where it is out of range. -/
def toFloat (negative : Bool) (m : Nat) (e : Int) : Float :=
  let size : Int := digitCount m + e
  let x : Float :=
    if m = 0 ∨ size < -400 then 0.0
    else if 400 < size then Float.ofScientific 1 false 400
    else if 0 ≤ e then Float.ofScientific m false e.toNat
    else Float.ofScientific m true (-e).toNat
  if negative then -x else x

/-- The float nearest to `m · 10 ^ e` if that is finite. -/
def toFloat? (negative : Bool) (m : Nat) (e : Int) : Option Float :=
  let x := toFloat negative m e
  if x.isFinite then some x else none

end LiveScene.Decimal
