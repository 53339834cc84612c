import LiveScene.Decimal.Shortest

/-!
# How the digits of a float are laid out

A `Layout` says from where to where numbers are written positionally and
how the exponent form looks. `Layout.write` lays out the shortest digits of
any float in that way. A positional number always shows a fraction.
-/

namespace LiveScene.Decimal

/-- The choices of one way to write floats. -/
structure Layout where
  /-- Whether a magnitude is written without exponent. -/
  positional : Float → Digits → Bool
  /-- Whether a positive exponent shows its sign. -/
  plusSign : Bool
  /-- The least number of digits of an exponent. -/
  exponentWidth : Nat
  /-- The text of zero with the given sign. -/
  zero : Bool → String
  /-- The text of what is not a number. -/
  nan : String
  /-- The text of an infinity with the given sign. -/
  infinity : Bool → String

/-- The digits in positional notation. -/
def positionalText (d : Digits) : List Char :=
  if d.power < 0 then
    ['0', '.'] ++ List.replicate ((-d.power).toNat - 1) '0' ++ d.digits
  else
    let whole := d.power.toNat + 1
    let padded := d.digits ++ List.replicate (whole - d.digits.length) '0'
    let fraction := padded.drop whole
    padded.take whole ++ '.' :: (if fraction = [] then ['0'] else fraction)

/-- The digits in exponent notation. -/
def exponentText (l : Layout) (d : Digits) : List Char :=
  let e := Nat.toDigits 10 d.power.natAbs
  let padded := List.replicate (l.exponentWidth - e.length) '0' ++ e
  let sign := if d.power < 0 then ['-'] else if l.plusSign then ['+'] else []
  let mantissa := match d.digits with
    | [] => ['0']
    | [c] => [c]
    | c :: rest => c :: '.' :: rest
  mantissa ++ 'e' :: sign ++ padded

/-- The text of a float. -/
def Layout.write (l : Layout) (x : Float) : String :=
  if x.isNaN then l.nan
  else if x.isInf then l.infinity (isNegative x)
  else if x.toBits.toNat % Nat.pow 2 63 = 0 then l.zero (isNegative x)
  else
    let d := shortest x
    let body := if l.positional x d then positionalText d else exponentText l d
    String.ofList (if d.negative then '-' :: body else body)

end LiveScene.Decimal
