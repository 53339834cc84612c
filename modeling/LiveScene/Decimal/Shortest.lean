import LiveScene.Decimal.Reading

/-!
# The fewest digits that read back

`shortest` gives a finite float other than zero as a sign, a row of digits
and the power of ten of the first digit: the shortest row whose value lies
in the interval of reals that round to the float, and of two such rows the
nearer one. All comparisons are exact, on fractions of naturals.

The ends of the interval belong to it when the float's significand is even.
Below a power of two the floats lie closer together, so the lower half of
the interval is half as wide there.
-/

namespace LiveScene.Decimal

/-- A finite float as `significand · 2 ^ exponent`, without its sign. -/
structure Binary where
  significand : Nat
  exponent : Int

/-- The significand and exponent of a finite float's magnitude. -/
def Binary.ofFloat (x : Float) : Binary :=
  let bits := x.toBits.toNat
  let e := bits / Nat.pow 2 52 % Nat.pow 2 11
  let f := bits % Nat.pow 2 52
  if e = 0 then ⟨f, -1074⟩ else ⟨f + Nat.pow 2 52, Int.ofNat e - 1075⟩

/-- Whether the sign bit is set. -/
def isNegative (x : Float) : Bool := Nat.pow 2 63 ≤ x.toBits.toNat

/-- The reals that round to a float, as numerators over one denominator. -/
structure Interval where
  low : Nat
  value : Nat
  high : Nat
  denominator : Nat
  closed : Bool

/-- The interval of a float with significand `m` and exponent `q`. -/
def Interval.ofBinary (b : Binary) : Interval :=
  let m := b.significand
  let below := if m = Nat.pow 2 52 ∧ -1074 < b.exponent then 1 else 2
  let q := b.exponent - 2
  let scale := Nat.pow 2 q.toNat
  ⟨(4 * m - below) * scale, 4 * m * scale, (4 * m + 2) * scale, Nat.pow 2 (-q).toNat, m % 2 = 0⟩

/-- Whether `n / d` lies in the interval. -/
def Interval.holds (i : Interval) (n d : Nat) : Bool :=
  let lo := i.low * d
  let hi := i.high * d
  let at' := n * i.denominator
  if i.closed then lo ≤ at' && at' ≤ hi else lo < at' && at' < hi

/-- The power of ten of the first digit of `n / d`. -/
def leadingPower (n d : Nat) : Int :=
  let e : Int := (digitCount n : Int) - digitCount d
  let reached := if 0 ≤ e then decide (d * Nat.pow 10 e.toNat ≤ n)
    else decide (d ≤ n * Nat.pow 10 (-e).toNat)
  if reached then e else e - 1

/-- The digits of a float and the power of ten of the first one. -/
structure Digits where
  negative : Bool
  digits : List Char
  power : Int
  deriving Repr

/-- The candidate with `count` digits, if one of the value's two neighbours
on that grid reads back. The answer is in units of `10 ^ (lead - count + 1)`. -/
def candidate (i : Interval) (lead : Int) (count : Nat) : Option Nat :=
  let g := lead - count + 1
  let up := Nat.pow 10 g.toNat
  let down := Nat.pow 10 (-g).toNat
  -- the value in grid units is (value * down) / (denominator * up)
  let num := i.value * down
  let den := i.denominator * up
  let k := num / den
  let fitsLow := i.holds (k * up) down && decide (0 < k)
  let fitsHigh := i.holds ((k + 1) * up) down
  let twice := 2 * (num % den)
  match fitsLow, fitsHigh with
  | true, true => some (if twice < den then k else if den < twice then k + 1
      else if k % 2 = 0 then k else k + 1)
  | true, false => some k
  | false, true => some (k + 1)
  | false, false => none

/-- Try 1, 2, … digits until one reads back; seventeen always do. -/
def search (i : Interval) (lead : Int) (count : Nat) : Nat → Nat × Int
  | 0 => (0, 0)
  | tries + 1 =>
    match candidate i lead count with
    | some k => (k, lead - count + 1)
    | none => search i lead (count + 1) tries

/-- A row of digits without its trailing zeros. -/
def trimZeros (digits : List Char) : List Char :=
  (digits.reverse.dropWhile (· = '0')).reverse

/-- The shortest digits of a finite float other than zero. -/
def shortest (x : Float) : Digits :=
  let i := Interval.ofBinary (.ofFloat x)
  let lead := leadingPower i.value i.denominator
  let (k, unit) := search i lead 1 17
  let digits := Nat.toDigits 10 k
  ⟨isNegative x, trimZeros digits, unit + digits.length - 1⟩

end LiveScene.Decimal
