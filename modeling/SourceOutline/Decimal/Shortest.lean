/-!
# The fewest digits that read back

A finite binary floating-point number is `mantissa * 2 ^ exponent`.  Its *rounding
interval* holds the reals that are nearer to it than to its neighbours; the ends
belong to it exactly when the mantissa is even.  `shortest` gives the decimal with
the fewest digits in that interval, and among those with equally few digits the one
nearest to the number.

All comparisons are between natural numbers: a quarter of the distance to the next
number is the unit, so that the ends of the interval are whole.
-/

namespace SourceOutline.Decimal

/-- A positive fraction. -/
structure Fraction where
  num : Nat
  den : Nat

/-- The fraction `n * 2 ^ e`. -/
def Fraction.scale2 (n : Nat) (e : Int) : Fraction :=
  ⟨n * Nat.pow 2 e.toNat, Nat.pow 2 (-e).toNat⟩

/-- The fraction `n * 10 ^ e`. -/
def Fraction.scale10 (n : Nat) (e : Int) : Fraction :=
  ⟨n * Nat.pow 10 e.toNat, Nat.pow 10 (-e).toNat⟩

def Fraction.le (a b : Fraction) : Bool :=
  a.num * b.den ≤ b.num * a.den

def Fraction.lt (a b : Fraction) : Bool :=
  a.num * b.den < b.num * a.den

/-- The distance between two fractions. -/
def Fraction.distance (a b : Fraction) : Fraction :=
  ⟨(a.num * b.den - b.num * a.den) + (b.num * a.den - a.num * b.den), a.den * b.den⟩

/-- The whole part of a fraction divided by `10 ^ e`. -/
def Fraction.floorDiv10 (a : Fraction) (e : Int) : Nat :=
  (a.num * Nat.pow 10 (-e).toNat) / (a.den * Nat.pow 10 e.toNat)

/-- A positive finite binary floating-point number with its rounding interval. -/
structure Binary where
  mantissa : Nat
  exponent : Int
  /-- The number below is half as far away as the number above. -/
  atPower : Bool

/-- The number itself. -/
def Binary.value (b : Binary) : Fraction :=
  .scale2 (4 * b.mantissa) (b.exponent - 2)

/-- The lower end of the rounding interval. -/
def Binary.low (b : Binary) : Fraction :=
  .scale2 (4 * b.mantissa - (if b.atPower then 1 else 2)) (b.exponent - 2)

/-- The upper end of the rounding interval. -/
def Binary.high (b : Binary) : Fraction :=
  .scale2 (4 * b.mantissa + 2) (b.exponent - 2)

/-- Whether a fraction rounds to the number. -/
def Binary.covers (b : Binary) (x : Fraction) : Bool :=
  if b.mantissa % 2 == 0 then b.low.le x && x.le b.high
  else b.low.lt x && x.lt b.high

/-- The double-precision number with these 64 bits, without its sign. -/
def Binary.ofBits (bits : Nat) : Binary :=
  let fraction := bits % Nat.pow 2 52
  let biased := bits / Nat.pow 2 52 % Nat.pow 2 11
  if biased = 0 then ⟨fraction, -1074, false⟩
  else ⟨fraction + Nat.pow 2 52, (biased : Int) - 1075, fraction == 0 && biased > 1⟩

/-- A decimal `significand * 10 ^ exponent`. -/
structure Scaled where
  significand : Nat
  exponent : Int
  deriving DecidableEq, Repr

/-- The exponent of the leading decimal digit of a positive fraction. -/
def leadingExponent (x : Fraction) : Int :=
  if x.den ≤ x.num then ((Nat.toDigits 10 (x.num / x.den)).length : Int) - 1
  else
    match (List.range 400).find? fun t => x.den ≤ x.num * Nat.pow 10 t with
    | some t => -(t : Int)
    | none => 0

/-- A final zero moved into the exponent. -/
def Scaled.dropZero (s : Scaled) : Scaled :=
  if s.significand % 10 = 0 then ⟨s.significand / 10, s.exponent + 1⟩ else s

/-- Of two neighbours on a grid the one nearer to a value; of two equally near ones the
even one. -/
def nearer (value : Fraction) (e : Int) (n m : Nat) : Nat :=
  let distance (k : Nat) := (Fraction.scale10 k e).distance value
  if (distance n).lt (distance m) then n
  else if (distance m).lt (distance n) then m
  else if n % 2 = 0 then n
  else m

/-- The decimal with `count` digits that reads back, when there is one: of the two
neighbours on that grid the nearer one that the interval covers.  The upper neighbour
may be the next power of ten, whose final zero is dropped. -/
def Binary.withDigits? (b : Binary) (count : Nat) : Option Scaled :=
  let e := leadingExponent b.value - (count : Int) + 1
  let below := b.value.floorDiv10 e
  let hits := [below, below + 1].filter fun n => 0 < n && b.covers (.scale10 n e)
  match hits with
  | [] => none
  | [n] => some (Scaled.dropZero ⟨n, e⟩)
  | n :: m :: _ => some (Scaled.dropZero ⟨nearer b.value e n m, e⟩)

/-- The shortest decimal that reads back; seventeen digits always do. -/
def Binary.shortest (b : Binary) : Scaled :=
  match (List.range 17).findSome? fun i => b.withDigits? (i + 1) with
  | some s => s
  | none => ⟨0, 0⟩

/-- Where positional notation ends and the exponent notation begins. -/
structure PointRange where
  /-- The most digits before the point. -/
  mostWhole : Int
  /-- The most zeros between the point and the first digit. -/
  mostZeros : Int

/-- A decimal with a point and digits on both sides of it. -/
def Scaled.positional (s : Scaled) : List Char :=
  let ds := Nat.toDigits 10 s.significand
  if 0 ≤ s.exponent then ds ++ List.replicate s.exponent.toNat '0' ++ ['.', '0']
  else
    let places := (-s.exponent).toNat
    let padded := List.replicate (places + 1 - ds.length) '0' ++ ds
    let whole := padded.length - places
    padded.take whole ++ '.' :: padded.drop whole

/-- A decimal with one digit before the point and an exponent with its sign; a lone
digit has no point. -/
def Scaled.scientific (s : Scaled) : List Char :=
  let ds := Nat.toDigits 10 s.significand
  let e := s.exponent + ds.length - 1
  let sign := if e < 0 then '-' else '+'
  let head :=
    match ds with
    | d :: d' :: rest => d :: '.' :: d' :: rest
    | ds => ds
  head ++ 'e' :: sign :: Nat.toDigits 10 e.natAbs

/-- The text of a decimal. -/
def Scaled.text (n : PointRange) (s : Scaled) : List Char :=
  let whole := s.exponent + (Nat.toDigits 10 s.significand).length
  if -n.mostZeros ≤ whole ∧ whole ≤ n.mostWhole then s.positional else s.scientific

end SourceOutline.Decimal
