import SourceOutline.Decimal.Shortest
import SourceOutline.Json.Basic

/-!
# JSON numbers in double precision

A number that is no 64-bit integer is taken in double precision: the leading digits
that fit in 64 bits, times or divided by one power of ten.  It is shown with the
fewest digits that read back.
-/

namespace SourceOutline.Json

/-- Drop final digits until the number fits in 64 bits; each dropped digit raises the
exponent by one. -/
def clip64 (n : Nat) (e : Int) : Nat × Int :=
  if n < unsignedLimit then (n, e) else clip64 (n / 10) (e + 1)
termination_by n
decreasing_by
  unfold unsignedLimit at *
  omega

/-- A power of ten in double precision. -/
def powerOfTen (e : Nat) : Float :=
  Float.ofScientific 1 false e

/-- Scale by a power of ten.  The lowest exponents take several divisions, after which
nothing is left; the highest all give infinity. -/
def scaleFloat : Nat → Float → Int → Float
  | 0, _, _ => 0
  | fuel + 1, x, e =>
    if e < -308 then scaleFloat fuel (x / powerOfTen 308) (e + 308)
    else if e < 0 then x / powerOfTen e.natAbs
    else x * powerOfTen (min e.natAbs 400)

/-- The magnitude of `n * 10 ^ e` in double precision. -/
def magnitude (n : Nat) (e : Int) : Float :=
  let (n, e) := clip64 n e
  scaleFloat 4 (Float.ofNat n) e

/-- Up to sixteen digits before the point and four zeros after it need no exponent. -/
def floatPoint : Decimal.PointRange :=
  ⟨16, 4⟩

/-- A magnitude in digits. -/
def magnitudeText (x : Float) : String :=
  let bits := x.toBits.toNat
  if bits = 0 then "0.0"
  else String.ofList ((Decimal.Binary.ofBits bits).shortest.text floatPoint)

/-- The double-precision text of a number. -/
def Number.floatText : Number → String
  | .integer (.ofNat n) => magnitudeText (magnitude n 0)
  | .integer (.negSucc n) => "-" ++ magnitudeText (magnitude (n + 1) 0)
  | .decimal negative n e => (if negative then "-" else "") ++ magnitudeText (magnitude n e)

end SourceOutline.Json
