import MeshDiffusion.Arith.Scalar
import MeshDiffusion.Text.Decimal

/-!
Double precision.

The instances of `Scalar`, `Trig` and `DecimalText` for `Float`. A finite double is taken apart into
its mantissa and exponent (`Double.toBinary?`), of which its shortest decimal is found; a decimal is
read as the nearest double, and one too large for a double as an infinity.
-/

namespace MeshDiffusion

instance : Scalar Float where
  decLt := inferInstance
  decLe := inferInstance
  ofInt := Float.ofInt
  abs := Float.abs
  isFinite := Float.isFinite

namespace Double

/-- The longest side of a right triangle whose other sides are `a` and `b`, with `b ≤ a`. The root
`h` of the rounded sum of squares is corrected by `(h * h - a * a - b * b) / (2 * h)`, of which the
numerator is found from the difference of `h` and the side nearer to it, so that little of it is
lost. -/
def hypotenuse (a b : Float) : Float :=
  let h := Float.sqrt (a * a + b * b)
  let excess :=
    if h ≤ 2.0 * b then
      let d := h - b
      a * (2.0 * d - a) + (d - 2.0 * (a - b)) * d
    else
      let d := h - a
      2.0 * d * (a - 2.0 * b) + ((4.0 * d - b) * b + d * d)
  h - excess / (2.0 * h)

/-- The length of a vector in the plane. A side too small to change the other one is only added,
and very long and very short sides are scaled by a power of two, so that no square overflows or
vanishes. -/
def hypot (x y : Float) : Float :=
  if x.isInf || y.isInf then 1.0 / 0.0
  else if x.isNaN || y.isNaN then 0.0 / 0.0
  else
    let a := if x.abs < y.abs then y.abs else x.abs
    let b := if x.abs < y.abs then x.abs else y.abs
    let scaled (e : Int) := (hypotenuse (a.scaleB e) (b.scaleB e)).scaleB (-e)
    if b ≤ a * Float.scaleB 1.0 (-54) then a + b
    else if Float.scaleB 1.0 511 < a then scaled (-600)
    else if b < Float.scaleB 1.0 (-459) then scaled 600
    else hypotenuse a b

end Double

instance : Trig Float where
  hypot := Double.hypot
  atan2 := Float.atan2
  sin := Float.sin
  cos := Float.cos

namespace Double

/-- The sign bit of a double. -/
def isNegative (x : Float) : Bool := x.toBits >>> 63 == 1

/-- The magnitude of a finite double that is not zero. -/
def toBinary? (x : Float) : Option Text.Binary :=
  let bits : Nat := x.toBits.toNat % Nat.pow 2 63
  let e : Nat := bits / Nat.pow 2 52
  let f : Nat := bits % Nat.pow 2 52
  if e = 2047 || bits = 0 then none
  else if e = 0 then some ⟨f, -1074, false⟩
  else some ⟨Nat.pow 2 52 + f, (e : Int) - 1075, f = 0 && e ≠ 1⟩

/-- The integer part of a finite double, which is exact also where the doubles are further apart
than the integers. -/
def integerPart (x : Float) : Int :=
  match toBinary? x with
  | none => 0
  | some b =>
    let n := b.mantissa <<< b.exponent.toNat >>> (-b.exponent).toNat
    if isNegative x then -(n : Int) else n

/-- The decimal of a double, with the fewest digits that read back. -/
def toDecimal (x : Float) : Text.Decimal :=
  if x.isNaN then .notANumber
  else if x.isInf then .infinite (isNegative x)
  else match toBinary? x with
    | some b => .finite (isNegative x) b.shortest
    | none => .finite (isNegative x) ⟨0, 0⟩

/-- The double nearest to a natural number times a power of ten. Powers far outside the range of
doubles are not computed. -/
def ofDigits (d : Text.Digits) : Float :=
  let lead := d.exponent + Text.decimalLength d.digits
  if d.digits = 0 || lead < -400 then 0.0
  else if lead > 400 then 1.0 / 0.0
  else if d.exponent < 0 then Float.ofScientific d.digits true (-d.exponent).toNat
  else Float.ofScientific d.digits false d.exponent.toNat

/-- The double nearest to a decimal. -/
def ofDecimal : Text.Decimal → Float
  | .notANumber => 0.0 / 0.0
  | .infinite negative => if negative then -(1.0 / 0.0) else 1.0 / 0.0
  | .finite negative d => if negative then -(ofDigits d) else ofDigits d

end Double

instance : Text.DecimalText Float where
  toDecimal := Double.toDecimal
  ofDecimal := Double.ofDecimal

end MeshDiffusion
