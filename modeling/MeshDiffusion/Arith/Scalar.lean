/-!
The arithmetic that fields are computed in.

`Scalar K` collects the operations that the library uses of its numbers and asks for no laws, so
that one definition serves double precision, whose operations round, and exact arithmetic, in which
its properties are stated. `Trig K` adds the functions that only the geometry of an obstacle needs.

* `Scalar.maxNum` and `Scalar.minNum` ignore an operand that is not a number;
* `Scalar.sum` adds a list from the left, from negative zero on, which is the neutral element of
  addition also for a sum of negative zeros;
* `Scalar.clamp` moves a number into an interval.
-/

namespace MeshDiffusion

/-- Numbers with the four operations, an order and an equality test. The default element stands
for a value that nothing was stored for. -/
class Scalar (K : Type) extends Inhabited K, Add K, Sub K, Mul K, Div K, Neg K, LT K, LE K, BEq K,
    OfScientific K where
  decLt : DecidableLT K
  decLe : DecidableLE K
  ofInt : Int → K
  abs : K → K
  isFinite : K → Bool

/-- The functions of an angle and the length of a vector in the plane. -/
class Trig (K : Type) where
  hypot : K → K → K
  atan2 : K → K → K
  sin : K → K
  cos : K → K

namespace Scalar

variable {K : Type} [Scalar K]

@[inline] instance : DecidableLT K := decLt

@[inline] instance : DecidableLE K := decLe

/-- A number that differs from itself. -/
@[inline] def isNaN (a : K) : Bool := !(a == a)

/-- The larger of two numbers, the first one if neither is larger. -/
@[inline] def maxNum (a b : K) : K := if isNaN a then b else if a < b then b else a

/-- The smaller of two numbers, the first one if neither is smaller. -/
@[inline] def minNum (a b : K) : K := if isNaN a then b else if b < a then b else a

/-- The number of the interval nearest to `a`. -/
@[inline] def clamp (a lo hi : K) : K := if a < lo then lo else if hi < a then hi else a

/-- The sum of a list, added from the left. -/
@[specialize] def sum (xs : List K) : K := xs.foldl (· + ·) (-0.0)

end Scalar

end MeshDiffusion
