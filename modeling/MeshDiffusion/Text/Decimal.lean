import MeshDiffusion.Text.Shortest

/-!
Decimal text of numbers.

`Decimal` is what a number looks like to a reader of decimals: a sign, digits and an exponent, an
infinity, or not a number. `NumberStyle` holds the decisions of a written form, and
`NumberStyle.render` writes a decimal in it.

* `NumberStyle.scientific`: one digit, a point if more follow, and always an exponent;
* `NumberStyle.plain`: never an exponent;
* `NumberStyle.debug`: an exponent only for numbers below `1e-4` or from `1e16` on, and at
  least one digit behind the point otherwise.

`DecimalText K` says how the numbers of `K` are taken to decimals and back.
-/

namespace MeshDiffusion.Text

/-- A number as a reader of decimals sees it. -/
inductive Decimal where
  | finite (negative : Bool) (magnitude : Digits)
  | infinite (negative : Bool)
  | notANumber
deriving DecidableEq

/-- The decisions of a written form of numbers. -/
structure NumberStyle where
  /-- The exponents of the leading digit that are written without an exponent. -/
  positional : Int → Bool
  /-- A number written without an exponent has a digit behind the point. -/
  pointZero : Bool

namespace NumberStyle

/-- One digit before the point and always an exponent: `1e0`, `-2.5e-7`. -/
def scientific : NumberStyle := ⟨fun _ => false, false⟩

/-- Never an exponent: `1`, `0.00025`. -/
def plain : NumberStyle := ⟨fun _ => true, false⟩

/-- No exponent from `1e-4` up to `1e16`, and a point in every number: `1.0`, `1e16`. -/
def debug : NumberStyle := ⟨fun e => -4 ≤ e && e < 16, true⟩

/-- Digits with an exponent behind them. -/
def withExponent (ds : List Char) (lead : Int) : String :=
  let mantissa := match ds with
    | [] => "0"
    | [c] => String.ofList [c]
    | c :: rest => String.ofList (c :: '.' :: rest)
  mantissa ++ "e" ++ toString lead

/-- Digits with the point at its place, zeros filled in. -/
def withPoint (ds : List Char) (lead : Int) (pointZero : Bool) : String :=
  let (whole, fraction) :=
    if lead < 0 then (['0'], List.replicate (-lead - 1).toNat '0' ++ ds)
    else
      let n := lead.toNat + 1
      (ds.take n ++ List.replicate (n - ds.length) '0', ds.drop n)
  let fraction := if fraction.isEmpty && pointZero then ['0'] else fraction
  String.ofList (if fraction.isEmpty then whole else whole ++ '.' :: fraction)

/-- Writes a decimal. -/
def render (style : NumberStyle) : Decimal → String
  | .notANumber => "NaN"
  | .infinite negative => if negative then "-inf" else "inf"
  | .finite negative d =>
    let ds := Nat.toDigits 10 d.digits
    let lead := if d.digits = 0 then 0 else d.exponent + ds.length - 1
    (if negative then "-" else "") ++
      if style.positional lead then withPoint ds lead style.pointZero else withExponent ds lead

end NumberStyle

/-- Numbers with a decimal form: `toDecimal` has the fewest digits that read back, and `ofDecimal`
gives the number nearest to a decimal. -/
class DecimalText (K : Type) where
  toDecimal : K → Decimal
  ofDecimal : Decimal → K

namespace DecimalText

variable {K : Type} [DecimalText K]

/-- A number with an exponent. -/
def scientific (a : K) : String := NumberStyle.scientific.render (toDecimal a)

/-- A number without an exponent. -/
def plain (a : K) : String := NumberStyle.plain.render (toDecimal a)

/-- A number as it stands in the description of a value. -/
def debug (a : K) : String := NumberStyle.debug.render (toDecimal a)

end DecimalText

end MeshDiffusion.Text
