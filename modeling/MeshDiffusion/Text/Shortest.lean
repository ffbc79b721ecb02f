/-!
The fewest decimal digits that name a binary number.

A binary number `m * 2 ^ q` is the one nearest to every real of an interval around it: its half-way
points to the two neighbours bound the interval, and they belong to it when `m` is even. `shortest`
looks for the coarsest decimal grid with a point in that interval. On a grid only the two neighbours
of the number need a test, and of two hits the nearer one is taken, on a tie the upper one.

* `Binary` is the number, with a flag for a lower neighbour that is only half as far away;
* `Binary.Reads` says that a multiple of a power of ten lies in the interval;
* `Binary.candidate?` is the choice on one grid, `Binary.shortest` the search over the grids;
* `Digits` is the result: a natural number times a power of ten.
-/

namespace MeshDiffusion.Text

/-- The number `digits * 10 ^ exponent`. -/
structure Digits where
  digits : Nat
  exponent : Int
deriving DecidableEq, Inhabited

namespace Digits

/-- Moves trailing zeros of the digits into the exponent, at most `fuel` of them. -/
def stripZeros : Nat → Digits → Digits
  | 0, d => d
  | fuel + 1, d =>
    if d.digits ≠ 0 ∧ d.digits % 10 = 0 then
      stripZeros fuel ⟨d.digits / 10, d.exponent + 1⟩
    else d

end Digits

/-- The number of decimal digits of a natural number. -/
def decimalLength (n : Nat) : Nat := (Nat.repr n).length

/-- The binary number `mantissa * 2 ^ exponent`, which is not zero. -/
structure Binary where
  mantissa : Nat
  exponent : Int
  /-- The next smaller number is only half as far away as the next larger one. -/
  closeBelow : Bool

namespace Binary

/-- Twice the exponent step below the number, so that the half-way points are whole multiples. -/
def numerator (b : Binary) (quarters : Nat) : Nat :=
  quarters * Nat.pow 2 (b.exponent - 2).toNat

/-- The common denominator of the number and of its half-way points. -/
def denominator (b : Binary) : Nat := Nat.pow 2 (2 - b.exponent).toNat

/-- The number itself, in units of its denominator. -/
def value (b : Binary) : Nat := b.numerator (4 * b.mantissa)

/-- The lower half-way point. -/
def low (b : Binary) : Nat := b.numerator (4 * b.mantissa - if b.closeBelow then 1 else 2)

/-- The upper half-way point. -/
def high (b : Binary) : Nat := b.numerator (4 * b.mantissa + 2)

/-- A grid of step `10 ^ e` after multiplication with a common factor: the step times the
denominator, and the factor of the number and its half-way points. -/
def grid (b : Binary) (e : Int) : Nat × Nat :=
  (Nat.pow 10 e.toNat * b.denominator, Nat.pow 10 (-e).toNat)

/-- The multiple `n` of `10 ^ e` reads as the number. -/
def Reads (b : Binary) (e : Int) (n : Nat) : Prop :=
  let (step, factor) := b.grid e
  if b.mantissa % 2 = 0 then b.low * factor ≤ n * step ∧ n * step ≤ b.high * factor
  else b.low * factor < n * step ∧ n * step < b.high * factor

instance (b : Binary) (e : Int) (n : Nat) : Decidable (b.Reads e n) := by
  unfold Reads
  infer_instance

/-- The multiple of `10 ^ e` nearest to the number, of those that read as it; on a tie the
upper one. -/
def candidate? (b : Binary) (e : Int) : Option Nat :=
  let (step, factor) := b.grid e
  let n := b.value * factor / step
  if b.Reads e n then
    if b.Reads e (n + 1) ∧ (2 * n + 1) * step ≤ 2 * (b.value * factor) then some (n + 1) else some n
  else if b.Reads e (n + 1) then some (n + 1)
  else none

/-- The exponent of the leading decimal digit. -/
def magnitude (b : Binary) : Int :=
  if b.denominator ≤ b.value then decimalLength (b.value / b.denominator) - 1
  else decimalLength (b.value * Nat.pow 10 340 / b.denominator) - 341

/-- Searches the grids of `count` digits, one digit more, and so on, `fuel` of them. -/
def search (b : Binary) (lead : Int) : (fuel count : Nat) → Digits
  | 0, _ => ⟨b.mantissa, 0⟩
  | fuel + 1, count =>
    let e := lead + 1 - count
    match b.candidate? e with
    | some n => ⟨n, e⟩
    | none => b.search lead fuel (count + 1)

/-- The fewest digits that read as the number; seventeen always do for a mantissa of 53 bits. -/
def shortest (b : Binary) : Digits := (b.search b.magnitude 17 1).stripZeros 17

end Binary

end MeshDiffusion.Text
