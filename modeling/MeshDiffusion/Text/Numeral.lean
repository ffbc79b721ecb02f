import MeshDiffusion.Text.Decimal

/-!
Reading numbers and flags.

* `readNat?` reads a string of ASCII digits that is not empty;
* `readSigned?` and `readUnsigned?` read integers of a given width, with an optional sign, which
  cannot be a minus for the latter;
* `readDecimal?` reads a decimal: an optional sign, then `inf`, `infinity` or `nan` in any case, or
  digits with an optional point and at least one digit, and an optional exponent;
* `readFlag?` reads `true` and `false`.

All of them read the whole text or fail.
-/

namespace MeshDiffusion.Text

/-- The value of a string of digits, added to a number before them. -/
def digitsValue (start : Nat) (ds : List Char) : Nat :=
  ds.foldl (fun n c => 10 * n + (c.toNat - '0'.toNat)) start

/-- A natural number in digits. -/
def readNat? (cs : List Char) : Option Nat :=
  if !cs.isEmpty && cs.all Char.isDigit then some (digitsValue 0 cs) else none

/-- A sign, if there is one, and the rest. -/
def takeSign : List Char → Bool × List Char
  | '+' :: cs => (false, cs)
  | '-' :: cs => (true, cs)
  | cs => (false, cs)

/-- An integer that fits into `bits` bits with a sign. -/
def readSigned? (bits : Nat) (cs : List Char) : Option Int :=
  let (negative, ds) := takeSign cs
  (readNat? ds).bind fun n =>
    let limit := Nat.pow 2 (bits - 1)
    if negative then (if n ≤ limit then some (-(n : Int)) else none)
    else if n < limit then some (n : Int) else none

/-- A natural number that fits into `bits` bits; a minus sign is refused. -/
def readUnsigned? (bits : Nat) (cs : List Char) : Option Nat :=
  let (negative, ds) := takeSign cs
  if negative then none
  else (readNat? ds).bind fun n => if n < Nat.pow 2 bits then some n else none

/-- An exponent with its mark, or nothing: the value of the exponent. -/
def readExponent? : List Char → Option Int
  | [] => some 0
  | c :: cs =>
    if c = 'e' || c = 'E' then
      let (negative, ds) := takeSign cs
      (readNat? ds).map fun n => if negative then -(n : Int) else n
    else none

/-- Digits with an optional point and an optional exponent. -/
def readMagnitude? (cs : List Char) : Option Digits :=
  let whole := cs.takeWhile Char.isDigit
  let rest := cs.dropWhile Char.isDigit
  let (fraction, rest) := match rest with
    | '.' :: r => (r.takeWhile Char.isDigit, r.dropWhile Char.isDigit)
    | r => ([], r)
  if whole.isEmpty && fraction.isEmpty then none
  else (readExponent? rest).map fun e =>
    ⟨digitsValue (digitsValue 0 whole) fraction, e - fraction.length⟩

/-- A decimal number, an infinity, or not a number. -/
def readDecimal? (cs : List Char) : Option Decimal :=
  let (negative, body) := takeSign cs
  let word := String.ofList (body.map Char.toLower)
  if word = "inf" || word = "infinity" then some (.infinite negative)
  else if word = "nan" then some .notANumber
  else (readMagnitude? body).map (.finite negative)

/-- A flag. -/
def readFlag? (s : String) : Option Bool :=
  if s = "true" then some true else if s = "false" then some false else none

end MeshDiffusion.Text
