import MeshDiffusion.Text.Blank
import MeshDiffusion.Text.Numeral

/-!
Parameters.

A `Params` holds entries `scope.key = value` in the order in which their keys first appeared.

* `Params.parse` reads a text line by line: what follows a `#` is left out, a line without
  anything else is skipped, and every other line is an entry (`ParamLine`), of which the part
  before the first `=` is the key; a key given again replaces its value;
* `Params.query` reads the value of a key by a `ValueKind`;
* `ParamFault` says what is wrong with parameters, `ParamFault.message` in words.
-/

namespace MeshDiffusion

/-! ### Faults -/

/-- Why a value is refused although it can be read. -/
inductive RangeFault (K : Type) where
  | badTolerance (got : K)
  | zeroCap
  | other (reason : String)

/-- What is wrong with parameters. -/
inductive ParamFault (K : Type) where
  | unreadable (key value expected : String)
  | outOfRange (key : String) (fault : RangeFault K)
  | malformed (line : Nat) (text : String)

/-- The text of a refusal. -/
def RangeFault.message {K : Type} [Text.DecimalText K] : RangeFault K → String
  | badTolerance got =>
    "tolerance must be finite and non-negative, got " ++ Text.DecimalText.plain got
  | zeroCap => "iteration cap must be at least 1"
  | other reason => reason

/-- The text of a fault. -/
def ParamFault.message {K : Type} [Text.DecimalText K] : ParamFault K → String
  | unreadable key value expected => s!"{key} = '{value}': expected {expected}"
  | outOfRange key fault => s!"{key} out of range: " ++ fault.message
  | malformed line text => s!"line {line}: expected 'key = value', got '{text}'"

/-! ### Kinds of values -/

/-- A kind of values that a parameter can have: its name and its reader. -/
structure ValueKind (α : Type) where
  expected : String
  read? : String → Option α

namespace ValueKind

/-- An integer of 32 bits. -/
def int32 : ValueKind Int := ⟨"i32", fun s => Text.readSigned? 32 s.toList⟩

/-- An integer of 64 bits. -/
def int64 : ValueKind Int := ⟨"i64", fun s => Text.readSigned? 64 s.toList⟩

/-- A natural number of 8 bits. -/
def nat8 : ValueKind Nat := ⟨"u8", fun s => Text.readUnsigned? 8 s.toList⟩

/-- A natural number of 64 bits. -/
def nat64 : ValueKind Nat := ⟨"usize", fun s => Text.readUnsigned? 64 s.toList⟩

/-- A number. -/
def number {K : Type} [Text.DecimalText K] : ValueKind K :=
  ⟨"f64", fun s => (Text.readDecimal? s.toList).map Text.DecimalText.ofDecimal⟩

/-- A flag. -/
def flag : ValueKind Bool := ⟨"bool", Text.readFlag?⟩

/-- Any text. -/
def text : ValueKind String := ⟨"text", some⟩

end ValueKind

/-! ### Tables -/

/-- Entries in the order in which their keys first appeared. -/
structure Params where
  entries : List (String × String) := []
deriving DecidableEq, Inhabited

/-- What a line of a text says. -/
inductive ParamLine where
  | blank
  | entry (key value : String)
  | malformed
deriving DecidableEq

/-- Reads one line. -/
def ParamLine.read (line : List Char) : ParamLine :=
  let body := Text.trim (Text.splitFirst '#' line).1
  if body.isEmpty then .blank
  else match Text.splitFirst '=' body with
    | (_, none) => .malformed
    | (key, some value) =>
      let key := Text.trim key
      if key.isEmpty then .malformed
      else .entry (String.ofList key) (String.ofList (Text.trim value))

namespace Params

/-- Replaces the value of a key in a list of entries, or adds the key at the end. -/
def insert (key value : String) : List (String × String) → List (String × String)
  | [] => [(key, value)]
  | e :: es => if e.1 = key then (key, value) :: es else e :: insert key value es

/-- Sets the value of a key. -/
def set (t : Params) (key value : String) : Params := ⟨insert key value t.entries⟩

/-- The value of a key of a scope, as it was written. -/
def get? (t : Params) (scope key : String) : Option String :=
  t.entries.lookup (scope ++ "." ++ key)

/-- The value of a key of a scope, read by its kind, if the key is there. -/
def query {K α : Type} (t : Params) (kind : ValueKind α) (scope key : String) :
    Except (ParamFault K) (Option α) :=
  match t.get? scope key with
  | none => .ok none
  | some raw =>
    match kind.read? raw with
    | some v => .ok (some v)
    | none => .error (.unreadable (scope ++ "." ++ key) raw kind.expected)

/-- Reads lines from number `n` on into a table. -/
def parseLines {K : Type} : (n : Nat) → Params → List (List Char) →
    Except (ParamFault K) Params
  | _, t, [] => .ok t
  | n, t, line :: lines =>
    match ParamLine.read line with
    | .blank => parseLines (n + 1) t lines
    | .entry key value => parseLines (n + 1) (t.set key value) lines
    | .malformed => .error (.malformed n (String.ofList (Text.trim line)))

/-- Reads a text into a table, or names the first line that is no entry. -/
def parse {K : Type} (text : String) : Except (ParamFault K) Params :=
  parseLines 1 {} (Text.splitLines text.toList)

end Params

end MeshDiffusion
