/-!
# Failures

Why an operation has no value.  A failure is a cause; `Failure.message?` is the text of those
causes that carry one.  Shapes in messages are written as bracketed lists, a single length with a
comma after it.
-/

namespace InterpolationGeometry

/-- A shape between round brackets: `()`, `(3,)`, `(2, 3)`. -/
def shapeText : List Nat → String
  | [] => "()"
  | [n] => s!"({n},)"
  | lengths => "(" ++ String.intercalate ", " (lengths.map toString) ++ ")"

inductive Failure where
  /-- A condition that a routine states about its arguments or its result does not hold. -/
  | contract (routine statement : String)
  | innerLengths (left right : List Nat)
  | sizesDiffer (left right : Nat)
  /-- A column to subtract does not have one entry for each of the given number of rows. -/
  | columnShape (rows : Nat) (found : List Nat)
  /-- A drop scheme that is none of the known ones; the field is its quoted name. -/
  | unknownScheme (quoted : String)
  | unknownSetting (name : String)
  | ragged
  /-- An array of more axes, or of longer ones, than arrays may have. -/
  | unsupportedShape
  | shapeMismatch
  /-- A least or greatest entry of no entries. -/
  | emptyReduction
  /-- One truth value of a number of comparisons other than one. -/
  | ambiguous
  /-- One number of an array that does not hold exactly one. -/
  | notOneNumber
  | notFinite
  | indexOutOfRange
  | axisOutOfRange (axis : Nat)
  | divisionByZero
  /-- A square that is required to be finite and is too large. -/
  | overflow
  deriving DecidableEq, Repr

namespace Failure

def message? : Failure → Option String
  | contract routine statement => some s!"{routine}: {statement}"
  | innerLengths left right =>
      some s!"matprod: inner dimensions differ, {shapeText left} vs {shapeText right}"
  | sizesDiffer left right => some s!"inprod: sizes differ, {left} vs {right}"
  | columnShape rows found =>
      some (s!"subtract_from_columns: expected v of shape ({rows},), got " ++ shapeText found)
  | unknownScheme quoted => some ("drop_scheme must be 'score' or 'powell', got " ++ quoted)
  | _ => none

def isContract : Failure → Bool
  | contract .. => true
  | _ => false

end Failure

end InterpolationGeometry
