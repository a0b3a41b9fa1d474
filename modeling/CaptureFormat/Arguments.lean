namespace CaptureFormat

/-!
# Positional arguments

Every directive takes the next argument, whether it has a name or not.  A name
labels the argument that it gets and never selects one.
-/

/-- The arguments of one call that are left, and the position of the first of them. -/
structure Arguments (V : Type) where
  index : Nat
  rest : List V
  deriving Repr, DecidableEq

namespace Arguments

/-- All arguments of a call. -/
def ofList (values : List V) : Arguments V :=
  ⟨0, values⟩

/-- Take the next argument with its position. -/
def next? (arguments : Arguments V) : Option ((Nat × V) × Arguments V) :=
  match arguments.rest with
  | [] => none
  | value :: rest => some ((arguments.index, value), ⟨arguments.index + 1, rest⟩)

/-- The number of arguments taken. -/
def consumed (arguments : Arguments V) : Nat :=
  arguments.index

/-- The number of arguments left. -/
def size (arguments : Arguments V) : Nat :=
  arguments.rest.length

/-- Whether no argument is left. -/
def isExhausted (arguments : Arguments V) : Bool :=
  arguments.rest.isEmpty

/-- The arguments left, each with its position. -/
def indexed (arguments : Arguments V) : List (V × Nat) :=
  arguments.rest.zipIdx arguments.index

end Arguments

end CaptureFormat
