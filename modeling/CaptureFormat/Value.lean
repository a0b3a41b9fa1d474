import CaptureFormat.Binary64

namespace CaptureFormat

/-!
# Argument values

The values that the standard rendering knows.  Two values are equal when they
are of one kind and hold the same; floating-point numbers are compared by
their bits and errors by their messages.

`ToValue` turns the usual types into values, and `MayBeError` says which values
are errors, which is all that a formatter asks of an argument.
-/

/-- A value that can be formatted. -/
inductive Value where
  /-- No value. -/
  | nil
  | bool : Bool → Value
  | int : Int64 → Value
  | uint : UInt64 → Value
  | float : Binary64 → Value
  | text : String → Value
  | bytes : List UInt8 → Value
  /-- An error with its message. -/
  | error : String → Value
  /-- An address. -/
  | pointer : UInt64 → Value
  | list : List Value → Value
  deriving Repr

namespace Value

instance : Inhabited Value where
  default := .nil

mutual

/-- Whether two values are of one kind and hold the same. -/
def beq : Value → Value → Bool
  | .nil, .nil => true
  | .bool left, .bool right => left == right
  | .int left, .int right => left == right
  | .uint left, .uint right => left == right
  | .float left, .float right => left == right
  | .text left, .text right => left == right
  | .bytes left, .bytes right => left == right
  | .error left, .error right => left == right
  | .pointer left, .pointer right => left == right
  | .list left, .list right => beqEach left right
  | _, _ => false

/-- Whether two lists hold equal values in one order. -/
def beqEach : List Value → List Value → Bool
  | [], [] => true
  | left :: lefts, right :: rights => beq left right && beqEach lefts rights
  | _, _ => false

end

mutual

/-- `beq` accepts equal values only. -/
theorem eq_of_beq_true : (left right : Value) → beq left right = true → left = right
  | .list lefts, right, same => by
      cases right <;> simp_all [beq]
      exact eq_of_beqEach lefts _ same
  | .nil, right, same | .bool _, right, same | .int _, right, same
  | .uint _, right, same | .float _, right, same | .text _, right, same
  | .bytes _, right, same | .error _, right, same | .pointer _, right, same => by
      cases right <;> simp_all [beq]

/-- `beqEach` accepts equal lists only. -/
theorem eq_of_beqEach :
    (lefts rights : List Value) → beqEach lefts rights = true → lefts = rights
  | [], rights, same => by
      cases rights <;> simp_all [beqEach]
  | left :: lefts, rights, same => by
      cases rights with
      | nil =>
          simp [beqEach] at same
      | cons right rights =>
          simp only [beqEach, Bool.and_eq_true] at same
          rw [eq_of_beq_true left right same.1, eq_of_beqEach lefts rights same.2]

end

mutual

/-- `beq` accepts a value and itself. -/
theorem beq_self : (value : Value) → beq value value = true
  | .list items => by
      simp only [beq]
      exact beqEach_self items
  | .nil | .bool _ | .int _ | .uint _ | .float _ | .text _ | .bytes _ | .error _
  | .pointer _ => by
      simp [beq]

/-- `beqEach` accepts a list and itself. -/
theorem beqEach_self : (items : List Value) → beqEach items items = true
  | [] => rfl
  | item :: items => by
      simp only [beqEach, beq_self item, beqEach_self items, Bool.and_self]

end

instance : DecidableEq Value := fun left right =>
  if same : beq left right = true then
    isTrue (eq_of_beq_true left right same)
  else
    isFalse fun equal => same (equal ▸ beq_self left)

/-- The name of a value's type. -/
def typeName : Value → String
  | .nil => "<nil>"
  | .bool _ => "bool"
  | .int _ => "int"
  | .uint _ => "uint"
  | .float _ => "float64"
  | .text _ => "string"
  | .bytes _ => "[]byte"
  | .error _ => "error"
  | .pointer _ => "pointer"
  | .list _ => "[]value"

/-- Whether there is no value. -/
def isNil : Value → Bool
  | .nil => true
  | _ => false

/-- Whether the value is an error; a list that holds one is none. -/
def isError : Value → Bool
  | .error _ => true
  | _ => false

end Value

/-- The types of arguments some of which are errors. -/
class MayBeError (V : Type) where
  /-- Whether an argument is an error, which is reported even if no directive takes it. -/
  isError : V → Bool

instance : MayBeError Value where
  isError := Value.isError

/-- The types that have values. -/
class ToValue (α : Type) where
  toValue : α → Value

export ToValue (toValue)

instance : ToValue Value := ⟨id⟩

instance : ToValue Bool := ⟨.bool⟩

instance : ToValue Int8 := ⟨fun number => .int number.toInt64⟩

instance : ToValue Int16 := ⟨fun number => .int number.toInt64⟩

instance : ToValue Int32 := ⟨fun number => .int number.toInt64⟩

instance : ToValue Int64 := ⟨.int⟩

instance : ToValue UInt8 := ⟨fun number => .uint number.toUInt64⟩

instance : ToValue UInt16 := ⟨fun number => .uint number.toUInt64⟩

instance : ToValue UInt32 := ⟨fun number => .uint number.toUInt64⟩

instance : ToValue UInt64 := ⟨.uint⟩

instance : ToValue Binary32 := ⟨fun number => .float number.widen⟩

instance : ToValue Binary64 := ⟨.float⟩

/-- A character is its code point. -/
instance : ToValue Char := ⟨fun character => .int (Int64.ofNat character.toNat)⟩

instance : ToValue String := ⟨.text⟩

instance : ToValue (List UInt8) := ⟨.bytes⟩

instance : ToValue (List Value) := ⟨.list⟩

/-- A missing value is no value. -/
instance [ToValue α] : ToValue (Option α) where
  toValue
    | none => .nil
    | some content => toValue content

end CaptureFormat
