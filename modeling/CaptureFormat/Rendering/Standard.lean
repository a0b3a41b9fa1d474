import CaptureFormat.Conversion.Bytes
import CaptureFormat.Conversion.Integer
import CaptureFormat.Conversion.Real
import CaptureFormat.Value

namespace CaptureFormat.Standard

/-!
# The standard rendering

A value is rendered as a single item where the verb applies to it as one.
Bytes to which it does not apply are rendered byte by byte, and lists item by
item.  Whatever is left, at any depth, is a value of the wrong kind for its
verb and shows as a marker with a description of the value.

A description renders the value plainly, with the verb `v`.  That verb applies
to every value, so a description holds no marker and the marker it is used in
holds no other.
-/

/-- A value as a single item, if the directive's verb applies to it as one. -/
def single? (directive : Directive) : Value → Option (List Char)
  | .nil => if directive.verb = 'v' then some (directive.pad "<nil>".toList) else none
  | .bool truth =>
      if directive.verb = 'v' ∨ directive.verb = 't' then
        some (directive.pad (if truth then "true" else "false").toList)
      else
        none
  | .int number => Conversion.integer? directive number.toInt
  | .uint number => Conversion.unsigned? directive number
  | .float number => Conversion.float? directive number
  | .text text => Conversion.text? directive text.toList
  | .error message => Conversion.text? directive message.toList
  | .bytes bytes => Conversion.bytes? directive bytes
  | .pointer address => Conversion.pointer? directive address
  | .list _ => none

/-- The verb that asks for the type of a value. -/
def typeVerb : Char := 'T'

/-- The name of a value's type, as text. -/
def typeText (directive : Directive) (value : Value) : List Char :=
  directive.pad (directive.truncate value.typeName.toList)

/-- A value that has no items, or what `mark` makes of it if the verb does not apply. -/
def item
    (mark : Value → List Char)
    (directive : Directive)
    (value : Value) :
    List Char :=
  if directive.verb = typeVerb then
    typeText directive value
  else
    (single? directive value).getD (mark value)

/-- Rendered items between brackets, or in source form between braces. -/
def group (directive : Directive) (items : List (List Char)) : List Char :=
  if directive.verb = 'v' ∧ directive.flags.source = true then
    "[]value\x7b".toList ++ List.intercalate [',', ' '] items ++ ['}']
  else
    '[' :: List.intercalate [' '] items ++ [']']

mutual

/-- A value for a directive, with `mark` for the values that its verb does not apply to. -/
def renderUsing
    (mark : Value → List Char)
    (directive : Directive) :
    Value → List Char
  | .list items =>
      if directive.verb = typeVerb then
        typeText directive (.list items)
      else
        group directive (renderEach mark directive items)
  | .bytes bytes =>
      if directive.verb = typeVerb then
        typeText directive (.bytes bytes)
      else
        (single? directive (.bytes bytes)).getD
          (group directive (bytes.map fun byte => item mark directive (.uint byte.toUInt64)))
  | value => item mark directive value

/-- The values of a list for a directive, one by one. -/
def renderEach
    (mark : Value → List Char)
    (directive : Directive) :
    List Value → List (List Char)
  | [] => []
  | value :: rest => renderUsing mark directive value :: renderEach mark directive rest

end

/-- A value rendered plainly, with the verb `v` and without flags. -/
def plainText (value : Value) : List Char :=
  renderUsing (fun _ => []) (Directive.plain 'v') value

/-- The type and the plain form of a value. -/
def descriptionText (value : Value) : List Char :=
  if value.isNil then
    "<nil>".toList
  else
    value.typeName.toList ++ '=' :: plainText value

/-- The marker of a value to which a verb does not apply. -/
def mismatch (verb : Char) (value : Value) : List Char :=
  '%' :: '!' :: verb :: '(' :: descriptionText value ++ [')']

/-- A value for a directive, as characters. -/
def renderText (directive : Directive) (value : Value) : List Char :=
  renderUsing (mismatch directive.verb) directive value

/-- A value for a directive. -/
def render (directive : Directive) (value : Value) : String :=
  String.ofList (renderText directive value)

/-- A value in its plain form. -/
def plain (value : Value) : String :=
  String.ofList (plainText value)

/-- A short description of a value, used inside markers. -/
def describe (value : Value) : String :=
  String.ofList (descriptionText value)

end CaptureFormat.Standard
