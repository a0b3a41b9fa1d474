import CaptureFormat.Rendering.Standard

namespace CaptureFormat

/-!
# Values that are rendered as one item

Where a verb applies to a value as a single item, the rendering is that item
and nothing else: the verb is not the one that asks for the type, and no marker
takes part.  Where it does not, and the value has no items, the rendering is
the marker and nothing else.
-/

/-- Whether a value may be rendered item by item. -/
def Value.hasItems : Value → Bool
  | .bytes _ => true
  | .list _ => true
  | _ => false

namespace Standard

/-- The verb that asks for the type of a value asks for nothing else. -/
theorem single?_typeVerb
    {directive : Directive}
    (isType : directive.verb = typeVerb)
    (value : Value) :
    single? directive value = none := by
  cases value <;>
    simp [single?, Conversion.integer?, Conversion.unsigned?,
      Conversion.float?, Conversion.magnitude?, Conversion.text?,
      Conversion.bytes?, Conversion.pointer?, isType, typeVerb]

section

variable
  (mark : Value → List Char)
  {directive : Directive}
  {value : Value}

theorem renderUsing_of_single?
    {text : List Char}
    (shown : single? directive value = some text) :
    renderUsing mark directive value = text := by
  have notType : directive.verb ≠ typeVerb := by
    intro isType
    rw [single?_typeVerb isType] at shown
    cases shown
  cases value with
  | list items =>
      cases shown
  | bytes content =>
      rw [renderUsing, if_neg notType, shown]
      rfl
  | _ =>
      rw [renderUsing, item, if_neg notType, shown]
      · rfl
      all_goals simp

theorem renderUsing_typeVerb
    (isType : directive.verb = typeVerb)
    (value : Value) :
    renderUsing mark directive value = typeText directive value := by
  cases value with
  | list items =>
      rw [renderUsing, if_pos isType]
  | bytes content =>
      rw [renderUsing, if_pos isType]
  | _ =>
      rw [renderUsing, item, if_pos isType]
      all_goals simp

/-- A value without items to which the verb does not apply is rendered as its marker. -/
theorem renderUsing_of_single?_eq_none
    (notType : directive.verb ≠ typeVerb)
    (noItems : value.hasItems = false)
    (foreign : single? directive value = none) :
    renderUsing mark directive value = mark value := by
  cases value with
  | list _ | bytes _ =>
      cases noItems
  | _ =>
      rw [renderUsing, item, if_neg notType, foreign]
      · rfl
      all_goals simp

end

/-- A value to which the verb applies as one item is rendered as that item. -/
theorem renderText_of_single?
    {directive : Directive}
    {value : Value}
    {text : List Char}
    (shown : single? directive value = some text) :
    renderText directive value = text :=
  renderUsing_of_single? _ shown

/-- A number that is finite is rendered with a sign in its field, and any other as a word. -/
theorem renderText_float
    {directive : Directive}
    {number : Binary64}
    {magnitude : List Char}
    (isMagnitude :
      Conversion.magnitude? directive number = some magnitude) :
    renderText directive (.float number) =
      if number.isFinite = true then
        Conversion.signed directive number.isNegative magnitude
      else
        directive.padWith ' ' (Conversion.nonfinite directive number) := by
  apply renderText_of_single?
  rw [single?, Conversion.float?, isMagnitude, Option.map_some]

/-- With the verb that asks for the type, every value is rendered as the name of it. -/
theorem renderText_typeVerb
    {directive : Directive}
    (isType : directive.verb = typeVerb)
    (value : Value) :
    renderText directive value = typeText directive value :=
  renderUsing_typeVerb _ isType value

theorem toList_render (directive : Directive) (value : Value) :
    (render directive value).toList = renderText directive value :=
  String.toList_ofList

end Standard

end CaptureFormat
