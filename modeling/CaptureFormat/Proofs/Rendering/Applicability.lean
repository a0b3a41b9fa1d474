import CaptureFormat.Proofs.Rendering.Bytes
import CaptureFormat.Proofs.Rendering.Width

namespace CaptureFormat

/-!
# Which verbs apply to what

A value that has no items is rendered as one item exactly if the table of verbs
says that the verb applies to it.  What has items, bytes that are not taken as a
whole among it, comes down to leaves that have none.  The verb `v` applies to
all of them, with every flag.
-/

/-- A property of all values may be shown of a list from that of its items. -/
theorem Value.induction_on_items
    {motive : Value → Prop}
    (single : ∀ value : Value, value.hasItems = false → motive value)
    (bytes : ∀ content, motive (.bytes content))
    (list : ∀ items, (∀ item ∈ items, motive item) → motive (.list items)) :
    ∀ value, motive value
  | .bytes content => bytes content
  | .list items =>
      list items fun item _ => induction_on_items single bytes list item
  | .nil | .bool _ | .int _ | .uint _ | .float _ | .text _ | .error _
  | .pointer _ => single _ rfl

namespace Standard

instance (verb : Char) (number : Int) :
    Decidable (AppliesToInteger verb number) :=
  inferInstanceAs (Decidable (_ ∨ _ ∨ _ ∨ _ ∧ _ ∧ _))

instance (verb : Char) : (value : Value) → Decidable (AppliesAsOne verb value)
  | .nil => inferInstanceAs (Decidable (verb = 'v'))
  | .bool _ => inferInstanceAs (Decidable (verb = 'v' ∨ verb = 't'))
  | .int number =>
      inferInstanceAs (Decidable (AppliesToInteger verb number.toInt))
  | .uint number =>
      inferInstanceAs (Decidable (AppliesToInteger verb number.toNat))
  | .float _ =>
      inferInstanceAs
        (Decidable (verb ∈ ['v', 'e', 'E', 'f', 'F', 'g', 'G']))
  | .text _ | .error _ =>
      inferInstanceAs (Decidable (verb ∈ ['v', 's', 'q', 'x', 'X']))
  | .bytes _ => inferInstanceAs (Decidable (verb ∈ ['s', 'q', 'x', 'X']))
  | .pointer _ =>
      inferInstanceAs
        (Decidable (verb ∈ ['p', 'v', 'd', 'b', 'o', 'x', 'X']))
  | .list _ => inferInstanceAs (Decidable False)

variable {directive : Directive}

theorem appliesToInteger_of_integer?
    {number : Int}
    {shown : List Char}
    (isShown : Conversion.integer? directive number = some shown) :
    AppliesToInteger directive.verb number := by
  unfold Conversion.integer? at isShown
  unfold AppliesToInteger
  split at isShown
  case h_9 isQ =>
    have inside : ¬¬(0 ≤ number ∧ number ≤ 0x10FFFF) := by
      intro outside
      rw [Conversion.quotedCharacter?_eq, if_neg outside] at isShown
      cases isShown
    exact Or.inr (Or.inr (Or.inr ⟨isQ, not_not.mp inside⟩))
  case h_11 =>
    cases isShown
  all_goals simp [*]

/-- A verb that renders a value without items applies to it. -/
theorem appliesAsOne_of_single?
    {value : Value}
    (noItems : value.hasItems = false)
    {shown : List Char}
    (isShown : single? directive value = some shown) :
    AppliesAsOne directive.verb value := by
  cases value with
  | nil | bool _ =>
      rw [single?] at isShown
      split at isShown
      · next applies => exact applies
      · cases isShown
  | int number =>
      exact appliesToInteger_of_integer? isShown
  | uint number =>
      rw [single?, Conversion.unsigned?] at isShown
      split at isShown
      · next inSource => exact Or.inl (by simp [inSource.1])
      · exact appliesToInteger_of_integer? isShown
  | float number =>
      rw [single?, Conversion.float?] at isShown
      obtain ⟨magnitude, isMagnitude, _⟩ :=
        Option.map_eq_some_iff.mp isShown
      unfold Conversion.magnitude? at isMagnitude
      split at isMagnitude
      case h_8 =>
        cases isMagnitude
      all_goals simp [AppliesAsOne, *]
  | text content | error content =>
      rw [single?] at isShown
      unfold Conversion.text? at isShown
      split at isShown
      case h_6 =>
        cases isShown
      all_goals simp [AppliesAsOne, *]
  | pointer address =>
      rw [single?] at isShown
      unfold Conversion.pointer? at isShown
      split at isShown
      case h_8 =>
        cases isShown
      all_goals simp [AppliesAsOne, *]
  | bytes _ | list _ =>
      cases noItems

/-- A value without items is rendered as one item just if the verb applies to it. -/
theorem single?_eq_none_iff
    {value : Value}
    (noItems : value.hasItems = false) :
    single? directive value = none ↔
      ¬AppliesAsOne directive.verb value := by
  constructor
  · intro foreign applies
    obtain ⟨text, _, shown, _⟩ := fills_single applies
    have isShown : single? directive value = some text := shown
    rw [foreign] at isShown
    cases isShown
  · intro foreign
    rw [Option.eq_none_iff_forall_ne_some]
    exact fun _ isShown =>
      foreign (appliesAsOne_of_single? noItems isShown)

/-- Bytes are taken as a whole, and not as the list of their numbers. -/
def TakesBytesWhole (directive : Directive) : Prop :=
  directive.verb ∈ ['s', 'q', 'x', 'X', 'T'] ∨
    directive.verb = 'v' ∧ directive.flags.source = true

instance : DecidablePred TakesBytesWhole := fun _ =>
  inferInstanceAs (Decidable (_ ∨ _ ∧ _))

theorem single?_bytes_eq_none
    (notWhole : ¬TakesBytesWhole directive)
    (content : List UInt8) :
    single? directive (.bytes content) = none := by
  rw [TakesBytesWhole, not_or] at notWhole
  refine Conversion.bytes?_eq_none ?_ notWhole.2 content
  exact fun isOne => notWhole.1 (List.mem_append_left ['T'] isOne)

theorem exists_single?_bytes
    (notType : directive.verb ≠ typeVerb)
    (whole : TakesBytesWhole directive)
    (content : List UInt8) :
    ∃ shown, single? directive (.bytes content) = some shown := by
  rcases whole with inTable | ⟨isV, source⟩
  · have applies : AppliesAsOne directive.verb (.bytes content) := by
      simp only [List.mem_cons, List.not_mem_nil, or_false] at inTable
      simp only [AppliesAsOne, List.mem_cons, List.not_mem_nil, or_false]
      unfold typeVerb at notType
      tauto
    obtain ⟨shown, _, isShown, _⟩ := fills_single applies
    exact ⟨shown, isShown⟩
  · refine ⟨Conversion.byteSource content, ?_⟩
    simp only [single?, Conversion.bytes?, isV, source, if_true]

mutual

/-- What a value comes down to, in order: the values in it that have no items. -/
def leaves (directive : Directive) : Value → List Value
  | .list items => leavesEach directive items
  | .bytes content =>
      if TakesBytesWhole directive then
        [.bytes content]
      else
        numbers content
  | value => [value]

/-- What the values of a list come down to. -/
def leavesEach (directive : Directive) : List Value → List Value
  | [] => []
  | value :: rest => leaves directive value ++ leavesEach directive rest

end

/-- Whether the verb of a directive applies to a leaf. -/
def Applies (directive : Directive) : Value → Prop
  | .bytes _ => TakesBytesWhole directive
  | .list _ => True
  | value =>
      directive.verb = typeVerb ∨ AppliesAsOne directive.verb value

instance (directive : Directive) :
    (value : Value) → Decidable (Applies directive value)
  | .bytes _ => inferInstanceAs (Decidable (TakesBytesWhole directive))
  | .list _ => inferInstanceAs (Decidable True)
  | .nil | .bool _ | .int _ | .uint _ | .float _ | .text _ | .error _
  | .pointer _ => inferInstanceAs (Decidable (_ ∨ AppliesAsOne _ _))

/-- The leaves of a value that the verb of a directive does not apply to. -/
def foreignLeaves (directive : Directive) (value : Value) : List Value :=
  (leaves directive value).filter fun leaf => ¬Applies directive leaf

theorem leavesEach_eq_flatMap (items : List Value) :
    leavesEach directive items = items.flatMap (leaves directive) := by
  induction items with
  | nil =>
      rfl
  | cons value rest inductionHypothesis =>
      rw [leavesEach, inductionHypothesis, List.flatMap_cons]

theorem foreignLeaves_list (items : List Value) :
    foreignLeaves directive (.list items) =
      items.flatMap (foreignLeaves directive) := by
  rw [foreignLeaves, leaves, leavesEach_eq_flatMap, List.filter_flatMap]
  rfl

theorem foreignLeaves_of_applies
    {value : Value}
    (noItems : value.hasItems = false)
    (applies :
      directive.verb = typeVerb ∨ AppliesAsOne directive.verb value) :
    foreignLeaves directive value = [] := by
  cases value <;> cases noItems <;>
    simp [foreignLeaves, leaves, Applies, applies]

theorem foreignLeaves_of_not_applies
    {value : Value}
    (noItems : value.hasItems = false)
    (foreign :
      ¬(directive.verb = typeVerb ∨
          AppliesAsOne directive.verb value)) :
    foreignLeaves directive value = [value] := by
  cases value <;> cases noItems <;>
    simp [foreignLeaves, leaves, Applies, foreign]

theorem foreignLeaves_bytes_of_whole
    (whole : TakesBytesWhole directive)
    (content : List UInt8) :
    foreignLeaves directive (.bytes content) = [] := by
  simp [foreignLeaves, leaves, Applies, whole]

theorem foreignLeaves_bytes_of_not_whole
    (notWhole : ¬TakesBytesWhole directive)
    (content : List UInt8) :
    foreignLeaves directive (.bytes content) =
      (numbers content).flatMap (foreignLeaves directive) := by
  have ownLeaves :
      (numbers content).flatMap (leaves directive) = numbers content := by
    rw [numbers, List.flatMap_map]
    exact List.map_eq_flatMap.symm
  rw [foreignLeaves, leaves, if_neg notWhole, ← ownLeaves,
    List.filter_flatMap, ownLeaves]
  rfl

/-- Where one item is rendered, the verb applies to all there is. -/
theorem foreignLeaves_of_single?
    {value : Value}
    {shown : List Char}
    (isShown : single? directive value = some shown) :
    foreignLeaves directive value = [] := by
  cases noItems : value.hasItems with
  | false =>
      exact
        foreignLeaves_of_applies noItems
          (Or.inr (appliesAsOne_of_single? noItems isShown))
  | true =>
      cases value with
      | bytes content =>
          by_cases whole : TakesBytesWhole directive
          · exact foreignLeaves_bytes_of_whole whole content
          · rw [single?_bytes_eq_none whole] at isShown
            cases isShown
      | list items =>
          cases isShown
      | _ =>
          cases noItems

/-- The verb `v` applies to every value without items. -/
theorem appliesAsOne_value_verb
    {value : Value}
    (noItems : value.hasItems = false) :
    AppliesAsOne 'v' value := by
  cases value <;> cases noItems <;>
    simp [AppliesAsOne, AppliesToInteger]

/-- A verb that applies to every value without items applies to every leaf. -/
theorem foreignLeaves_eq_nil
    (applies :
      ∀ value : Value,
        value.hasItems = false →
        directive.verb = typeVerb ∨ AppliesAsOne directive.verb value)
    (value : Value) :
    foreignLeaves directive value = [] := by
  have ofSingle :
      ∀ value : Value,
        value.hasItems = false → foreignLeaves directive value = [] :=
    fun value noItems =>
      foreignLeaves_of_applies noItems (applies value noItems)
  induction value using Value.induction_on_items with
  | single value noItems =>
      exact ofSingle value noItems
  | bytes content =>
      by_cases whole : TakesBytesWhole directive
      · exact foreignLeaves_bytes_of_whole whole content
      · rw [foreignLeaves_bytes_of_not_whole whole,
          List.flatMap_eq_nil_iff]
        intro number member
        obtain ⟨byte, _, rfl⟩ := List.mem_map.mp member
        exact ofSingle _ rfl
  | list items inductionHypothesis =>
      rw [foreignLeaves_list, List.flatMap_eq_nil_iff]
      exact inductionHypothesis

/-- The verb that asks for the type applies to every leaf. -/
theorem foreignLeaves_typeVerb
    (isType : directive.verb = typeVerb)
    (value : Value) :
    foreignLeaves directive value = [] :=
  foreignLeaves_eq_nil (fun _ _ => Or.inl isType) value

/-- The verb `v` applies to every leaf, whatever the flags say. -/
theorem foreignLeaves_value_verb
    (isV : directive.verb = 'v')
    (value : Value) :
    foreignLeaves directive value = [] := by
  refine foreignLeaves_eq_nil (fun value noItems => Or.inr ?_) value
  rw [isV]
  exact appliesAsOne_value_verb noItems

end Standard

end CaptureFormat
