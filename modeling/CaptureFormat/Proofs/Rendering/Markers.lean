import CaptureFormat.Proofs.Rendering.Applicability

namespace CaptureFormat.Standard

/-!
# Calls of the standard rendering

Rendering a value calls for its items, and where the verb does not apply, for a
description, which renders the same value again.  `Renders` and `Describes` say
which calls there are and what parts each of them writes.  A run that ends is a
derivation, so that every call ends is that every call has one.

The value does not get smaller when it is described, but its verb is `v` then,
and under that verb nothing is described.  So there are two inductions over
values: one for the verb `v`, with no marker in it, and with its outcome at
hand one for all verbs.
-/

/-- A part of what is rendered. -/
inductive Part where
  /-- Text that is no marker. -/
  | text (shown : List Char)
  /-- The marker of a value, around the parts of its description. -/
  | marker (verb : Char) (value : Value) (description : List Part)

namespace Part

mutual

/-- The characters of a part. -/
def chars : Part → List Char
  | .text shown => shown
  | .marker verb _ description =>
      '%' :: '!' :: verb :: '(' :: charsEach description ++ [')']

/-- The characters of parts behind each other. -/
def charsEach : List Part → List Char
  | [] => []
  | part :: rest => part.chars ++ charsEach rest

end

/-- Whether a part is a marker. -/
def isMarker : Part → Bool
  | .text _ => false
  | .marker _ _ _ => true

/-- The parts of items between brackets, or in source form between braces. -/
def group (directive : Directive) (items : List (List Part)) : List Part :=
  if directive.verb = 'v' ∧ directive.flags.source = true then
    .text "[]value\x7b".toList ::
      List.intercalate [.text [',', ' ']] items ++ [.text ['}']]
  else
    .text ['['] :: List.intercalate [.text [' ']] items ++ [.text [']']]

theorem charsEach_append (left right : List Part) :
    charsEach (left ++ right) = charsEach left ++ charsEach right := by
  induction left with
  | nil =>
      rfl
  | cons part rest inductionHypothesis =>
      rw [List.cons_append, charsEach, charsEach, inductionHypothesis,
        List.append_assoc]

theorem charsEach_text (shown : List Char) :
    charsEach [.text shown] = shown := by
  rw [charsEach, charsEach, chars, List.append_nil]

theorem charsEach_intercalate
    (separator : List Char)
    (items : List (List Part)) :
    charsEach (List.intercalate [.text separator] items) =
      List.intercalate separator (items.map charsEach) := by
  induction items with
  | nil =>
      rfl
  | cons first rest inductionHypothesis =>
      cases rest with
      | nil =>
          rw [List.map_singleton, List.intercalate_singleton,
            List.intercalate_singleton]
      | cons second rest =>
          rw [List.intercalate_cons_cons, charsEach_append,
            charsEach_append, inductionHypothesis, charsEach_text]
          simp only [List.map_cons, List.intercalate_cons_cons]

/-- Grouped parts have the characters of the grouped items. -/
theorem charsEach_group
    (directive : Directive)
    (items : List (List Part)) :
    charsEach (group directive items) =
      Standard.group directive (items.map charsEach) := by
  unfold group Standard.group
  split <;>
    rw [List.cons_append, charsEach, charsEach_append,
      charsEach_intercalate, charsEach_text] <;>
    rfl

theorem filter_isMarker_intercalate
    (separator : List Char)
    (items : List (List Part)) :
    (List.intercalate [.text separator] items).filter isMarker =
      items.flatMap (·.filter isMarker) := by
  induction items with
  | nil =>
      rfl
  | cons first rest inductionHypothesis =>
      cases rest with
      | nil =>
          rw [List.intercalate_singleton, List.flatMap_singleton]
      | cons second rest =>
          rw [List.intercalate_cons_cons, List.filter_append,
            List.filter_append, inductionHypothesis]
          simp [isMarker]

/-- Grouping writes no marker of its own. -/
theorem filter_isMarker_group
    (directive : Directive)
    (items : List (List Part)) :
    (group directive items).filter isMarker =
      items.flatMap (·.filter isMarker) := by
  unfold group
  split <;>
    rw [List.cons_append, List.filter_cons, List.filter_append,
      filter_isMarker_intercalate] <;>
    exact List.append_nil _

end Part

mutual

/-- Rendering a value for a directive ends and has written these parts. -/
inductive Renders : Directive → Value → List Part → Prop where
  /-- The verb asks for the type. -/
  | typeName {directive : Directive} {value : Value} :
      directive.verb = typeVerb →
      Renders directive value [.text (typeText directive value)]
  /-- The verb applies to the value as one item. -/
  | whole
      {directive : Directive}
      {value : Value}
      {shown : List Char} :
      single? directive value = some shown →
      Renders directive value [.text shown]
  /-- Bytes call for each of their numbers. -/
  | eachByte
      {directive : Directive}
      {content : List UInt8}
      {items : List (List Part)} :
      directive.verb ≠ typeVerb →
      single? directive (.bytes content) = none →
      RendersEach directive (numbers content) items →
      Renders directive (.bytes content) (Part.group directive items)
  /-- A list calls for each of its items. -/
  | eachItem
      {directive : Directive}
      {values : List Value}
      {items : List (List Part)} :
      directive.verb ≠ typeVerb →
      RendersEach directive values items →
      Renders directive (.list values) (Part.group directive items)
  /-- Where the verb does not apply, the value calls for its description. -/
  | mismatch
      {directive : Directive}
      {value : Value}
      {description : List Part} :
      directive.verb ≠ typeVerb →
      value.hasItems = false →
      single? directive value = none →
      Describes value description →
      Renders directive value
        [.marker directive.verb value description]

/-- Rendering the values of a list ends and has written these parts of each. -/
inductive RendersEach :
    Directive → List Value → List (List Part) → Prop where
  | nil {directive : Directive} :
      RendersEach directive [] []
  | cons
      {directive : Directive}
      {value : Value}
      {values : List Value}
      {parts : List Part}
      {items : List (List Part)} :
      Renders directive value parts →
      RendersEach directive values items →
      RendersEach directive (value :: values) (parts :: items)

/-- Describing a value ends and has written these parts. -/
inductive Describes : Value → List Part → Prop where
  | nil :
      Describes .nil [.text "<nil>".toList]
  /-- A description calls for the value itself, with the verb `v` and no flags. -/
  | typed {value : Value} {parts : List Part} :
      value.isNil = false →
      Renders (Directive.plain 'v') value parts →
      Describes value (.text (value.typeName.toList ++ ['=']) :: parts)

end

/-- A part is the marker of a leaf, with a description of it inside. -/
def Marks (verb : Char) (leaf : Value) (part : Part) : Prop :=
  ∃ description,
    part = .marker verb leaf description ∧ Describes leaf description

/--
The one run of a call, with what it writes: the characters that `renderUsing`
gives for these markers, and one marker for each leaf that the verb does not
apply to, in order.
-/
structure Run
    (mark : Value → List Char)
    (directive : Directive)
    (value : Value)
    (parts : List Part) : Prop where
  renders : Renders directive value parts
  unique {others : List Part} :
    Renders directive value others → others = parts
  chars_eq : Part.charsEach parts = renderUsing mark directive value
  marks :
    List.Forall₂ (Marks directive.verb)
      (foreignLeaves directive value) (parts.filter Part.isMarker)

/-- The one run over the values of a list. -/
structure RunEach
    (mark : Value → List Char)
    (directive : Directive)
    (values : List Value)
    (items : List (List Part)) : Prop where
  renders : RendersEach directive values items
  unique {others : List (List Part)} :
    RendersEach directive values others → others = items
  chars_eq : items.map Part.charsEach = renderEach mark directive values
  marks :
    List.Forall₂ (Marks directive.verb)
      (values.flatMap (foreignLeaves directive))
      (items.flatMap (·.filter Part.isMarker))

section

variable
  {mark : Value → List Char}
  {directive : Directive}

/-- Runs over all values of a list make one run over the list. -/
theorem exists_runEach
    {values : List Value}
    (runs : ∀ value ∈ values, ∃ parts, Run mark directive value parts) :
    ∃ items, RunEach mark directive values items := by
  induction values with
  | nil =>
      refine ⟨[], .nil, ?_, rfl, .nil⟩
      intro others renders
      cases renders
      rfl
  | cons value rest inductionHypothesis =>
      obtain ⟨ofValue, ofRest⟩ := List.forall_mem_cons.mp runs
      obtain ⟨parts, run⟩ := ofValue
      obtain ⟨items, each⟩ := inductionHypothesis ofRest
      refine
        ⟨parts :: items, .cons run.renders each.renders, ?_, ?_, ?_⟩
      · intro others renders
        cases renders with
        | cons first others =>
            rw [run.unique first, each.unique others]
      · rw [List.map_cons, renderEach, run.chars_eq, each.chars_eq]
      · rw [List.flatMap_cons, List.flatMap_cons]
        exact List.rel_append run.marks each.marks

/-- Every run for the type writes the name of it. -/
theorem run_typeVerb
    (isType : directive.verb = typeVerb)
    (value : Value) :
    Run mark directive value [.text (typeText directive value)] where
  renders := .typeName isType
  unique renders := by
    cases renders with
    | typeName => rfl
    | whole shown =>
        rw [single?_typeVerb isType] at shown
        cases shown
    | eachByte notType | eachItem notType | mismatch notType =>
        exact absurd isType notType
  chars_eq := by
    rw [Part.charsEach_text, renderUsing_typeVerb mark isType]
  marks := by
    rw [foreignLeaves_typeVerb isType]
    exact .nil

/-- A value to which the verb applies as one item is written as that item. -/
theorem run_whole
    {value : Value}
    {shown : List Char}
    (isShown : single? directive value = some shown) :
    Run mark directive value [.text shown] where
  renders := .whole isShown
  unique renders := by
    cases renders with
    | typeName isType =>
        rw [single?_typeVerb isType] at isShown
        cases isShown
    | whole others =>
        rw [isShown] at others
        cases others
        rfl
    | eachByte _ notOne =>
        rw [isShown] at notOne
        cases notOne
    | eachItem =>
        cases isShown
    | mismatch _ _ foreign =>
        rw [isShown] at foreign
        cases foreign
  chars_eq := by
    rw [Part.charsEach_text, renderUsing_of_single? mark isShown]
  marks := by
    rw [foreignLeaves_of_single? isShown]
    exact .nil

/-- Bytes that are not taken as a whole are written as their numbers. -/
theorem run_eachByte
    (notType : directive.verb ≠ typeVerb)
    {content : List UInt8}
    (notWhole : ¬TakesBytesWhole directive)
    {items : List (List Part)}
    (each : RunEach mark directive (numbers content) items) :
    Run mark directive (.bytes content)
      (Part.group directive items) where
  renders :=
    .eachByte notType (single?_bytes_eq_none notWhole content) each.renders
  unique renders := by
    have notOne := single?_bytes_eq_none notWhole content
    cases renders with
    | typeName isType =>
        exact absurd isType notType
    | whole shown =>
        rw [notOne] at shown
        cases shown
    | eachByte _ _ others =>
        rw [each.unique others]
    | mismatch _ noItems =>
        cases noItems
  chars_eq := by
    rw [Part.charsEach_group, each.chars_eq, renderEach_numbers,
      renderUsing, if_neg notType, single?_bytes_eq_none notWhole]
    rfl
  marks := by
    rw [Part.filter_isMarker_group,
      foreignLeaves_bytes_of_not_whole notWhole]
    exact each.marks

/-- A list is written as its items. -/
theorem run_eachItem
    (notType : directive.verb ≠ typeVerb)
    {values : List Value}
    {items : List (List Part)}
    (each : RunEach mark directive values items) :
    Run mark directive (.list values) (Part.group directive items) where
  renders := .eachItem notType each.renders
  unique renders := by
    cases renders with
    | typeName isType =>
        exact absurd isType notType
    | whole shown =>
        cases shown
    | eachItem _ others =>
        rw [each.unique others]
    | mismatch _ noItems =>
        cases noItems
  chars_eq := by
    rw [Part.charsEach_group, each.chars_eq, renderUsing, if_neg notType]
  marks := by
    rw [Part.filter_isMarker_group, foreignLeaves_list]
    exact each.marks

end

/--
The one run of a description, which has the characters of the description and
no marker in it.
-/
structure DescribingRun (value : Value) (description : List Part) : Prop where
  describes : Describes value description
  unique {others : List Part} :
    Describes value others → others = description
  chars_eq : Part.charsEach description = descriptionText value
  unmarked : description.filter Part.isMarker = []

/-- A value without items to which the verb does not apply is written as its marker. -/
theorem run_mismatch
    {directive : Directive}
    (notType : directive.verb ≠ typeVerb)
    {value : Value}
    (noItems : value.hasItems = false)
    (foreign : single? directive value = none)
    {description : List Part}
    (describing : DescribingRun value description) :
    Run (mismatch directive.verb) directive value
      [.marker directive.verb value description] where
  renders := .mismatch notType noItems foreign describing.describes
  unique renders := by
    cases renders with
    | typeName isType =>
        exact absurd isType notType
    | whole shown =>
        rw [foreign] at shown
        cases shown
    | eachByte | eachItem =>
        cases noItems
    | mismatch _ _ _ others =>
        rw [describing.unique others]
  chars_eq := by
    rw [renderUsing_of_single?_eq_none _ notType noItems foreign,
      Part.charsEach, Part.charsEach, Part.chars, describing.chars_eq,
      List.append_nil]
    rfl
  marks := by
    rw [foreignLeaves_of_not_applies noItems]
    · exact .cons ⟨description, rfl, describing.describes⟩ .nil
    · rw [not_or]
      exact ⟨notType, (single?_eq_none_iff noItems).mp foreign⟩

/--
Every value has a run if every value without items has one to which the verb
does not apply.
-/
theorem exists_run_of_foreign
    {mark : Value → List Char}
    {directive : Directive}
    (ofForeign :
      ∀ value : Value,
        value.hasItems = false →
        directive.verb ≠ typeVerb →
        single? directive value = none →
        ∃ parts, Run mark directive value parts)
    (value : Value) :
    ∃ parts, Run mark directive value parts := by
  by_cases isType : directive.verb = typeVerb
  · exact ⟨_, run_typeVerb isType value⟩
  have ofSingle :
      ∀ value : Value,
        value.hasItems = false → ∃ parts, Run mark directive value parts := by
    intro value noItems
    cases shown : single? directive value with
    | some text => exact ⟨_, run_whole shown⟩
    | none => exact ofForeign value noItems isType shown
  induction value using Value.induction_on_items with
  | single value noItems =>
      exact ofSingle value noItems
  | bytes content =>
      by_cases whole : TakesBytesWhole directive
      · obtain ⟨shown, isShown⟩ :=
          exists_single?_bytes isType whole content
        exact ⟨_, run_whole isShown⟩
      · have runs :
            ∀ value ∈ numbers content,
              ∃ parts, Run mark directive value parts := by
          intro value member
          obtain ⟨byte, _, rfl⟩ := List.mem_map.mp member
          exact ofSingle _ rfl
        obtain ⟨items, each⟩ := exists_runEach runs
        exact ⟨_, run_eachByte isType whole each⟩
  | list values inductionHypothesis =>
      obtain ⟨items, each⟩ := exists_runEach inductionHypothesis
      exact ⟨_, run_eachItem isType each⟩

/-- Under the verb `v` every value has a run, whatever a marker would be. -/
theorem exists_run_value_verb
    (mark : Value → List Char)
    (directive : Directive)
    (isV : directive.verb = 'v')
    (value : Value) :
    ∃ parts, Run mark directive value parts := by
  refine exists_run_of_foreign (fun value noItems _ foreign => ?_) value
  have applies := appliesAsOne_value_verb noItems
  rw [← isV] at applies
  exact absurd applies ((single?_eq_none_iff noItems).mp foreign)

/-- Every value has a description. -/
theorem exists_describingRun (value : Value) :
    ∃ description, DescribingRun value description := by
  by_cases isNil : value = .nil
  · subst isNil
    refine ⟨[.text "<nil>".toList], .nil, ?_, ?_, rfl⟩
    · intro others describes
      cases describes with
      | nil => rfl
      | typed notNil => cases notNil
    · rw [Part.charsEach_text]
      rfl
  · have notNil : value.isNil = false := by
      cases value with
      | nil => exact absurd rfl isNil
      | _ => rfl
    obtain ⟨parts, run⟩ :=
      exists_run_value_verb (fun _ => []) (Directive.plain 'v') rfl value
    refine
      ⟨.text (value.typeName.toList ++ ['=']) :: parts,
        .typed notNil run.renders, ?_, ?_, ?_⟩
    · intro others describes
      cases describes with
      | nil => cases notNil
      | typed _ renders => rw [run.unique renders]
    · rw [Part.charsEach, Part.chars, run.chars_eq, descriptionText,
        notNil]
      simp [plainText]
    · have marks := run.marks
      rw [foreignLeaves_value_verb rfl, List.forall₂_nil_left_iff] at marks
      rw [List.filter_cons, marks]
      rfl

/-- The characters of a marker are the verb and the description of the leaf. -/
theorem Marks.chars_eq
    {verb : Char}
    {leaf : Value}
    {part : Part}
    (marks : Marks verb leaf part) :
    part.chars =
      ['%', '!', verb, '('] ++ (describe leaf).toList ++ [')'] := by
  obtain ⟨description, rfl, describes⟩ := marks
  obtain ⟨only, describing⟩ := exists_describingRun leaf
  rw [Part.chars, describing.unique describes, describing.chars_eq,
    describe, String.toList_ofList]
  rfl

/-- Every value has a run for every directive. -/
theorem exists_run (directive : Directive) (value : Value) :
    ∃ parts, Run (mismatch directive.verb) directive value parts := by
  refine
    exists_run_of_foreign (fun value noItems notType foreign => ?_) value
  obtain ⟨description, describing⟩ := exists_describingRun value
  exact ⟨_, run_mismatch notType noItems foreign describing⟩

/--
Rendering always ends, and markers never nest.

Every call that renders or describes a value ends, in one way only.  What is
rendered has a marker for each leaf that the verb does not apply to, one and no
more, in order, and none besides.  The marker has the verb and the description
of that leaf in it, and no description has a marker in it.  Under the verb `v`
there is no marker at all, whatever the flags, the width, and the precision,
and however deep the value is.
-/
theorem render_ends_unnested (directive : Directive) (value : Value) :
    (∃! parts, Renders directive value parts) ∧
      (∃! description, Describes value description) ∧
      (∀ parts, Renders directive value parts →
        Part.charsEach parts = (render directive value).toList ∧
          List.Forall₂
            (fun leaf part =>
              part.chars =
                  ['%', '!', directive.verb, '('] ++
                    (describe leaf).toList ++ [')'] ∧
                ∃ description,
                  part = .marker directive.verb leaf description ∧
                    Describes leaf description)
            ((leaves directive value).filter fun leaf =>
              ¬Applies directive leaf)
            (parts.filter Part.isMarker) ∧
          (directive.verb = 'v' → ∀ part ∈ parts, part.isMarker = false)) ∧
      ∀ description, Describes value description →
        Part.charsEach description = (describe value).toList ∧
          ∀ part ∈ description, part.isMarker = false := by
  obtain ⟨parts, run⟩ := exists_run directive value
  obtain ⟨description, describing⟩ := exists_describingRun value
  refine
    ⟨⟨parts, run.renders, fun _ renders => run.unique renders⟩,
      ⟨description, describing.describes,
        fun _ describes => describing.unique describes⟩,
      fun others renders => ?_, fun others describes => ?_⟩
  · rw [run.unique renders]
    refine
      ⟨?_, run.marks.imp fun _ _ marks => ⟨marks.chars_eq, marks⟩,
        fun isV => ?_⟩
    · rw [run.chars_eq, toList_render, renderText]
    · have marks := run.marks
      rw [foreignLeaves_value_verb isV, List.forall₂_nil_left_iff] at marks
      simpa using marks
  · rw [describing.unique describes]
    refine ⟨?_, ?_⟩
    · rw [describing.chars_eq, describe, String.toList_ofList]
    · simpa using describing.unmarked

end CaptureFormat.Standard
