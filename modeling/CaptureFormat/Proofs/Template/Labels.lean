import CaptureFormat.Proofs.Template.Block

namespace CaptureFormat

/-!
# Labelled directives

A directive can be spelled in a block with a name, or bare.  The marks in front
of the name are flags like those behind the colon, and only what ends the two
spellings differs.  Either spelling is one directive exactly if its modifiers
are followed by a supported verb and by nothing else.  So both are at the same
time, and the directives are equal but for the name.
-/

namespace Modifiers

/-- The same modifiers with more flags in front of them. -/
def behindFlags
    (modifiers : Modifiers)
    (marks : List Char)
    (areFlags : ∀ character ∈ marks, character ∈ Directive.flagChars) :
    Modifiers where
  flags := marks ++ modifiers.flags
  width := modifiers.width
  precision := modifiers.precision
  rest := modifiers.rest
  flags_maximal := by
    refine ⟨?_, modifiers.flags_maximal.stops⟩
    intro character member
    rcases List.mem_append.mp member with inMarks | inFlags
    · exact areFlags character inMarks
    · exact modifiers.flags_maximal.passes character inFlags
  width_maximal := modifiers.width_maximal
  precision_maximal := modifiers.precision_maximal

@[simp] theorem text_behindFlags
    (modifiers : Modifiers)
    (marks : List Char)
    (areFlags : ∀ character ∈ marks, character ∈ Directive.flagChars) :
    (modifiers.behindFlags marks areFlags).text = marks ++ modifiers.text :=
  List.append_assoc _ _ _

/-- Flags in front of modifiers count like marks in front of a name. -/
theorem withName_directive_behindFlags
    (modifiers : Modifiers)
    (marks : List Char)
    (areFlags : ∀ character ∈ marks, character ∈ Directive.flagChars)
    (name : Option String)
    (verb : Char)
    (accepted : Bool) :
    { (modifiers.behindFlags marks areFlags).directive none [] verb accepted
        with name } =
      modifiers.directive name marks verb accepted :=
  rfl

end Modifiers

namespace Grammar

variable {grammar : Grammar}

/-- A bare spelling is one directive exactly if a supported verb ends it. -/
theorem eventsFrom_bare_eq_directive_iff
    (modifiers : Modifiers)
    (bare : ∀ first ∈ modifiers.text.head?, first ≠ '%' ∧ first ≠ '{')
    (asked : Directive) :
    grammar.eventsFrom { rest := '%' :: modifiers.text } =
        [.directive asked] ↔
      ∃ verb ∈ grammar.verbs,
        modifiers.rest = [verb] ∧
          asked = modifiers.directive none [] verb true := by
  have single : ∀ rest, modifiers.text ≠ '%' :: rest := by
    intro rest shape
    exact (bare '%' (by rw [shape]; rfl)).1 rfl
  have braceless : ∀ rest, modifiers.text ≠ '{' :: rest := by
    intro rest shape
    exact (bare '{' (by rw [shape]; rfl)).2 rfl
  rw [eventsFrom_percent single, readDirective_of_ne_brace braceless,
    readBare_text]
  rcases modifiers.rest with _ | ⟨verb, _ | ⟨extra, more⟩⟩
  · simp
  · by_cases supported : verb ∈ grammar.verbs <;>
      simp [supported, eq_comm]
  · -- what follows the verb has events of its own
    simp [grammar.eventsFrom_cons_ne_nil extra more]

/-- A block with a name is one directive exactly if a supported verb ends its body. -/
theorem events_block_eq_directive_iff
    (block : Block)
    {modifiers : Modifiers}
    (body : block.body = some modifiers)
    (braceless : '}' ∉ block.text)
    (named : block.name ≠ [])
    (labelled : Directive) :
    grammar.events ("%\x7b" ++ String.ofList block.text ++ "\x7d") =
        [.directive labelled] ↔
      ∃ verb ∈ grammar.verbs,
        modifiers.rest = [verb] ∧
          labelled = block.directive modifiers verb true := by
  have read :
      grammar.events ("%\x7b" ++ String.ofList block.text ++ "\x7d") =
        [grammar.bodyEvent block modifiers] := by
    have alone :=
      grammar.readBlock_body block braceless (by simp [named]) body []
    rw [← String.toList_ofList (l := block.text)] at alone
    have inFront :
        grammar.events
            ("%\x7b" ++ String.ofList block.text ++ "\x7d" ++ "") =
          grammar.bodyEvent block modifiers :: grammar.events "" :=
      events_of_readBlock alone
    simpa [events] using inFront
  rw [read, List.singleton_inj, bodyEvent]
  rcases modifiers.rest with _ | ⟨verb, _ | ⟨extra, more⟩⟩
  · simp
  · by_cases supported : verb ∈ grammar.verbs <;>
      simp [supported, eq_comm]
  · by_cases supported : verb ∈ grammar.verbs <;> simp [supported]

/-- Marks in front of a text do not make it start with a percent sign or a brace. -/
theorem bare_marks_append
    {marks text : List Char}
    (areMarks : ∀ mark ∈ marks, mark = '+' ∨ mark = '#')
    (bare : ∀ first ∈ text.head?, first ≠ '%' ∧ first ≠ '{') :
    ∀ first ∈ (marks ++ text).head?, first ≠ '%' ∧ first ≠ '{' := by
  cases marks with
  | nil =>
      exact bare
  | cons mark others =>
      rintro first ⟨⟩
      rcases areMarks mark List.mem_cons_self with rfl | rfl <;> decide

/--
A block with a name and the same directive without the name are read alike:
one of them is a directive if the other is, and but for the name it is the
same.
-/
theorem events_labelled_iff
    (grammar : Grammar)
    {marks name body : String}
    (areMarks : ∀ mark ∈ marks.toList, mark = '+' ∨ mark = '#')
    (named : name ≠ "")
    (nameChars : ':' ∉ name.toList ∧ '}' ∉ name.toList)
    (unmarked : ∀ first ∈ name.toList.head?, ¬(first = '+' ∨ first = '#'))
    (braceless : '}' ∉ body.toList)
    (bare : ∀ first ∈ body.toList.head?, first ≠ '%' ∧ first ≠ '{')
    (labelled : Directive) :
    grammar.events
          ("%\x7b" ++ marks ++ name ++ ":" ++ body ++ "\x7d") =
        [.directive labelled] ↔
      ∃ asked : Directive,
        grammar.events ("%" ++ marks ++ body) = [.directive asked] ∧
          labelled = { asked with name := some name } := by
  obtain ⟨modifiers, spelled, _⟩ := Modifiers.existsUnique_text body.toList
  have areFlags :
      ∀ character ∈ marks.toList, character ∈ Directive.flagChars := by
    intro character member
    rcases areMarks character member with rfl | rfl <;> decide
  let flagged := modifiers.behindFlags marks.toList areFlags
  let block : Block := {
    marks := marks.toList
    name := name.toList
    body := some modifiers
    marks_maximal := by
      refine ⟨areMarks, ?_⟩
      rwa [List.head?_append_of_ne_nil _ (by simpa using named)]
    colonless := nameChars.1 }
  have blockText :
      block.text = (marks ++ name ++ ":" ++ body).toList := by
    simp [Block.text, Block.behindName, block, spelled]
  have blockBraceless : '}' ∉ block.text := by
    have notMark : '}' ∉ marks.toList := by
      intro member
      simpa using areMarks '}' member
    simp [blockText, notMark, nameChars.2, braceless]
  have blockSpelled :
      "%\x7b" ++ marks ++ name ++ ":" ++ body ++ "\x7d" =
        "%\x7b" ++ String.ofList block.text ++ "\x7d" := by
    rw [blockText, String.ofList_toList]
    simp only [String.append_assoc]
  have bareSpelled :
      ("%" ++ marks ++ body).toList = '%' :: flagged.text := by
    simp [flagged, spelled]
  have stillBare :
      ∀ first ∈ flagged.text.head?, first ≠ '%' ∧ first ≠ '{' := by
    rw [Modifiers.text_behindFlags, spelled]
    exact bare_marks_append areMarks bare
  have sameDirective :
      ∀ verb,
        block.directive modifiers verb true =
          { flagged.directive none [] verb true with name := some name } := by
    intro verb
    simp only [flagged, Modifiers.withName_directive_behindFlags,
      Block.directive, block, String.ofList_toList]
  rw [blockSpelled,
    events_block_eq_directive_iff block rfl blockBraceless (by simpa [block])]
  simp only [events, bareSpelled, eventsFrom_bare_eq_directive_iff _ stillBare]
  constructor
  · rintro ⟨verb, supported, ends, rfl⟩
    exact ⟨_, ⟨verb, supported, ends, rfl⟩, sameDirective verb⟩
  · rintro ⟨_, ⟨verb, supported, ends, rfl⟩, rfl⟩
    exact ⟨verb, supported, ends, (sameDirective verb).symm⟩

end Grammar

end CaptureFormat
