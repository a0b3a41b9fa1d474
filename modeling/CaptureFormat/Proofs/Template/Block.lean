import CaptureFormat.Proofs.Template.Bare
import CaptureFormat.Proofs.Template.Delimitation

namespace CaptureFormat

/-!
# Blocks

A block reaches up to the first closing brace, whatever stands in front of it.
`Block` is the inside of a block taken apart: marks, a name, and behind a colon
a body of modifiers.  As for modifiers, there is one way to do so.

`Grammar.Settles` is the table of what becomes of a closed block.
-/

/-- The inside of a block, taken apart. -/
@[ext]
structure Block where
  marks : List Char
  name : List Char
  /-- What stands behind the first colon, if there is a colon. -/
  body : Option Modifiers
  marks_maximal :
    MaximalRun (fun character => character = '+' ∨ character = '#') marks
      (name ++ body.elim [] fun modifiers => ':' :: modifiers.text)
  colonless : ':' ∉ name

namespace Block

/-- What stands behind the name of a block. -/
def behindName (block : Block) : List Char :=
  block.body.elim [] fun modifiers => ':' :: modifiers.text

/-- The inside that was taken apart. -/
def text (block : Block) : List Char :=
  block.marks ++ (block.name ++ block.behindName)

theorem text_injective : Function.Injective text := by
  intro block other sameText
  obtain ⟨sameMarks, behindMarks⟩ :=
    block.marks_maximal.unique other.marks_maximal sameText
  have nameMaximal :
      ∀ block : Block,
        MaximalRun (· ≠ ':') block.name block.behindName := by
    intro block
    refine ⟨?_, ?_⟩
    · intro character member same
      exact block.colonless (same ▸ member)
    · unfold behindName
      cases block.body <;> simp
  obtain ⟨sameName, sameBehind⟩ :=
    (nameMaximal block).unique (nameMaximal other) behindMarks
  have sameBody : block.body = other.body := by
    unfold behindName at sameBehind
    cases body : block.body with
    | none =>
        cases otherBody : other.body with
        | none =>
            rfl
        | some otherModifiers =>
            simp [body, otherBody] at sameBehind
    | some modifiers =>
        cases otherBody : other.body with
        | none =>
            simp [body, otherBody] at sameBehind
        | some otherModifiers =>
            simp only [body, otherBody, Option.elim_some,
              List.cons.injEq, true_and] at sameBehind
            rw [Modifiers.text_injective sameBehind]
  exact Block.ext sameMarks sameName sameBody

private theorem exists_name (text : List Char) :
    ∃ (name : List Char) (body : Option Modifiers),
      name ++ body.elim [] (fun modifiers => ':' :: modifiers.text) = text ∧
        ':' ∉ name := by
  obtain ⟨name, behind, rfl, maximal⟩ :=
    MaximalRun.exists_split (· != ':') text
  have colonless : ':' ∉ name := by
    intro member
    simpa using maximal.passes ':' member
  cases behind with
  | nil =>
      exact ⟨name, none, rfl, colonless⟩
  | cons colon inside =>
      have isColon : colon = ':' := by
        simpa using maximal.stops colon rfl
      obtain ⟨modifiers, rfl, _⟩ := Modifiers.existsUnique_text inside
      exact ⟨name, some modifiers, by rw [isColon]; rfl, colonless⟩

/-- Every inside of a block can be taken apart in exactly one way. -/
theorem existsUnique_text (inside : List Char) :
    ∃! block : Block, block.text = inside := by
  obtain ⟨marks, behindMarks, rfl, marksMaximal⟩ :=
    MaximalRun.exists_split Grammar.isBlockMark inside
  obtain ⟨name, body, rfl, colonless⟩ := exists_name behindMarks
  simp only [Grammar.isBlockMark, Bool.or_eq_true, beq_iff_eq]
    at marksMaximal
  refine ⟨⟨marks, name, body, marksMaximal, colonless⟩, rfl, ?_⟩
  intro other sameText
  exact text_injective sameText

/-- Text behind an opening brace is a closed block and what follows it, or has no end. -/
theorem braceless_or_closed (text : List Char) :
    '}' ∉ text ∨
      ∃ (block : Block) (rest : List Char),
        '}' ∉ block.text ∧ text = block.text ++ '}' :: rest := by
  by_cases closed : '}' ∈ text
  · obtain ⟨inside, rest, rfl, braceless⟩ :=
      List.eq_append_cons_of_mem closed
    obtain ⟨block, rfl, _⟩ := existsUnique_text inside
    exact Or.inr ⟨block, rest, braceless, rfl⟩
  · exact Or.inl closed

/-- What is known of the directive behind its name. -/
def head (block : Block) : Directive where
  name := some (String.ofList block.name)
  flags := .ofMarks block.marks false

/-- The directive that a block without a body stands for: a value. -/
def value (block : Block) : Directive where
  verb := 'v'
  name := some (String.ofList block.name)
  flags := .ofMarks block.marks true

/-- The directive that a block with a body stands for, with a verb. -/
def directive
    (block : Block)
    (modifiers : Modifiers)
    (verb : Char)
    (accepted : Bool) :
    Directive :=
  modifiers.directive (some (String.ofList block.name)) block.marks verb
    accepted

/-- The marks of a block are read off one by one, but only two characters are marks. -/
theorem head_eq (block : Block) :
    block.head = Grammar.blockDirective block.marks block.name := by
  have noMark :
      ∀ character,
        character ≠ '+' →
        character ≠ '#' →
        character ∉ block.marks := by
    intro character notPlus notSharp member
    rcases block.marks_maximal.passes character member with plus | sharp
    · exact notPlus plus
    · exact notSharp sharp
  simp [head, Grammar.blockDirective, Flags.ofMarks,
    noMark '-' (by decide) (by decide),
    noMark ' ' (by decide) (by decide),
    noMark '0' (by decide) (by decide)]

theorem accept_head (block : Block) :
    block.head.accept 'v' = block.value := by
  simp [head, value, Directive.accept, Directive.adaptToVerb, Flags.ofMarks]

end Block

/-- A directive, or the fault of a directive that did not run into the end of the template. -/
def Event.IsClosed : Event → Prop
  | .text _ => False
  | .directive _ => True
  | .fault _ reason => reason ≠ .unclosed

namespace Grammar

variable {grammar : Grammar}

/--
The event of a closed block with a body.  Behind the modifiers stands a verb
and nothing else; a character behind a verb that is supported takes the blame.
-/
def bodyEvent
    (grammar : Grammar)
    (block : Block)
    (modifiers : Modifiers) :
    Event :=
  match modifiers.rest with
  | [] => .fault (block.directive modifiers '\x00' false) .noVerb
  | [verb] =>
      if verb ∈ grammar.verbs then
        .directive (block.directive modifiers verb true)
      else
        .fault (block.directive modifiers verb false) .invalidVerb
  | verb :: extra :: _ =>
      if verb ∈ grammar.verbs then
        .fault { block.directive modifiers verb true with verb := extra }
          .invalidVerb
      else
        .fault (block.directive modifiers verb false) .invalidVerb

/--
What becomes of a closed block.  Nothing is said of a block without a body if
the grammar does not support values.
-/
def Settles (grammar : Grammar) (block : Block) (event : Event) : Prop :=
  if grammar.requireName = true ∧ block.name = [] then
    event = .fault block.head .unnamed
  else
    match block.body with
    | none => 'v' ∈ grammar.verbs → event = .directive block.value
    | some modifiers => event = grammar.bodyEvent block modifiers

theorem isClosed_bodyEvent
    (grammar : Grammar)
    (block : Block)
    (modifiers : Modifiers) :
    (grammar.bodyEvent block modifiers).IsClosed := by
  unfold bodyEvent
  rcases modifiers.rest with _ | ⟨verb, _ | ⟨extra, more⟩⟩
  · simp [Event.IsClosed]
  · by_cases supported : verb ∈ grammar.verbs <;>
      simp [Event.IsClosed, supported]
  · by_cases supported : verb ∈ grammar.verbs <;>
      simp [Event.IsClosed, supported]

/-- Without a brace in front of it, a closing brace is the first one. -/
theorem dropWhile_ne_brace_append
    {inside : List Char}
    (braceless : '}' ∉ inside)
    (rest : List Char) :
    (inside ++ '}' :: rest).dropWhile (· != '}') = '}' :: rest := by
  refine (takeWhile_append_of_stops ?_ ?_).2
  · intro character member
    exact bne_iff_ne.mpr fun same => braceless (same ▸ member)
  · simp

theorem closeBlock_append
    (directive : Directive)
    (fault : Fault)
    {inside : List Char}
    (braceless : '}' ∉ inside)
    (rest : List Char) :
    closeBlock directive fault (inside ++ '}' :: rest) =
      (.fault directive fault, rest) := by
  simp only [closeBlock, dropWhile_ne_brace_append braceless]

theorem readBlockBody_of_ne_brace
    {directive modified : Directive}
    {text behindVerb : List Char}
    {verb : Char}
    (read : directive.readModifiers text = (modified, verb :: behindVerb))
    (notClosed : verb ≠ '}') :
    grammar.readBlockBody directive text =
      grammar.readBlockEnd modified verb behindVerb := by
  simp only [readBlockBody, read]

/-- A character that stands where a block should end makes its verb invalid. -/
theorem readBlockEnd_of_ne_brace
    (directive : Directive)
    (verb : Char)
    {extra : Char}
    {more : List Char}
    (notClosed : extra ≠ '}') :
    grammar.readBlockEnd directive verb (extra :: more) =
      closeBlock
        (if verb ∈ grammar.verbs then
          { directive.accept verb with verb := extra }
        else
          { directive with verb })
        .invalidVerb (extra :: more) := by
  unfold readBlockEnd
  split
  · next shape =>
      exact absurd (List.cons.inj shape).1 notClosed
  · exact (apply_ite (closeBlock · .invalidVerb (extra :: more)) _ _ _).symm

theorem readBlockBody_append
    (grammar : Grammar)
    (block : Block)
    (modifiers : Modifiers)
    (braceless : '}' ∉ modifiers.text)
    (rest : List Char) :
    grammar.readBlockBody block.head (modifiers.text ++ '}' :: rest) =
      (grammar.bodyEvent block modifiers, rest) := by
  have read :
      block.head.readModifiers (modifiers.text ++ '}' :: rest) =
        (block.directive modifiers '\x00' false,
          modifiers.rest ++ '}' :: rest) := by
    rw [← Modifiers.text_close]
    exact Directive.readModifiers_text (modifiers.close rest) _ block.marks
  -- so the closing brace is the only one that the reader can see
  have restBraceless : '}' ∉ modifiers.rest := by
    intro member
    exact braceless (by simp [Modifiers.text, member])
  unfold bodyEvent
  generalize modifiers.rest = behind at read restBraceless
  -- nothing but the closing brace, a verb in front of it, or more than a verb
  rcases behind with _ | ⟨verb, _ | ⟨extra, more⟩⟩
  · simp only [readBlockBody, read, List.nil_append]
  · have notClosed : verb ≠ '}' := by
      rintro rfl
      exact restBraceless List.mem_cons_self
    rw [readBlockBody_of_ne_brace read notClosed]
    exact congrArg (·, rest) (conclude_directive grammar modifiers _ _ verb)
  · obtain ⟨notClosed, extraBraceless⟩ :=
      not_or.mp (mt List.mem_cons.mpr restBraceless)
    have notEnd : extra ≠ '}' := by
      rintro rfl
      exact extraBraceless List.mem_cons_self
    rw [readBlockBody_of_ne_brace read (Ne.symm notClosed)]
    refine (readBlockEnd_of_ne_brace _ verb notEnd).trans ?_
    refine (closeBlock_append _ _ extraBraceless rest).trans ?_
    by_cases supported : verb ∈ grammar.verbs
    · simp only [if_pos supported]
      rw [Block.directive, Directive.accept_directive]
      rfl
    · simp only [if_neg supported]
      rfl

/-- The marks and the name of a block are read first, whether or not it is closed. -/
theorem exists_readBehindName
    (grammar : Grammar)
    (text : List Char) :
    ∃ (block : Block) (behindName : List Char),
      block.body = none ∧
        '}' ∉ block.name ∧
        grammar.readBlock text =
          grammar.readBehindName block.marks block.name behindName := by
  obtain ⟨marks, behindMarks, rfl, marksMaximal⟩ :=
    MaximalRun.exists_split isBlockMark text
  obtain ⟨name, behindName, rfl, nameMaximal⟩ :=
    MaximalRun.exists_split isNameChar behindMarks
  obtain ⟨marksTaken, marksLeft⟩ := marksMaximal.takeWhile_dropWhile
  obtain ⟨nameTaken, nameLeft⟩ := nameMaximal.takeWhile_dropWhile
  let block : Block := {
    marks
    name
    body := none
    marks_maximal := by
      refine ⟨?_, ?_⟩
      · intro character member
        simpa [isBlockMark] using marksMaximal.passes character member
      · intro character isFirst
        have inFront :
            character ∈ (name ++ behindName).head? := by
          cases name with
          | nil =>
              cases isFirst
          | cons first others =>
              exact isFirst
        simpa [isBlockMark] using marksMaximal.stops character inFront
    colonless := by
      intro member
      have passes := nameMaximal.passes ':' member
      simp [isNameChar] at passes }
  refine ⟨block, behindName, rfl, ?_, ?_⟩
  · intro member
    have passes := nameMaximal.passes '}' member
    simp [isNameChar] at passes
  · rw [readBlock_eq, marksTaken, marksLeft, nameTaken, nameLeft]

/-- Scanning a closed block finds its marks, its name, and what is behind the name. -/
theorem scan_block
    (block : Block)
    (braceless : '}' ∉ block.text)
    (rest : List Char) :
    (block.text ++ '}' :: rest).takeWhile isBlockMark = block.marks ∧
      ((block.text ++ '}' :: rest).dropWhile isBlockMark).takeWhile
          isNameChar = block.name ∧
      ((block.text ++ '}' :: rest).dropWhile isBlockMark).dropWhile
          isNameChar = block.behindName ++ '}' :: rest := by
  have shape :
      block.text ++ '}' :: rest =
        block.marks ++
          (block.name ++ (block.behindName ++ '}' :: rest)) := by
    simp only [Block.text, List.append_assoc]
  have marksMaximal :
      MaximalRun (isBlockMark · = true) block.marks
        (block.name ++ (block.behindName ++ '}' :: rest)) := by
    have maximal :=
      block.marks_maximal.extend (by decide : ¬('}' = '+' ∨ '}' = '#')) rest
    simpa [isBlockMark, Block.behindName] using maximal
  have nameMaximal :
      MaximalRun (isNameChar · = true) block.name
        (block.behindName ++ '}' :: rest) := by
    refine ⟨?_, ?_⟩
    · intro character member
      have notColon : character ≠ ':' := by
        rintro rfl
        exact block.colonless member
      have notBrace : character ≠ '}' := by
        rintro rfl
        exact braceless (by simp [Block.text, member])
      simp [isNameChar, notColon, notBrace]
    · unfold Block.behindName
      cases block.body <;> simp [isNameChar]
  obtain ⟨marks, behindMarks⟩ := marksMaximal.takeWhile_dropWhile
  rw [shape, marks, behindMarks]
  exact ⟨rfl, nameMaximal.takeWhile_dropWhile⟩

/-- The marks and the name of a closed block are split off its inside. -/
theorem readBlock_eq_readBehindName
    (grammar : Grammar)
    (block : Block)
    (braceless : '}' ∉ block.text)
    (rest : List Char) :
    grammar.readBlock (block.text ++ '}' :: rest) =
      grammar.readBehindName block.marks block.name
        (block.behindName ++ '}' :: rest) := by
  obtain ⟨marks, name, behindName⟩ := scan_block block braceless rest
  rw [readBlock_eq, marks, name, behindName]

theorem braceless_body
    {block : Block}
    {modifiers : Modifiers}
    (braceless : '}' ∉ block.text)
    (body : block.body = some modifiers) :
    '}' ∉ modifiers.text := by
  intro member
  apply braceless
  simp [Block.text, Block.behindName, body, member]

/-- Without a name where one is required, a closed block is faulty, whatever its body is. -/
theorem readBlock_nameless
    (grammar : Grammar)
    (block : Block)
    (braceless : '}' ∉ block.text)
    (nameless : grammar.requireName = true ∧ block.name = [])
    (rest : List Char) :
    grammar.readBlock (block.text ++ '}' :: rest) =
      (.fault block.head .unnamed, rest) := by
  rw [grammar.readBlock_eq_readBehindName block braceless,
    Block.behindName, Block.head_eq]
  cases body : block.body with
  | none =>
      simp [readBehindName, nameless.1, nameless.2]
  | some modifiers =>
      simp [readBehindName, nameless.1, nameless.2,
        closeBlock_append _ _ (braceless_body braceless body)]

/-- The verb of a block without a body is not looked up. -/
theorem readBlock_bodiless
    (grammar : Grammar)
    (block : Block)
    (braceless : '}' ∉ block.text)
    (named : ¬(grammar.requireName = true ∧ block.name = []))
    (bodiless : block.body = none)
    (rest : List Char) :
    grammar.readBlock (block.text ++ '}' :: rest) =
      (.directive block.value, rest) := by
  have noFault : (grammar.requireName && block.name.isEmpty) = false := by
    simpa using named
  rw [grammar.readBlock_eq_readBehindName block braceless,
    Block.behindName, bodiless, ← Block.accept_head, Block.head_eq]
  simp [readBehindName, noFault]

theorem readBlock_body
    (grammar : Grammar)
    (block : Block)
    (braceless : '}' ∉ block.text)
    (named : ¬(grammar.requireName = true ∧ block.name = []))
    {modifiers : Modifiers}
    (body : block.body = some modifiers)
    (rest : List Char) :
    grammar.readBlock (block.text ++ '}' :: rest) =
      (grammar.bodyEvent block modifiers, rest) := by
  have noFault : (grammar.requireName && block.name.isEmpty) = false := by
    simpa using named
  rw [grammar.readBlock_eq_readBehindName block braceless,
    Block.behindName, body,
    ← grammar.readBlockBody_append block modifiers
      (braceless_body braceless body), Block.head_eq]
  simp [readBehindName, noFault]

/-- A closed block is settled by its inside and ends behind the first closing brace. -/
theorem readBlock_append
    (grammar : Grammar)
    (block : Block)
    (braceless : '}' ∉ block.text) :
    ∃ event : Event,
      event.IsClosed ∧
        grammar.Settles block event ∧
        ∀ rest,
          grammar.readBlock (block.text ++ '}' :: rest) = (event, rest) := by
  unfold Settles
  by_cases nameless : grammar.requireName = true ∧ block.name = []
  · simp only [if_pos nameless]
    exact
      ⟨.fault block.head .unnamed, by simp [Event.IsClosed], rfl,
        grammar.readBlock_nameless block braceless nameless⟩
  · simp only [if_neg nameless]
    cases body : block.body with
    | none =>
        exact
          ⟨.directive block.value, trivial, fun _ => rfl,
            grammar.readBlock_bodiless block braceless nameless body⟩
    | some modifiers =>
        exact
          ⟨grammar.bodyEvent block modifiers,
            grammar.isClosed_bodyEvent block modifiers, rfl,
            grammar.readBlock_body block braceless nameless body⟩

theorem closeBlock_of_braceless
    (directive : Directive)
    (fault : Fault)
    {text : List Char}
    (braceless : '}' ∉ text) :
    closeBlock directive fault text = (.fault directive .unclosed, []) := by
  have skipped : text.dropWhile (· != '}') = [] := by
    rw [List.dropWhile_eq_nil_iff]
    intro character member
    exact bne_iff_ne.mpr fun same => braceless (same ▸ member)
  simp only [closeBlock, skipped]

theorem readBlockBody_of_braceless
    (grammar : Grammar)
    (directive : Directive)
    {text : List Char}
    (braceless : '}' ∉ text) :
    ∃ asked,
      grammar.readBlockBody directive text = (.fault asked .unclosed, []) := by
  rcases read : directive.readModifiers text with ⟨modified, behind⟩
  have suffix : behind <:+ text := by
    have := Directive.readModifiers_suffix directive text
    rwa [read] at this
  have behindBraceless : '}' ∉ behind :=
    fun member => braceless (suffix.subset member)
  cases behind with
  | nil =>
      exact ⟨modified, by simp only [readBlockBody, read]⟩
  | cons verb behindVerb =>
      obtain ⟨notClosed, endless⟩ :=
        not_or.mp (mt List.mem_cons.mpr behindBraceless)
      rw [readBlockBody_of_ne_brace read (Ne.symm notClosed)]
      cases behindVerb with
      | nil =>
          by_cases supported : verb ∈ grammar.verbs <;>
            simp [readBlockEnd, supported, closeBlock]
      | cons extra more =>
          have notEnd := (not_or.mp (mt List.mem_cons.mpr endless)).1
          exact ⟨_,
            (readBlockEnd_of_ne_brace _ verb (Ne.symm notEnd)).trans
              (closeBlock_of_braceless _ _ endless)⟩

/-- Without a closing brace, a block is not closed. -/
theorem readBlock_of_braceless
    (grammar : Grammar)
    {text : List Char}
    (braceless : '}' ∉ text) :
    ∃ asked,
      grammar.readBlock text = (.fault asked .unclosed, []) := by
  rw [readBlock_eq]
  generalize text.takeWhile isBlockMark = marks
  generalize (text.dropWhile isBlockMark).takeWhile isNameChar = name
  have suffix : (text.dropWhile isBlockMark).dropWhile isNameChar <:+ text :=
    (List.dropWhile_suffix _).trans (List.dropWhile_suffix _)
  have stopped :=
    List.head?_dropWhile_not isNameChar (text.dropWhile isBlockMark)
  generalize (text.dropWhile isBlockMark).dropWhile isNameChar = behind
    at suffix stopped
  have behindBraceless : '}' ∉ behind :=
    fun member => braceless (suffix.subset member)
  cases behind with
  | nil =>
      exact ⟨blockDirective marks name, rfl⟩
  | cons first rest =>
      obtain ⟨notClosed, restBraceless⟩ :=
        not_or.mp (mt List.mem_cons.mpr behindBraceless)
      -- with no brace to stop at, a name stops at a colon
      obtain rfl : first = ':' := by
        simpa [isNameChar, Ne.symm notClosed] using stopped
      by_cases nameless : (grammar.requireName && name.isEmpty) = true
      · simp only [readBehindName, nameless, if_true]
        exact ⟨_, closeBlock_of_braceless _ _ restBraceless⟩
      · simp only [readBehindName, nameless]
        exact grammar.readBlockBody_of_braceless _ restBraceless

theorem events_brace (grammar : Grammar) (text : String) :
    grammar.events ("%\x7b" ++ text) =
      (grammar.readBlock text.toList).1 ::
        grammar.eventsFrom
          { rest := (grammar.readBlock text.toList).2 } := by
  have start : ("%\x7b" ++ text).toList = '%' :: '{' :: text.toList := by
    rw [String.toList_append]
    rfl
  rw [events, start, eventsFrom_percent (by simp)]
  rfl

/-- A block that ends behind a closing brace is one event in front of the rest. -/
theorem events_of_readBlock
    {inside rest : String}
    {event : Event}
    (read :
      grammar.readBlock (inside.toList ++ '}' :: rest.toList) =
        (event, rest.toList)) :
    grammar.events ("%\x7b" ++ inside ++ "\x7d" ++ rest) =
      event :: grammar.events rest := by
  have spelled :
      (inside ++ "\x7d" ++ rest).toList =
        inside.toList ++ '}' :: rest.toList := by
    simp [String.toList_append]
  have start :
      "%\x7b" ++ inside ++ "\x7d" ++ rest =
        "%\x7b" ++ (inside ++ "\x7d" ++ rest) := by
    simp only [String.append_assoc]
  rw [start, events_brace, spelled, read]
  rfl

/--
A block reaches up to the first closing brace, whatever stands in front of it.

The inside of a block is taken apart in the only way there is.  A closed block
is one event, which depends on its inside only, and the template behind it has
its events as if it stood alone.  A block without a closing brace takes all of
the template with it.
-/
theorem events_block
    (grammar : Grammar)
    (inside : String)
    (braceless : '}' ∉ inside.toList) :
    (∃! block : Block, block.text = inside.toList) ∧
      (∃ event : Event,
        event.IsClosed ∧
          (∀ block : Block,
            block.text = inside.toList →
            grammar.Settles block event) ∧
          ∀ rest : String,
            grammar.events ("%\x7b" ++ inside ++ "\x7d" ++ rest) =
              event :: grammar.events rest) ∧
      ∃ asked,
        grammar.events ("%\x7b" ++ inside) = [.fault asked .unclosed] := by
  obtain ⟨block, spelled, only⟩ := Block.existsUnique_text inside.toList
  rw [← spelled] at braceless
  refine ⟨⟨block, spelled, only⟩, ?_, ?_⟩
  · obtain ⟨event, closed, settled, read⟩ :=
      grammar.readBlock_append block braceless
    refine ⟨event, closed, ?_, ?_⟩
    · intro other sameText
      rwa [only other sameText]
    · intro rest
      apply events_of_readBlock
      rw [← spelled]
      exact read rest.toList
  · obtain ⟨asked, read⟩ := grammar.readBlock_of_braceless braceless
    refine ⟨asked, ?_⟩
    rw [events_brace, ← spelled, read, eventsFrom_nil]

/-- A block with a character between its verb and its end, and the template behind it. -/
theorem events_block_extra :
    '}' ∉ "+id:05dx".toList ∧
      events {} "%\x7b+id:05dx\x7d ok" =
        [.fault {
              verb := 'x'
              name := some "id"
              flags := { plus := true, zero := true }
              width := some 5 }
            .invalidVerb,
          .text " ok"] := by
  have braceless : '}' ∉ "+id:05dx".toList := by decide
  refine ⟨braceless, ?_⟩
  let modifiers : Modifiers := {
    flags := ['0']
    width := ['5']
    precision := none
    rest := ['d', 'x']
    flags_maximal := by decide
    width_maximal := by decide
    precision_maximal := by decide }
  let block : Block := {
    marks := ['+']
    name := ['i', 'd']
    body := some modifiers
    marks_maximal := by decide
    colonless := by decide }
  obtain ⟨_, ⟨event, _, settled, read⟩, _⟩ :=
    events_block {} "+id:05dx" braceless
  have supported : 'd' ∈ VerbMask.standard := by decide
  have outcome : event = bodyEvent {} block modifiers :=
    settled block (by decide)
  have behind : events {} " ok" = [.text " ok"] :=
    eventsFrom_literal (by decide)
  refine (read " ok").trans ?_
  rw [behind, outcome]
  simp only [bodyEvent, modifiers]
  rw [if_pos supported]
  rfl

end Grammar

end CaptureFormat
