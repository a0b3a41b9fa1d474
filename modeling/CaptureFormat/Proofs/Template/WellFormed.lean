import CaptureFormat.Proofs.Template.Block
import CaptureFormat.Proofs.VerbMask.Membership

namespace CaptureFormat

/-!
# Well-formed events

A directive is changed step by step while it is read: flags are added, numbers
are clamped, a name is cut off, and an accepted verb changes the form of its
flags.  Wherever reading stops, the directive is well formed, so renderings may
rely on it.  A directive that can be carried out is settled in addition, and a
fault tells how far the reading came.

An unclosed block reaches up to the end of its template, so no event follows
it.
-/

/-- Whether a text can be a field name: it starts with no mark and holds no colon and no brace. -/
structure IsFieldName (name : List Char) : Prop where
  colonless : ':' ∉ name
  braceless : '}' ∉ name
  unmarked : ∀ first ∈ name.head?, ¬(first = '+' ∨ first = '#')

/--
What holds of a directive as far as it was read.

What is said of a missing width, a missing precision, and a missing name holds
of every directive: one that does not carry them has no room for a number or a
text that would be left over.
-/
structure Directive.WellFormed (directive : Directive) : Prop where
  /-- Padding on the right takes the zeros away. -/
  zero_or_minus :
    ¬(directive.carries .minus = true ∧ directive.carries .zero = true)
  /-- The plus has one form at a time. -/
  plus_or_verbose :
    ¬(directive.carries .plus = true ∧ directive.carries .verbose = true)
  /-- The sharp has one form at a time. -/
  sharp_or_source :
    ¬(directive.carries .sharp = true ∧ directive.carries .source = true)
  width_le : directive.width.getD 0 ≤ 1000000
  precision_le : directive.precision.getD 0 ≤ 1000000
  widthless : directive.carries .width = false → directive.width.getD 0 = 0
  imprecise :
    directive.carries .precision = false → directive.precision.getD 0 = 0
  unlabelled : directive.carries .name = false → directive.label = ""
  isFieldName : IsFieldName directive.label.toList

/-- What holds of a directive whose verb was accepted: its flags have the form of the verb. -/
structure Directive.Settled (directive : Directive) : Prop where
  ofValue :
    directive.carries .verbose = true ∨ directive.carries .source = true →
    directive.verb = 'v'
  plain :
    directive.carries .plus = true ∨ directive.carries .sharp = true →
    directive.verb ≠ 'v'

/-- What holds of an event of a template. -/
def Event.WellFormed (grammar : Grammar) : Event → Prop
  | .text _ => True
  | .directive asked =>
      asked.WellFormed ∧
        asked.Settled ∧
        asked.verb.isDigit = false ∧
        asked.verb ≠ '{' ∧
        (grammar.requireName = true →
          asked.carries .name = true →
          asked.label ≠ "")
  | .fault asked reason =>
      asked.WellFormed ∧
        match reason with
        | .noVerb => asked.verb = '\x00'
        | .invalidVerb => True
        | .unclosed => asked.carries .name = true
        | .unnamed =>
            asked.verb = '\x00' ∧
              asked.carries .name = true ∧
              asked.label = ""
        | .missingArgument => False

namespace Directive

/-- Flags that marks stand for exclude each other as they should. -/
theorem WellFormed.of_marks
    {directive : Directive}
    {marks : List Char}
    {ofValue : Bool}
    (flags : directive.flags = .ofMarks marks ofValue)
    (width_le : directive.width.getD 0 ≤ 1000000)
    (precision_le : directive.precision.getD 0 ≤ 1000000)
    (isFieldName : IsFieldName directive.label.toList) :
    directive.WellFormed where
  zero_or_minus := by
    simp only [carries, flags, Flags.ofMarks]
    cases marks.contains '-' <;> simp
  plus_or_verbose := by cases ofValue <;> simp [carries, flags, Flags.ofMarks]
  sharp_or_source := by cases ofValue <;> simp [carries, flags, Flags.ofMarks]
  width_le := width_le
  precision_le := precision_le
  widthless := by
    cases missing : directive.width <;> simp [carries, missing]
  imprecise := by
    cases missing : directive.precision <;> simp [carries, missing]
  unlabelled := by
    cases missing : directive.name <;> simp [carries, label, missing]
  isFieldName := isFieldName

/-- Nothing of it depends on the verb, which may be changed to take the blame. -/
theorem WellFormed.withVerb
    {directive : Directive}
    (wellFormed : directive.WellFormed)
    (verb : Char) :
    { directive with verb }.WellFormed :=
  ⟨wellFormed.zero_or_minus, wellFormed.plus_or_verbose,
    wellFormed.sharp_or_source, wellFormed.width_le, wellFormed.precision_le,
    wellFormed.widthless, wellFormed.imprecise, wellFormed.unlabelled,
    wellFormed.isFieldName⟩

theorem Settled.of_marks
    {directive : Directive}
    {marks : List Char}
    (flags : directive.flags = .ofMarks marks (directive.verb == 'v')) :
    directive.Settled := by
  by_cases ofValue : directive.verb = 'v' <;>
    constructor <;>
    simp [carries, flags, Flags.ofMarks, ofValue]

end Directive

theorem Modifiers.wellFormed_directive
    (modifiers : Modifiers)
    {name : Option String}
    (isFieldName : IsFieldName (name.getD "").toList)
    (marks : List Char)
    (verb : Char)
    (accepted : Bool) :
    (modifiers.directive name marks verb accepted).WellFormed := by
  refine .of_marks rfl ?_ ?_ isFieldName
  · simp only [directive]
    split
    · exact Nat.zero_le _
    · exact Nat.min_le_right _ _
  · simp only [directive]
    cases modifiers.precision with
    | none =>
        exact Nat.zero_le _
    | some digits =>
        exact Nat.min_le_right _ _

theorem Modifiers.settled_directive
    (modifiers : Modifiers)
    (name : Option String)
    (marks : List Char)
    (verb : Char) :
    (modifiers.directive name marks verb true).Settled :=
  .of_marks rfl

/-- Modifiers take all digits in front of a verb, so the verb is none. -/
theorem Modifiers.isDigit_of_mem_head?_rest
    (modifiers : Modifiers) :
    ∀ verb ∈ modifiers.rest.head?, verb.isDigit = false := by
  intro verb isNext
  have precision := modifiers.precision_maximal
  have width := modifiers.width_maximal.stops
  cases shape : modifiers.precision with
  | none =>
      rw [shape] at width
      simpa using width verb isNext
  | some digits =>
      rw [shape] at precision
      simpa using precision.stops verb isNext

namespace Block

theorem isFieldName
    (block : Block)
    (braceless : '}' ∉ block.name) :
    IsFieldName ((some (String.ofList block.name)).getD "").toList := by
  refine ⟨?_, ?_, ?_⟩
  · simpa using block.colonless
  · simpa using braceless
  · intro first isFirst
    apply block.marks_maximal.stops
    rw [Option.getD_some, String.toList_ofList] at isFirst
    rw [List.head?_append, Option.mem_def.mp isFirst]
    rfl

theorem wellFormed_head
    (block : Block)
    (braceless : '}' ∉ block.name) :
    block.head.WellFormed :=
  .of_marks rfl (Nat.zero_le _) (Nat.zero_le _)
    (block.isFieldName braceless)

theorem wellFormed_value
    (block : Block)
    (braceless : '}' ∉ block.name) :
    block.value.WellFormed :=
  .of_marks rfl (Nat.zero_le _) (Nat.zero_le _)
    (block.isFieldName braceless)

end Block

namespace Grammar

variable
  {grammar : Grammar}
  (built : grammar.verbs.Built)

include built

/-- Whether its verb is accepted or not, a directive is well formed. -/
theorem wellFormed_conclude
    (modifiers : Modifiers)
    {name : Option String}
    (isFieldName : IsFieldName (name.getD "").toList)
    (named : grammar.requireName = true → name ≠ some "")
    (marks : List Char)
    {verb : Char}
    (notDigit : verb.isDigit = false) :
    (grammar.conclude (modifiers.directive name marks '\x00' false)
      verb).WellFormed grammar := by
  rw [conclude_directive]
  split
  · next supported =>
      refine
        ⟨modifiers.wellFormed_directive isFieldName marks verb true,
          modifiers.settled_directive name marks verb, notDigit, ?_, ?_⟩
      · rintro rfl
        exact absurd (built.admits_of_mem supported) (by decide)
      · intro required carriesName nameless
        apply named required
        obtain ⟨text, rfl⟩ := Option.isSome_iff_exists.mp carriesName
        exact congrArg some nameless
  · exact
      ⟨modifiers.wellFormed_directive isFieldName marks verb false, trivial⟩

theorem wellFormed_readBare (text : List Char) :
    (grammar.readBare text).1.WellFormed grammar := by
  obtain ⟨modifiers, rfl, _⟩ := Modifiers.existsUnique_text text
  have isFieldName : IsFieldName ((none : Option String).getD "").toList :=
    ⟨by simp, by simp, by simp⟩
  have notDigit := modifiers.isDigit_of_mem_head?_rest
  have read := Directive.readModifiers_text modifiers none []
  change Directive.readModifiers {} modifiers.text = _ at read
  simp only [readBare, read]
  split
  · exact
      ⟨modifiers.wellFormed_directive isFieldName [] '\x00' false, rfl⟩
  · next verb behind shape =>
      rw [shape] at notDigit
      exact
        wellFormed_conclude built modifiers isFieldName (by simp) []
          (notDigit verb rfl)

omit built in
theorem wellFormed_closeBlock
    {directive : Directive}
    {fault : Fault}
    (wellFormed : (Event.fault directive fault).WellFormed grammar)
    (named : directive.carries .name = true)
    (text : List Char) :
    (closeBlock directive fault text).1.WellFormed grammar := by
  simp only [closeBlock]
  split
  · exact ⟨wellFormed.1, named⟩
  · exact wellFormed

theorem wellFormed_readBlockEnd
    (block : Block)
    (braceless : '}' ∉ block.name)
    (named : ¬(grammar.requireName = true ∧ block.name = []))
    (modifiers : Modifiers)
    {verb : Char}
    (notDigit : verb.isDigit = false)
    (text : List Char) :
    (grammar.readBlockEnd (block.directive modifiers '\x00' false) verb
      text).1.WellFormed grammar := by
  have isFieldName := block.isFieldName braceless
  unfold readBlockEnd
  split
  · refine
      wellFormed_conclude built modifiers isFieldName ?_ block.marks notDigit
    intro required nameless
    exact named ⟨required, by simpa using nameless⟩
  · split
    · rw [Block.directive, Directive.accept_directive]
      refine wellFormed_closeBlock ⟨?_, trivial⟩ rfl _
      exact
        (modifiers.wellFormed_directive isFieldName block.marks verb
          true).withVerb _
    · refine wellFormed_closeBlock ⟨?_, trivial⟩ rfl _
      exact
        (modifiers.wellFormed_directive isFieldName block.marks '\x00'
          false).withVerb _

theorem wellFormed_readBlockBody
    (block : Block)
    (braceless : '}' ∉ block.name)
    (named : ¬(grammar.requireName = true ∧ block.name = []))
    (text : List Char) :
    (grammar.readBlockBody block.head text).1.WellFormed grammar := by
  obtain ⟨modifiers, rfl, _⟩ := Modifiers.existsUnique_text text
  have wellFormed :=
    modifiers.wellFormed_directive (block.isFieldName braceless) block.marks
      '\x00' false
  have notDigit := modifiers.isDigit_of_mem_head?_rest
  have read :
      block.head.readModifiers modifiers.text =
        (block.directive modifiers '\x00' false, modifiers.rest) :=
    Directive.readModifiers_text modifiers _ block.marks
  simp only [readBlockBody, read]
  split
  · exact ⟨wellFormed, rfl⟩
  · exact ⟨wellFormed, rfl⟩
  · next verb behind _ shape =>
      rw [shape] at notDigit
      exact
        wellFormed_readBlockEnd built block braceless named modifiers
          (notDigit verb rfl) behind

theorem wellFormed_readBehindName
    (block : Block)
    (braceless : '}' ∉ block.name)
    (text : List Char) :
    (grammar.readBehindName block.marks block.name text).1.WellFormed
      grammar := by
  have wellFormed := block.wellFormed_head braceless
  unfold readBehindName
  rw [← Block.head_eq]
  by_cases nameless : grammar.requireName = true ∧ block.name = []
  · have unnamed :
        (Event.fault block.head .unnamed).WellFormed grammar := by
      refine ⟨wellFormed, rfl, rfl, ?_⟩
      simp [Block.head, Directive.label, nameless.2]
    have missing : (grammar.requireName && block.name.isEmpty) = true := by
      simp [nameless.1, nameless.2]
    simp only [missing, if_true]
    split
    · exact ⟨wellFormed, rfl⟩
    · exact wellFormed_closeBlock unnamed rfl _
    · exact unnamed
  · have present : (grammar.requireName && block.name.isEmpty) = false := by
      simpa using nameless
    simp only [present]
    split
    · exact ⟨wellFormed, rfl⟩
    · exact wellFormed_readBlockBody built block braceless nameless _
    · rw [Block.accept_head]
      refine
        ⟨block.wellFormed_value braceless, .of_marks rfl, rfl,
          (by decide : 'v' ≠ '{'), ?_⟩
      intro required _ unlabelled
      exact nameless ⟨required, by simpa [Block.value, Directive.label]
        using unlabelled⟩

theorem wellFormed_readDirective (text : List Char) :
    (grammar.readDirective text).1.WellFormed grammar := by
  unfold readDirective
  split
  · next inside =>
      obtain ⟨block, behindName, _, braceless, read⟩ :=
        grammar.exists_readBehindName inside
      rw [read]
      exact wellFormed_readBehindName built block braceless behindName
  · exact wellFormed_readBare built _

omit built in
/-- An unclosed block leaves nothing to be read. -/
theorem eq_nil_of_unclosed
    {text : List Char}
    {asked : Directive}
    (unclosed : (grammar.readDirective text).1 = .fault asked .unclosed) :
    (grammar.readDirective text).2 = [] := by
  obtain ⟨taken, delimits⟩ := grammar.delimitsItself_readDirective text
  apply delimits.final
  rw [unclosed]
  rfl

omit built in
/-- No event stands behind an unclosed block. -/
theorem Reads.pairwise_not_unclosed
    {text : List Char}
    {events : List Event}
    (reads : grammar.Reads text events) :
    events.Pairwise fun earlier _ => ∀ asked, earlier ≠ .fault asked .unclosed := by
  have ofLiteral :
      ∀ run, ∀ event ∈ Event.ofLiteral run,
        ∀ asked, event ≠ .fault asked .unclosed := by
    intro run event member asked
    unfold Event.ofLiteral at member
    split at member
    · cases member
    · rw [List.mem_singleton.mp member]
      exact Event.noConfusion
  induction reads with
  | literal _ =>
      refine List.pairwise_of_forall_mem_list ?_
      exact fun event member _ _ => ofLiteral _ event member
  | escaped _ _ inductionHypothesis =>
      exact
        List.pairwise_cons.mpr
          ⟨fun _ _ _ => Event.noConfusion, inductionHypothesis⟩
  | @directive run afterPercent events _ _ reads inductionHypothesis =>
      refine
        List.pairwise_append.mpr
          ⟨List.pairwise_of_forall_mem_list
              fun event member _ _ => ofLiteral _ event member,
            List.pairwise_cons.mpr ⟨?_, inductionHypothesis⟩,
            fun event member _ _ => ofLiteral _ event member⟩
      rintro later member asked unclosed
      rw [eq_nil_of_unclosed unclosed] at reads
      obtain rfl : events = [] :=
        reads.eventsFrom_eq.symm.trans (eventsFrom_nil grammar)
      cases member

/--
What holds of all events of a template.

Every directive is well formed, in a fault too.  One that can be carried out is
settled, has a verb that the grammar does not need for itself, and has a name
if it is in a block and names are required.  A fault is never a missing
argument; without a verb, and without a name, no verb was read; without a name,
and without an end, it is in a block; and a block without an end is the last
event.
-/
theorem wellFormed_events (template : String) :
    (∀ event ∈ grammar.events template, event.WellFormed grammar) ∧
      ∀ before asked after,
        grammar.events template = before ++ .fault asked .unclosed :: after →
        after = [] := by
  have reads := grammar.reads_eventsFrom template.toList
  refine ⟨?_, ?_⟩
  · exact
      reads.forall_mem (fun _ => trivial) (wellFormed_readDirective built)
  · intro before asked after shape
    have ordered := reads.pairwise_not_unclosed
    change (grammar.events template).Pairwise _ at ordered
    rw [shape] at ordered
    have behind :=
      (List.pairwise_cons.mp (List.pairwise_append.mp ordered).2.1).1
    rw [List.eq_nil_iff_forall_not_mem]
    intro later member
    exact behind later member asked rfl

omit built in
/-- A value whose padding is on the right, a blamed character, and an unclosed block. -/
theorem wellFormed_events_standard :
    (VerbMask.standard).Built ∧
      events {} "%-0+3v%\x7b#a:vq\x7d%\x7bb" =
        [.directive {
            verb := 'v'
            flags := { minus := true, verbose := true }
            width := some 3 },
          .fault {
              verb := 'q'
              name := some "a"
              flags := { source := true } }
            .invalidVerb,
          .fault { name := some "b" } .unclosed] ∧
      (∀ event ∈ events {} "%-0+3v%\x7b#a:vq\x7d%\x7bb",
        event.WellFormed {}) ∧
      ∀ before asked after,
        events {} "%-0+3v%\x7b#a:vq\x7d%\x7bb" =
          before ++ .fault asked .unclosed :: after →
        after = [] := by
  refine ⟨.standard, by decide +kernel, ?_⟩
  exact @wellFormed_events {} .standard _

end Grammar

end CaptureFormat
