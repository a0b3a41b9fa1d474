import CaptureFormat.Proofs.Template.Lookahead
import CaptureFormat.Proofs.Template.Requests
import CaptureFormat.Template.Segment

namespace CaptureFormat

/-!
# Readers that delimit themselves

A reader of directives takes a beginning of its text and reads the same event
from that beginning alone.  It does so whatever follows, unless the event was
cut short: then the reader ran into the end of the text, and nothing is left.
-/

/-- Whether an event says that the template ended before the directive did. -/
def Event.isCutShort : Event → Bool
  | .fault asked .noVerb => asked.name.isNone
  | .fault _ .unclosed => true
  | _ => false

/-- Text is never cut short. -/
theorem Event.asks_of_isCutShort
    {event : Event}
    (cut : event.isCutShort = true) :
    event.asks = true := by
  cases event with
  | text content =>
      cases cut
  | directive asked =>
      rfl
  | fault asked reason =>
      rfl

/-- What a reader takes of a text delimits itself. -/
structure Delimits
    (read : List Char → Event × List Char)
    (text taken : List Char) : Prop where
  split : text = taken ++ (read text).2
  asks : (read text).1.asks = true
  /-- Only from an empty text is nothing taken. -/
  progress : taken = [] → text = []
  /-- An empty text cuts every event short. -/
  starved : text = [] → (read text).1.isCutShort = true
  /-- A cut is at the end of the text. -/
  final : (read text).1.isCutShort = true → (read text).2 = []
  again :
    ∀ {more},
      more = [] ∨ (read text).1.isCutShort = false →
      read (taken ++ more) = ((read text).1, more)

/-- What every reader of directives takes delimits itself. -/
def DelimitsItself (read : List Char → Event × List Char) : Prop :=
  ∀ text, ∃ taken, Delimits read text taken

namespace Delimits

/-- An event that is cut short by an empty text takes nothing. -/
theorem nil
    {read : List Char → Event × List Char}
    (exhausted : (read []).2 = [])
    (cut : (read []).1.isCutShort = true) :
    Delimits read [] [] where
  split := exhausted.symm
  asks := Event.asks_of_isCutShort cut
  progress := fun _ => rfl
  starved := fun _ => cut
  final := fun _ => exhausted
  again := by
    rintro more (rfl | whole)
    · exact Prod.ext rfl exhausted
    · rw [cut] at whole
      cases whole

/-- One character makes a whole event. -/
theorem single
    {read : List Char → Event × List Char}
    {first : Char}
    (event : Event)
    (reads : ∀ rest, read (first :: rest) = (event, rest))
    (asks : event.asks = true)
    (whole : event.isCutShort = false)
    (rest : List Char) :
    Delimits read (first :: rest) [first] where
  split := by rw [reads]; rfl
  asks := by rw [reads]; exact asks
  progress := by simp
  starved := by simp
  final := by
    rw [reads, whole]
    simp
  again := by
    intro more _
    rw [List.singleton_append, reads, reads]

/-- One character leads to another reader. -/
theorem cons
    {read readRest : List Char → Event × List Char}
    {first : Char}
    {rest taken : List Char}
    (reads : ∀ text, read (first :: text) = readRest text)
    (delimits : Delimits readRest rest taken) :
    Delimits read (first :: rest) (first :: taken) where
  split := by
    rw [reads, List.cons_append, ← delimits.split]
  asks := by
    rw [reads]
    exact delimits.asks
  progress := by simp
  starved := by simp
  final := by
    rw [reads]
    exact delimits.final
  again := by
    rw [reads]
    intro more follows
    rw [List.cons_append, reads]
    exact delimits.again follows

/-- Readers that agree on a first character take the same of a text that starts with it. -/
theorem of_first
    {read other : List Char → Event × List Char}
    {first : Char}
    {rest taken : List Char}
    (agree : ∀ text, read (first :: text) = other (first :: text))
    (delimits : Delimits other (first :: rest) taken) :
    Delimits read (first :: rest) taken := by
  obtain ⟨others, rfl⟩ : ∃ others, taken = first :: others := by
    cases taken with
    | nil =>
        cases delimits.progress rfl
    | cons head others =>
        have sameFirst := (List.cons.inj delimits.split).1
        exact ⟨others, by rw [sameFirst]⟩
  refine ⟨?_, ?_, by simp, by simp, ?_, ?_⟩
  · rw [agree]
    exact delimits.split
  · rw [agree]
    exact delimits.asks
  · rw [agree]
    exact delimits.final
  · rw [agree]
    intro more follows
    rw [List.cons_append, agree]
    exact delimits.again follows

end Delimits

namespace DelimitsItself

/-- A scanner that looks one character ahead may stand in front. -/
theorem bind
    {scan : List Char → α × List Char}
    (looks : LooksOneAhead scan)
    (read : α → List Char → Event × List Char)
    (delimits : ∀ text, DelimitsItself (read (scan text).1)) :
    DelimitsItself fun text => read (scan text).1 (scan text).2 := by
  intro text
  obtain ⟨scanned, split, scannedAgain⟩ := looks text
  obtain ⟨taken, delimited⟩ := delimits text (scan text).2
  refine
    ⟨scanned ++ taken, ?_, delimited.asks, ?_, ?_, delimited.final, ?_⟩
  · rw [List.append_assoc, ← delimited.split]
    exact split
  · intro nothing
    obtain ⟨rfl, rfl⟩ := List.append_eq_nil_iff.mp nothing
    rw [split, delimited.progress rfl]
    rfl
  · intro empty
    apply delimited.starved
    exact (List.append_eq_nil_iff.mp (split.symm.trans empty)).2
  · intro more follows
    -- an event that is not cut short took the character the scanner saw
    have sameNext :
        (taken ++ more).head? = (scan text).2.head? := by
      cases taken with
      | nil =>
          have exhausted := delimited.progress rfl
          rcases follows with rfl | whole
          · rw [exhausted]
            rfl
          · rw [delimited.starved exhausted] at whole
            cases whole
      | cons first others =>
          rw [delimited.split]
          rfl
    rw [List.append_assoc]
    simp only [scannedAgain _ sameNext]
    exact delimited.again follows

end DelimitsItself

namespace Directive

/-- Flags do not change the name of a directive. -/
theorem name_addFlags_ofChar?
    (directive : Directive)
    (character : Char) :
    (directive.addFlags (Flag.ofChar? character).toList).name =
      directive.name := by
  unfold Flag.ofChar?
  split <;> rfl

/-- Reading what may stand in front of a verb does not change the name. -/
theorem name_readModifiers
    (directive : Directive)
    (text : List Char) :
    (directive.readModifiers text).1.name = directive.name := by
  have flags :
      ∀ (run : List Char) (soFar : Directive),
        (run.foldl
          (fun soFar character =>
            soFar.addFlags (Flag.ofChar? character).toList)
          soFar).name = soFar.name := by
    intro run
    induction run with
    | nil =>
        exact fun _ => rfl
    | cons character rest inductionHypothesis =>
        intro soFar
        rw [List.foldl_cons, inductionHypothesis,
          name_addFlags_ofChar?]
  have width :
      ∀ (soFar : Directive) (text : List Char),
        (soFar.readWidth text).1.name = soFar.name := by
    intro soFar text
    unfold readWidth
    split <;> rfl
  have precision :
      ∀ (soFar : Directive) (text : List Char),
        (soFar.readPrecision text).1.name = soFar.name := by
    intro soFar text
    unfold readPrecision
    split
    · split <;> rfl
    · rfl
  exact (precision _ _).trans ((width _ _).trans (flags _ _))

end Directive

namespace Grammar

variable (grammar : Grammar)

@[simp] theorem isCutShort_conclude
    (directive : Directive)
    (verb : Char) :
    (grammar.conclude directive verb).isCutShort = false := by
  unfold conclude
  split <;> rfl

@[simp] theorem asks_conclude
    (directive : Directive)
    (verb : Char) :
    (grammar.conclude directive verb).asks = true := by
  unfold conclude
  split <;> rfl

/-- Read the closing brace of a faulty block. -/
def readClosing
    (directive : Directive)
    (fault : Fault)
    (text : List Char) :
    Event × List Char :=
  match text with
  | [] => (.fault directive .unclosed, [])
  | _ :: rest => (.fault directive fault, rest)

/-- Read the verb of a bare directive. -/
def readBareVerb
    (directive : Directive)
    (text : List Char) :
    Event × List Char :=
  match text with
  | [] => (.fault directive .noVerb, [])
  | verb :: rest => (grammar.conclude directive verb, rest)

/-- Read a block from its verb on. -/
def readBlockVerb
    (directive : Directive)
    (text : List Char) :
    Event × List Char :=
  match text with
  | [] => (.fault directive .unclosed, [])
  | '}' :: rest => (.fault directive .noVerb, rest)
  | verb :: rest => grammar.readBlockEnd directive verb rest

/-- The end of a faulty block delimits it. -/
theorem delimitsItself_closeBlock
    (directive : Directive)
    (fault : Fault)
    (whole : (Event.fault directive fault).isCutShort = false) :
    DelimitsItself (closeBlock directive fault) := by
  refine .bind (.ofRun (· != '}') id)
    (fun _ => readClosing directive fault) ?_
  rintro _ (_ | ⟨first, rest⟩)
  · exact ⟨[], .nil rfl rfl⟩
  · exact ⟨[first], .single _ (fun _ => rfl) rfl whole rest⟩

/-- A bare directive delimits itself. -/
theorem delimitsItself_readBare :
    DelimitsItself grammar.readBare := by
  refine .bind (Directive.looksOneAhead_readModifiers {})
    grammar.readBareVerb ?_
  rintro text (_ | ⟨verb, rest⟩)
  · have nameless : (Directive.readModifiers {} text).1.name = none :=
      Directive.name_readModifiers {} text
    exact ⟨[], .nil rfl (by simp [readBareVerb, Event.isCutShort, nameless])⟩
  · exact ⟨[verb],
      .single _ (fun _ => rfl)
        (grammar.asks_conclude _ verb)
        (grammar.isCutShort_conclude _ verb) rest⟩

/-- What stands between a verb and the end of its block delimits itself. -/
theorem delimitsItself_readBlockEnd
    (directive : Directive)
    (verb : Char) :
    DelimitsItself (grammar.readBlockEnd directive verb) := by
  rintro (_ | ⟨first, rest⟩)
  · refine ⟨[], .nil ?_ ?_⟩ <;>
      by_cases accepted : verb ∈ grammar.verbs <;>
        simp [readBlockEnd, accepted, closeBlock, Event.isCutShort]
  · by_cases closed : first = '}'
    · subst first
      exact ⟨['}'],
        .single _ (fun _ => rfl)
          (grammar.asks_conclude directive verb)
          (grammar.isCutShort_conclude directive verb) rest⟩
    · obtain ⟨taken, delimits⟩ :=
        delimitsItself_closeBlock
          (if verb ∈ grammar.verbs then
            { directive.accept verb with verb := first }
          else
            { directive with verb })
          .invalidVerb rfl (first :: rest)
      refine ⟨taken, delimits.of_first ?_⟩
      intro text
      by_cases accepted : verb ∈ grammar.verbs <;>
        simp [readBlockEnd, closed, accepted]

/-- The body of a block delimits itself. -/
theorem delimitsItself_readBlockBody
    (directive : Directive)
    (named : directive.name.isSome = true) :
    DelimitsItself (grammar.readBlockBody directive) := by
  refine .bind (Directive.looksOneAhead_readModifiers directive)
    grammar.readBlockVerb ?_
  rintro text (_ | ⟨first, rest⟩)
  · exact ⟨[], .nil rfl rfl⟩
  · by_cases closed : first = '}'
    · subst first
      have whole :
          (Event.fault (directive.readModifiers text).1 .noVerb).isCutShort =
            false := by
        rw [Event.isCutShort, Directive.name_readModifiers]
        exact Option.isNone_eq_false_iff.mpr named
      exact ⟨['}'], .single _ (fun _ => rfl) rfl whole rest⟩
    · obtain ⟨taken, delimits⟩ :=
        grammar.delimitsItself_readBlockEnd
          (directive.readModifiers text).1 first rest
      exact ⟨first :: taken,
        .cons (fun text => by simp [readBlockVerb]) delimits⟩

/-- The directive of a block as far as it is known behind the name. -/
def blockDirective (marks name : List Char) : Directive where
  name := some (String.ofList name)
  flags := { plus := marks.contains '+', sharp := marks.contains '#' }

/-- Read a block from behind its name. -/
def readBehindName
    (marks name text : List Char) :
    Event × List Char :=
  match text with
  | [] => (.fault (blockDirective marks name) .unclosed, [])
  | ':' :: rest =>
      if grammar.requireName && name.isEmpty then
        closeBlock (blockDirective marks name) .unnamed rest
      else
        grammar.readBlockBody (blockDirective marks name) rest
  | _ :: rest =>
      if grammar.requireName && name.isEmpty then
        (.fault (blockDirective marks name) .unnamed, rest)
      else
        (.directive ((blockDirective marks name).accept 'v'), rest)

/-- A block is its marks, its name, and what is behind them. -/
theorem readBlock_eq (text : List Char) :
    grammar.readBlock text =
      grammar.readBehindName
        (text.takeWhile isBlockMark)
        ((text.dropWhile isBlockMark).takeWhile isNameChar)
        ((text.dropWhile isBlockMark).dropWhile isNameChar) :=
  rfl

/-- What is behind the name of a block delimits itself. -/
theorem delimitsItself_readBehindName (marks name : List Char) :
    DelimitsItself (grammar.readBehindName marks name) := by
  rintro (_ | ⟨first, rest⟩)
  · exact ⟨[], .nil rfl rfl⟩
  · by_cases colon : first = ':'
    · subst first
      cases nameless : grammar.requireName && name.isEmpty with
      | true =>
          obtain ⟨taken, delimits⟩ :=
            delimitsItself_closeBlock
              (blockDirective marks name) .unnamed rfl rest
          refine ⟨':' :: taken, .cons ?_ delimits⟩
          intro text
          simp [readBehindName, nameless]
      | false =>
          obtain ⟨taken, delimits⟩ :=
            grammar.delimitsItself_readBlockBody
              (blockDirective marks name) rfl rest
          refine ⟨':' :: taken, .cons ?_ delimits⟩
          intro text
          simp [readBehindName, nameless]
    · cases nameless : grammar.requireName && name.isEmpty with
      | true =>
          refine ⟨[first],
            .single (.fault (blockDirective marks name) .unnamed)
              ?_ rfl rfl rest⟩
          intro text
          simp [readBehindName, nameless]
      | false =>
          refine ⟨[first],
            .single
              (.directive ((blockDirective marks name).accept 'v'))
              ?_ rfl rfl rest⟩
          intro text
          simp [readBehindName, nameless]

/-- A block delimits itself. -/
theorem delimitsItself_readBlock :
    DelimitsItself grammar.readBlock := by
  have behindMarks :
      ∀ marks,
        DelimitsItself fun text =>
          grammar.readBehindName marks
            (text.takeWhile isNameChar) (text.dropWhile isNameChar) := by
    intro marks
    exact .bind (.ofRun isNameChar id)
      (grammar.readBehindName marks)
      fun _ => grammar.delimitsItself_readBehindName marks _
  rw [funext grammar.readBlock_eq]
  exact .bind (.ofRun isBlockMark id)
    (fun marks text =>
      grammar.readBehindName marks
        (text.takeWhile isNameChar) (text.dropWhile isNameChar))
    fun text => behindMarks (text.takeWhile isBlockMark)

/-- A directive delimits itself. -/
theorem delimitsItself_readDirective :
    DelimitsItself grammar.readDirective := by
  rintro (_ | ⟨first, rest⟩)
  · obtain ⟨taken, delimits⟩ := grammar.delimitsItself_readBare []
    exact ⟨[], .nil (delimits.final (delimits.starved rfl))
      (delimits.starved rfl)⟩
  · by_cases block : first = '{'
    · subst first
      obtain ⟨taken, delimits⟩ := grammar.delimitsItself_readBlock rest
      exact ⟨'{' :: taken, .cons (fun _ => rfl) delimits⟩
    · obtain ⟨taken, delimits⟩ :=
        grammar.delimitsItself_readBare (first :: rest)
      refine ⟨taken, delimits.of_first ?_⟩
      intro text
      simp [readDirective, block]

end Grammar

end CaptureFormat
