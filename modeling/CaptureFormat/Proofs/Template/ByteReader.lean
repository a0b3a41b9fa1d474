import CaptureFormat.Proofs.Template.Block
import CaptureFormat.Proofs.Template.BytePlace
import CaptureFormat.Template.ByteReader

namespace CaptureFormat

/-!
# Readers that cut between characters

A reader by offsets starts between two characters.  It finds what the reader of
characters finds, and it ends in front of what that one leaves.  So wherever it
cuts, whole characters stand on both sides, and it always has an answer.

`BytePlace.Agrees` says this of one outcome.  It is shown of the readers one by
one, from the smallest up, and of all events of a template at the end.
-/

namespace BytePlace

/--
An outcome by offsets, from behind `front` in front of `text`, agrees with one
of characters: it found the same, and it ends in front of what is left of the text.
-/
def Agrees
    (front text : List Char)
    (outcome : Option (α × BytePlace))
    (result : α × List Char) : Prop :=
  ∃ taken,
    taken ++ result.2 = text ∧
      outcome = some (result.1, between (front ++ taken) result.2)

/-- A reader by offsets agrees with one of characters wherever it starts between characters. -/
def Follows
    (readAt : BytePlace → Option (α × BytePlace))
    (read : List Char → α × List Char) : Prop :=
  ∀ front text, Agrees front text (readAt (between front text)) (read text)

namespace Agrees

variable {front text : List Char}

/-- Nothing is taken. -/
theorem stay (found : α) :
    Agrees front text (some (found, between front text)) (found, text) :=
  ⟨[], rfl, by rw [List.append_nil]⟩

/-- One outcome after the other, where the second may depend on what the first took. -/
theorem bindTaken
    {outcome : Option (α × BytePlace)}
    {result : α × List Char}
    {next : α × BytePlace → Option (β × BytePlace)}
    {final : β × List Char}
    (first : Agrees front text outcome result)
    (second :
      ∀ taken,
        taken ++ result.2 = text →
        Agrees (front ++ taken) result.2
          (next (result.1, between (front ++ taken) result.2)) final) :
    Agrees front text (outcome.bind next) final := by
  obtain ⟨taken, rfl, rfl⟩ := first
  obtain ⟨takenNext, split, found⟩ := second taken rfl
  refine ⟨taken ++ takenNext, ?_, ?_⟩
  · rw [List.append_assoc, split]
  · rw [← List.append_assoc, ← found]
    rfl

/-- One outcome after the other. -/
theorem bind
    {outcome : Option (α × BytePlace)}
    {result : α × List Char}
    {next : α × BytePlace → Option (β × BytePlace)}
    {final : β × List Char}
    (first : Agrees front text outcome result)
    (second :
      ∀ front,
        Agrees front result.2
          (next (result.1, between front result.2)) final) :
    Agrees front text (outcome.bind next) final :=
  first.bindTaken fun taken _ => second (front ++ taken)

/-- One character is passed in front of another outcome. -/
theorem passed
    {next : Char}
    {rest : List Char}
    {readAt : BytePlace → Option (α × BytePlace)}
    {result : α × List Char}
    (behind :
      Agrees (front ++ [next]) rest
        (readAt (between (front ++ [next]) rest)) result) :
    Agrees front (next :: rest)
      ((between front (next :: rest)).pass?.bind readAt) result := by
  obtain ⟨taken, rfl, found⟩ := behind
  refine ⟨next :: taken, rfl, ?_⟩
  rw [pass?_cons, Option.bind_some, found, List.append_assoc]
  rfl

end Agrees

theorem follows_passIf? (expected : Char) :
    Follows (·.passIf? expected)
      (fun text =>
        if text.head? = some expected then
          (true, text.tail)
        else
          (false, text)) := by
  intro front text
  by_cases isNext : text.head? = some expected
  · obtain ⟨rest, rfl⟩ := List.head?_eq_some_iff.mp isNext
    exact ⟨[expected], by simp, by simp [passIf?_head]⟩
  · simp only [if_neg isNext, passIf?_of_ne front isNext]
    exact .stay false

theorem follows_passNumber? (cap : UInt64) :
    Follows (·.passNumber? cap)
      (fun text =>
        match Count.read? cap text with
        | some (value, rest) => (some value, rest)
        | none => (none, text)) := by
  intro front text
  refine ⟨text.takeWhile Char.isDigit, ?_, ?_⟩
  all_goals
    simp only [Count.read?_eq, passNumber?_between]
    by_cases nothing : text.takeWhile Char.isDigit = []
    · simp [nothing, dropWhile_of_takeWhile_nil nothing]
    · simp [nothing]

theorem follows_passTo?
    {target : UInt8}
    (ascii : target.toNat < 0x80) :
    Follows (·.passTo? target)
      (fun text =>
        (!(text.dropWhile (· != Char.ofNat target.toNat)).isEmpty,
          text.dropWhile (· != Char.ofNat target.toNat))) :=
  fun front text =>
    ⟨text.takeWhile (· != Char.ofNat target.toNat),
      List.takeWhile_append_dropWhile,
      passTo?_between front text ascii⟩

/-- Characters taken into a state one after the other, as long as each can be. -/
def takeInto
    (take : α → Char → Option α)
    (state : α) :
    List Char → α × List Char
  | [] => (state, [])
  | next :: rest =>
      match take state next with
      | some after => takeInto take after rest
      | none => (state, next :: rest)

theorem passInto?_nil
    (take : α → Char → Option α)
    (state : α)
    (front : List Char) :
    passInto? take state (between front []) =
      some (state, between front []) := by
  have atEnd := next?_between front []
  rw [passInto?]
  split
  · next cut => simp [cut] at atEnd
  · rfl
  · next found => simp [found] at atEnd

theorem passInto?_cons
    (take : α → Char → Option α)
    (state : α)
    (front : List Char)
    (next : Char)
    (rest : List Char) :
    passInto? take state (between front (next :: rest)) =
      match take state next with
      | some after => passInto? take after (between (front ++ [next]) rest)
      | none => some (state, between front (next :: rest)) := by
  have isNext := next?_between front (next :: rest)
  have skipped := skip_between front rest [next]
  rw [passInto?]
  split
  · next cut => simp [cut] at isNext
  · next atEnd => simp [atEnd] at isNext
  · next character found =>
      rw [found] at isNext
      cases isNext
      rw [← skipped]
      rfl

theorem follows_passInto?
    (take : α → Char → Option α)
    (state : α) :
    Follows (passInto? take state) (takeInto take state) := by
  intro front text
  induction text generalizing front state with
  | nil =>
      rw [passInto?_nil]
      exact .stay state
  | cons next rest inductionHypothesis =>
      rw [passInto?_cons, takeInto]
      cases take state next with
      | none =>
          exact .stay state
      | some after =>
          obtain ⟨taken, split, found⟩ :=
            inductionHypothesis after (front ++ [next])
          refine ⟨next :: taken, ?_, ?_⟩
          · rw [List.cons_append, split]
          · rw [List.append_assoc] at found
            exact found

/-- A run is taken if a character can be taken whenever it passes a test. -/
theorem takeInto_eq
    {take : α → Char → Option α}
    {test : Char → Bool}
    (passes : ∀ state character, (take state character).isSome = test character)
    (state : α)
    (text : List Char) :
    takeInto take state text =
      ((text.takeWhile test).foldl
          (fun soFar character => (take soFar character).getD soFar) state,
        text.dropWhile test) := by
  induction text generalizing state with
  | nil =>
      rfl
  | cons next rest inductionHypothesis =>
      have passesNext := passes state next
      rw [takeInto]
      cases taken : take state next with
      | none =>
          rw [taken, Option.isSome_none] at passesNext
          simp [← passesNext]
      | some after =>
          rw [taken, Option.isSome_some] at passesNext
          simp [← passesNext, inductionHypothesis, taken]

end BytePlace

open BytePlace

namespace Directive

theorem follows_readFlagsAt? (directive : Directive) :
    Follows directive.readFlagsAt? directive.readFlags := by
  have passes :
      ∀ (soFar : Directive) (character : Char),
        (soFar.takeFlag character).isSome = isFlagChar character := by
    intro soFar character
    rw [takeFlag, Option.isSome_map, isFlagChar]
  have added :
      ∀ (soFar : Directive) (character : Char),
        isFlagChar character = true →
        (soFar.takeFlag character).getD soFar =
          soFar.addFlags (Flag.ofChar? character).toList := by
    intro soFar character isFlag
    obtain ⟨flag, found⟩ := Option.isSome_iff_exists.mp isFlag
    rw [takeFlag, found]
    rfl
  have reads : directive.readFlags = takeInto takeFlag directive := by
    funext text
    rw [takeInto_eq passes, readFlags]
    congr 1
    refine (List.foldl_ext _ _ directive ?_).symm
    intro soFar character member
    exact added soFar character (List.mem_takeWhile_imp member)
  rw [reads]
  exact follows_passInto? takeFlag directive

/-- A count that may be missing is read at an offset. -/
theorem follows_readCountAt?
    (make : UInt64 → Directive)
    (otherwise : Directive) :
    Follows
      (fun place => do
        match ← place.passNumber? countCap with
        | (some count, place) => some (make count, place)
        | (none, place) => some (otherwise, place))
      (fun text =>
        match Count.read? countCap text with
        | some (count, rest) => (make count, rest)
        | none => (otherwise, text)) := by
  intro front text
  have number := follows_passNumber? countCap front text
  cases read : Count.read? countCap text with
  | none =>
      simp only [read] at number ⊢
      exact number.bind fun _ => .stay otherwise
  | some counted =>
      simp only [read] at number ⊢
      exact number.bind fun _ => .stay (make counted.1)

theorem follows_readWidthAt? (directive : Directive) :
    Follows directive.readWidthAt? directive.readWidth :=
  follows_readCountAt?
    (fun width => directive.withWidth width.toNat) directive

theorem follows_readPrecisionAt? (directive : Directive) :
    Follows directive.readPrecisionAt? directive.readPrecision := by
  intro front text
  have point := follows_passIf? '.' front text
  by_cases isPoint : text.head? = some '.'
  · obtain ⟨afterPoint, rfl⟩ := List.head?_eq_some_iff.mp isPoint
    refine point.bind fun front => ?_
    exact
      follows_readCountAt?
        (fun precision => directive.withPrecision precision.toNat)
        (directive.withPrecision 0) front afterPoint
  · have noPoint : directive.readPrecision text = (directive, text) := by
      unfold readPrecision
      split
      · exact absurd rfl isPoint
      · rfl
    simp only [if_neg isPoint] at point
    rw [noPoint]
    exact point.bind fun _ => .stay directive

theorem follows_readModifiersAt? (directive : Directive) :
    Follows directive.readModifiersAt? directive.readModifiers := by
  intro front text
  refine (follows_readFlagsAt? directive front text).bind fun front => ?_
  refine (follows_readWidthAt? _ front _).bind fun front => ?_
  exact follows_readPrecisionAt? _ front _

/-- A mark counts wherever it stands and however often. -/
theorem foldl_takeMark
    (marks : List Char)
    (directive : Directive) :
    marks.foldl
        (fun soFar character => (soFar.takeMark character).getD soFar)
        directive =
      { directive with
        flags.plus := directive.flags.plus || marks.contains '+'
        flags.sharp := directive.flags.sharp || marks.contains '#' } := by
  induction marks generalizing directive with
  | nil =>
      simp
  | cons mark rest inductionHypothesis =>
      rw [List.foldl_cons, inductionHypothesis]
      unfold takeMark
      split
      · simp
      · simp
      · next notPlus notSharp =>
          simp [Ne.symm notPlus, Ne.symm notSharp]

/-- The marks of a block are taken one after the other. -/
theorem takeInto_takeMark (text : List Char) :
    takeInto takeMark {} text =
      ({ flags := {
            plus := (text.takeWhile Grammar.isBlockMark).contains '+'
            sharp := (text.takeWhile Grammar.isBlockMark).contains '#' } },
        text.dropWhile Grammar.isBlockMark) := by
  have passes :
      ∀ (soFar : Directive) (character : Char),
        (soFar.takeMark character).isSome =
          Grammar.isBlockMark character := by
    intro soFar character
    unfold takeMark Grammar.isBlockMark
    split <;> simp_all
  rw [takeInto_eq passes, foldl_takeMark]
  rfl

end Directive

namespace Grammar

theorem follows_readBareAt? (grammar : Grammar) :
    Follows grammar.readBareAt? grammar.readBare := by
  intro front text
  refine (Directive.follows_readModifiersAt? {} front text).bind fun front => ?_
  rw [readBare]
  rcases Directive.readModifiers {} text with ⟨directive, _ | ⟨verb, rest⟩⟩
  · simpa using Agrees.stay (Event.fault directive .noVerb)
  · simp only [next?_between]
    exact .passed (.stay (grammar.conclude directive verb))

theorem follows_closeBlockAt?
    (directive : Directive)
    (fault : Fault) :
    Follows (closeBlockAt? directive fault) (closeBlock directive fault) := by
  intro front text
  have ascii : ('}'.toUInt8).toNat < 0x80 := by decide
  have skipped := follows_passTo? ascii front text
  change Agrees front text _
    (!(text.dropWhile (· != '}')).isEmpty, text.dropWhile (· != '}')) at skipped
  refine skipped.bind fun front => ?_
  rw [closeBlock]
  cases text.dropWhile (· != '}') with
  | nil =>
      exact .stay (Event.fault directive .unclosed)
  | cons brace rest =>
      exact .passed (.stay (Event.fault directive fault))

/-- Where a block does not end behind its verb, the first character that is left gets the blame. -/
theorem readBlockEnd_eq_closeBlock
    (grammar : Grammar)
    (directive : Directive)
    (verb : Char)
    {text : List Char}
    (unclosed : text.head? ≠ some '}') :
    grammar.readBlockEnd directive verb text =
      closeBlock (grammar.blame directive verb text.head?) .invalidVerb text := by
  unfold readBlockEnd blame
  split
  · exact absurd rfl unclosed
  · rw [← List.headD_eq_head?_getD]
    exact (apply_ite (closeBlock · .invalidVerb text) _ _ _).symm

theorem follows_readBlockEndAt?
    (grammar : Grammar)
    (directive : Directive)
    (verb : Char) :
    Follows
      (grammar.readBlockEndAt? directive verb)
      (grammar.readBlockEnd directive verb) := by
  intro front text
  have brace := follows_passIf? '}' front text
  by_cases closed : text.head? = some '}'
  · obtain ⟨rest, rfl⟩ := List.head?_eq_some_iff.mp closed
    exact brace.bind fun _ => .stay (grammar.conclude directive verb)
  · simp only [if_neg closed] at brace
    rw [readBlockEnd_eq_closeBlock grammar directive verb closed]
    refine brace.bind fun front => ?_
    simp only [next?_between]
    exact follows_closeBlockAt? _ .invalidVerb front text

theorem follows_readBlockBodyAt?
    (grammar : Grammar)
    (directive : Directive) :
    Follows
      (grammar.readBlockBodyAt? directive)
      (grammar.readBlockBody directive) := by
  intro front text
  refine (directive.follows_readModifiersAt? front text).bind fun front => ?_
  rw [readBlockBody]
  rcases directive.readModifiers text with ⟨directive, _ | ⟨verb, rest⟩⟩
  · simpa using Agrees.stay (Event.fault directive .unclosed)
  · by_cases closed : verb = '}'
    · subst closed
      simp only [next?_between]
      exact .passed (.stay (Event.fault directive .noVerb))
    · have behind :=
        grammar.follows_readBlockEndAt? directive verb (front ++ [verb]) rest
      simpa [closed] using behind.passed

/-- Behind a name stands a colon or a brace, if anything. -/
theorem agrees_readBehindNameAt?
    (grammar : Grammar)
    (marks name front : List Char)
    {text : List Char}
    (stops : ∀ character ∈ text.head?, isNameChar character = false) :
    Agrees front text
      (grammar.readBehindNameAt? (blockDirective marks name) (between front text))
      (grammar.readBehindName marks name text) := by
  have label :
      (blockDirective marks name).label.isEmpty = name.isEmpty := by
    rw [Directive.label, blockDirective, Option.getD_some, Bool.eq_iff_iff,
      String.isEmpty_iff, List.isEmpty_iff]
    exact String.ofList_eq_empty_iff
  unfold readBehindNameAt?
  rw [label]
  rcases text with _ | ⟨first, rest⟩
  · simpa [readBehindName] using
      Agrees.stay (Event.fault (blockDirective marks name) .unclosed)
  · cases nameless : grammar.requireName && name.isEmpty with
    | true =>
      by_cases colon : first = ':'
      · subst colon
        have closing :=
          follows_closeBlockAt? (blockDirective marks name) .unnamed
            (front ++ [':']) rest
        simpa [readBehindName, nameless] using closing.passed
      · obtain rfl : first = '}' := by
          simpa [isNameChar, colon] using stops first rfl
        have fault : Agrees (front ++ ['}']) rest _ _ :=
          .stay (Event.fault (blockDirective marks name) .unnamed)
        simpa [readBehindName, nameless] using fault.passed
    | false =>
      by_cases colon : first = ':'
      · subst colon
        have body :=
          grammar.follows_readBlockBodyAt? (blockDirective marks name)
            (front ++ [':']) rest
        simpa [readBehindName, nameless] using body.passed
      · obtain rfl : first = '}' := by
          simpa [isNameChar, colon] using stops first rfl
        have accepted : Agrees (front ++ ['}']) rest _ _ :=
          .stay (Event.directive ((blockDirective marks name).accept 'v'))
        simpa [readBehindName, nameless] using accepted.passed

theorem follows_readBlockAt? (grammar : Grammar) :
    Follows grammar.readBlockAt? grammar.readBlock := by
  intro front text
  have passes :
      ∀ (state : Unit) (character : Char),
        (takeNameChar state character).isSome = isNameChar character := by
    intro state character
    unfold takeNameChar
    split <;> simp_all
  have marks := follows_passInto? Directive.takeMark {} front text
  rw [Directive.takeInto_takeMark] at marks
  rw [readBlock_eq]
  refine marks.bind fun front => ?_
  have name :=
    follows_passInto? takeNameChar () front (text.dropWhile isBlockMark)
  rw [takeInto_eq passes] at name
  refine name.bindTaken fun taken split => ?_
  obtain rfl : taken = (text.dropWhile isBlockMark).takeWhile isNameChar :=
    List.append_cancel_right
      (split.trans List.takeWhile_append_dropWhile.symm)
  have stops :
      ∀ character ∈ ((text.dropWhile isBlockMark).dropWhile isNameChar).head?,
        isNameChar character = false := by
    intro character isNext
    have stopped :=
      List.head?_dropWhile_not isNameChar (text.dropWhile isBlockMark)
    rw [Option.mem_def.mp isNext] at stopped
    simpa using stopped
  simp only [offset_between, textSince?_between]
  exact
    grammar.agrees_readBehindNameAt? (text.takeWhile isBlockMark) _ _ stops

theorem follows_readDirectiveAt? (grammar : Grammar) :
    Follows grammar.readDirectiveAt? grammar.readDirective := by
  intro front text
  have brace := follows_passIf? '{' front text
  by_cases block : text.head? = some '{'
  · obtain ⟨rest, rfl⟩ := List.head?_eq_some_iff.mp block
    exact brace.bind fun front => grammar.follows_readBlockAt? front rest
  · have bare : grammar.readDirective text = grammar.readBare text := by
      unfold readDirective
      split
      · exact absurd rfl block
      · rfl
    simp only [if_neg block] at brace
    rw [bare]
    exact brace.bind fun front => grammar.follows_readBareAt? front text

section Events

variable {grammar : Grammar}
variable {run : List Char}

/-- The next percent sign is found behind a run of literal text. -/
theorem passTo?_percent
    (front : List Char)
    (literal : '%' ∉ run)
    {behind : List Char}
    (stops : ∀ character ∈ behind.head?, character = '%') :
    (between front (run ++ behind)).passTo? '%'.toUInt8 =
      some (!behind.isEmpty, between (front ++ run) behind) := by
  have ascii : ('%'.toUInt8).toNat < 0x80 := by decide
  have found := passTo?_between front (run ++ behind) ascii
  obtain ⟨taken, left⟩ :
      (run ++ behind).takeWhile (· != Char.ofNat ('%'.toUInt8).toNat) = run ∧
        (run ++ behind).dropWhile (· != Char.ofNat ('%'.toUInt8).toNat) =
          behind := by
    apply takeWhile_append_of_stops
    · intro character member
      exact bne_iff_ne.mpr fun same => literal (same ▸ member)
    · intro character isNext
      rw [stops character isNext]
      decide
  rwa [taken, left] at found

theorem nextAt?_end (front : List Char) :
    grammar.nextAt? { place := between front [] } = some none := by
  simp [nextAt?]

theorem nextAt?_held
    (place : BytePlace)
    (event : Event) :
    grammar.nextAt? { place, held := some event } =
      some (some (event, { place })) :=
  rfl

/-- Literal text is cut out up to the end. -/
theorem nextAt?_literal
    (front : List Char)
    (literal : '%' ∉ run)
    (nonempty : run ≠ []) :
    grammar.nextAt? { place := between front run } =
      some (some
        (.text (String.ofList run), { place := between (front ++ run) [] })) := by
  have notAtEnd : (between front run).atEnd = false := by
    simpa using nonempty
  have noStop : ∀ character ∈ ([] : List Char).head?, character = '%' := by
    simp
  have ended := passTo?_percent front literal noStop
  rw [List.append_nil, List.isEmpty_nil, Bool.not_true] at ended
  simp [nextAt?, notAtEnd, ended, textSince?_between]

/-- Literal text is cut out through the first of two percent signs. -/
theorem nextAt?_escaped
    (front : List Char)
    (literal : '%' ∉ run)
    (rest : List Char) :
    grammar.nextAt? { place := between front (run ++ '%' :: '%' :: rest) } =
      some (some
        (.text (String.ofList (run ++ ['%'])),
          { place := between (front ++ run ++ ['%'] ++ ['%']) rest })) := by
  have notAtEnd :
      (between front (run ++ '%' :: '%' :: rest)).atEnd = false := by
    simp
  have percent :
      (between front (run ++ '%' :: '%' :: rest)).passTo? '%'.toUInt8 =
        some (true, between (front ++ run) ('%' :: '%' :: rest)) :=
    passTo?_percent front literal (by simp)
  have cut := textSince?_between front ('%' :: rest) (run ++ ['%'])
  rw [← List.append_assoc] at cut
  simp only [nextAt?, notAtEnd, percent, second?_between, pass?_cons, cut,
    offset_between, Option.bind_eq_bind, Option.bind_some]
  rfl

/-- Literal text is cut out up to a directive, which is read with it. -/
theorem nextAt?_directive
    (front : List Char)
    (literal : '%' ∉ run)
    {afterPercent : List Char}
    (single : ∀ rest, afterPercent ≠ '%' :: rest) :
    ∃ front',
      grammar.nextAt? { place := between front (run ++ '%' :: afterPercent) } =
        some (some
          (if run = [] then
            ((grammar.readDirective afterPercent).1,
              { place := between front' (grammar.readDirective afterPercent).2 })
          else
            (.text (String.ofList run),
              { place := between front' (grammar.readDirective afterPercent).2
                held := some (grammar.readDirective afterPercent).1 }))) := by
  have notAtEnd :
      (between front (run ++ '%' :: afterPercent)).atEnd = false := by
    simp
  have percent :
      (between front (run ++ '%' :: afterPercent)).passTo? '%'.toUInt8 =
        some (true, between (front ++ run) ('%' :: afterPercent)) :=
    passTo?_percent front literal (by simp)
  have notEscaped : afterPercent.head? ≠ some '%' := by
    intro isNext
    obtain ⟨rest, shape⟩ := List.head?_eq_some_iff.mp isNext
    exact single rest shape
  have cut := textSince?_between front ('%' :: afterPercent) run
  obtain ⟨taken, _, found⟩ :=
    grammar.follows_readDirectiveAt? (front ++ run ++ ['%']) afterPercent
  refine ⟨front ++ run ++ ['%'] ++ taken, ?_⟩
  simp only [nextAt?, notAtEnd, percent, second?_between, List.tail_cons,
    if_neg notEscaped, pass?_cons, cut, found, offset_between,
    Option.bind_eq_bind, Option.bind_some]
  by_cases empty : run = [] <;> simp [empty]

/-- A reader by offsets gives out the events of a text, wherever the text stands. -/
theorem gives_of_reads
    {text : List Char}
    {events : List Event}
    (reads : grammar.Reads text events)
    (front : List Char) :
    grammar.Gives { place := between front text } events := by
  induction reads generalizing front with
  | @literal run literal =>
      by_cases empty : run = []
      · subst empty
        exact .ended (nextAt?_end front)
      · rw [Event.ofLiteral_of_ne_nil empty]
        exact .next (nextAt?_literal front literal empty) (.ended (nextAt?_end _))
  | escaped literal _ inductionHypothesis =>
      exact .next (nextAt?_escaped front literal _) (inductionHypothesis _)
  | @directive run afterPercent events literal single _ inductionHypothesis =>
      obtain ⟨front', read⟩ := nextAt?_directive front literal single
      by_cases empty : run = []
      · subst empty
        exact .next read (inductionHypothesis front')
      · rw [if_neg empty] at read
        rw [Event.ofLiteral_of_ne_nil empty]
        exact
          .next read
            (.next (nextAt?_held _ _) (inductionHypothesis front'))

end Events

/-- No reader gives out different events. -/
theorem Gives.unique
    {grammar : Grammar}
    {reader : ByteReader}
    {events others : List Event}
    (gives : grammar.Gives reader events)
    (givesOthers : grammar.Gives reader others) :
    events = others := by
  induction gives generalizing others with
  | ended ended =>
      cases givesOthers with
      | ended _ =>
          rfl
      | next read _ =>
          rw [ended] at read
          cases read
  | next read _ inductionHypothesis =>
      cases givesOthers with
      | ended ended =>
          rw [ended] at read
          cases read
      | next readOther behind =>
          rw [read] at readOther
          cases readOther
          rw [inductionHypothesis behind]

/-- A reader by offsets gives out the events of a template and no others. -/
theorem gives_iff
    (grammar : Grammar)
    (template : String)
    (events : List Event) :
    grammar.Gives { place := { text := template } } events ↔
      events = grammar.events template := by
  have gives :=
    gives_of_reads (grammar.reads_eventsFrom template.toList) []
  rw [between, List.nil_append, String.ofList_toList] at gives
  constructor
  · intro givesOthers
    exact givesOthers.unique gives
  · rintro rfl
    exact gives

end Grammar

end CaptureFormat
