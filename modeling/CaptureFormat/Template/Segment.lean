import CaptureFormat.Template.Event
import CaptureFormat.Template.Modifiers

namespace CaptureFormat

/-!
# Reading a directive

Each event is read from a segment of the template.  A function that reads one
takes the characters from its place on and gives back an event with the
characters behind it.  It never looks back, and what it leaves is an end part
of what it was given.
-/

/-- Take an accepted verb. -/
def Directive.accept (directive : Directive) (verb : Char) : Directive :=
  { directive with verb }.adaptToVerb

namespace Grammar

/-- The event of a directive whose verb has been read. -/
def conclude (grammar : Grammar) (directive : Directive) (verb : Char) : Event :=
  if verb ∈ grammar.verbs then
    .directive (directive.accept verb)
  else
    .fault { directive with verb } .invalidVerb

/-- Read a bare directive from behind its percent sign. -/
def readBare (grammar : Grammar) (text : List Char) : Event × List Char :=
  let (directive, text) := Directive.readModifiers {} text
  match text with
  | [] => (.fault directive .noVerb, [])
  | verb :: rest => (grammar.conclude directive verb, rest)

/-- Skip to the end of a faulty block; a block without an end is unclosed, whatever else it is. -/
def closeBlock (directive : Directive) (fault : Fault) (text : List Char) : Event × List Char :=
  match text.dropWhile (· != '}') with
  | [] => (.fault directive .unclosed, [])
  | _ :: rest => (.fault directive fault, rest)

/--
Read what stands between a verb and the end of its block, where nothing should
stand.  An accepted verb passes the blame to the first character behind it.
-/
def readBlockEnd
    (grammar : Grammar)
    (directive : Directive)
    (verb : Char)
    (text : List Char) :
    Event × List Char :=
  match text with
  | '}' :: rest => (grammar.conclude directive verb, rest)
  | _ =>
      if verb ∈ grammar.verbs then
        closeBlock { directive.accept verb with verb := text.headD verb } .invalidVerb text
      else
        closeBlock { directive with verb } .invalidVerb text

/-- Read a block from behind the colon. -/
def readBlockBody
    (grammar : Grammar)
    (directive : Directive)
    (text : List Char) :
    Event × List Char :=
  let (directive, text) := directive.readModifiers text
  match text with
  | [] => (.fault directive .unclosed, [])
  | '}' :: rest => (.fault directive .noVerb, rest)
  | verb :: rest => grammar.readBlockEnd directive verb rest

/-- Whether a character stands in front of a field name to modify the verb `v`. -/
def isBlockMark (character : Char) : Bool :=
  character == '+' || character == '#'

/-- Whether a character can stand in a field name. -/
def isNameChar (character : Char) : Bool :=
  character != ':' && character != '}'

/-- Read a block from behind its opening brace. -/
def readBlock (grammar : Grammar) (text : List Char) : Event × List Char :=
  let marks := text.takeWhile isBlockMark
  let text := text.dropWhile isBlockMark
  let name := text.takeWhile isNameChar
  let directive : Directive := {
    name := some (String.ofList name)
    flags := { plus := marks.contains '+', sharp := marks.contains '#' }
  }
  let nameless := grammar.requireName && name.isEmpty
  match text.dropWhile isNameChar with
  | [] => (.fault directive .unclosed, [])
  | ':' :: rest =>
      if nameless then
        closeBlock directive .unnamed rest
      else
        grammar.readBlockBody directive rest
  | _ :: rest =>
      if nameless then
        (.fault directive .unnamed, rest)
      else
        (.directive (directive.accept 'v'), rest)

/-- Read a directive from behind its percent sign. -/
def readDirective (grammar : Grammar) (text : List Char) : Event × List Char :=
  match text with
  | '{' :: rest => grammar.readBlock rest
  | _ => grammar.readBare text

/-- What follows a bare directive is an end part of the text. -/
theorem readBare_suffix (grammar : Grammar) (text : List Char) :
    (grammar.readBare text).2 <:+ text := by
  have modifiers := Directive.readModifiers_suffix {} text
  simp only [readBare]
  split
  · exact List.nil_suffix
  · next verb rest behind =>
      rw [behind] at modifiers
      exact (List.suffix_cons _ _).trans modifiers

/-- What follows a faulty block is an end part of the text. -/
theorem closeBlock_suffix
    (directive : Directive)
    (fault : Fault)
    (text : List Char) :
    (closeBlock directive fault text).2 <:+ text := by
  have skipped : text.dropWhile (· != '}') <:+ text := List.dropWhile_suffix _
  simp only [closeBlock]
  split
  · exact List.nil_suffix
  · next closing rest behind =>
      rw [behind] at skipped
      exact (List.suffix_cons _ _).trans skipped

/-- What follows the end of a block is an end part of the text. -/
theorem readBlockEnd_suffix
    (grammar : Grammar)
    (directive : Directive)
    (verb : Char)
    (text : List Char) :
    (grammar.readBlockEnd directive verb text).2 <:+ text := by
  unfold readBlockEnd
  split
  · exact List.suffix_cons _ _
  · split <;> exact closeBlock_suffix _ _ _

/-- What follows the body of a block is an end part of the text. -/
theorem readBlockBody_suffix
    (grammar : Grammar)
    (directive : Directive)
    (text : List Char) :
    (grammar.readBlockBody directive text).2 <:+ text := by
  have modifiers := Directive.readModifiers_suffix directive text
  simp only [readBlockBody]
  split
  · exact List.nil_suffix
  · next rest behind =>
      rw [behind] at modifiers
      exact (List.suffix_cons _ _).trans modifiers
  · next verb rest notClosed behind =>
      rw [behind] at modifiers
      exact (readBlockEnd_suffix _ _ _ _).trans
        ((List.suffix_cons _ _).trans modifiers)

/-- What follows a block is an end part of the text. -/
theorem readBlock_suffix (grammar : Grammar) (text : List Char) :
    (grammar.readBlock text).2 <:+ text := by
  have name : (text.dropWhile isBlockMark).dropWhile isNameChar <:+ text :=
    (List.dropWhile_suffix _).trans (List.dropWhile_suffix _)
  simp only [readBlock]
  split
  · exact List.nil_suffix
  · next rest behind =>
      rw [behind] at name
      have afterColon := (List.suffix_cons _ _).trans name
      split
      · exact (closeBlock_suffix _ _ _).trans afterColon
      · exact (readBlockBody_suffix _ _ _).trans afterColon
  · next closing rest notColon behind =>
      rw [behind] at name
      split <;> exact (List.suffix_cons _ _).trans name

/-- What follows a directive is an end part of the text. -/
theorem readDirective_suffix (grammar : Grammar) (text : List Char) :
    (grammar.readDirective text).2 <:+ text := by
  unfold readDirective
  split
  · exact (readBlock_suffix _ _).trans (List.suffix_cons _ _)
  · exact readBare_suffix _ _

end Grammar

end CaptureFormat
