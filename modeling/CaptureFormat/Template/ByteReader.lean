import CaptureFormat.Template.BytePlace
import CaptureFormat.Template.Segment

namespace CaptureFormat

/-!
# Reading a template by offsets

A template can be read with a place that is an offset into its bytes: the reader
moves it, and where it needs text it cuts the template between two offsets.  What
it reads is what the grammar reads from the characters.  It has no answer where
it would have to cut the template inside a character.
-/

namespace Directive

/-- Take a flag into a directive. -/
def takeFlag (directive : Directive) (character : Char) : Option Directive :=
  (Flag.ofChar? character).map fun flag => directive.addFlags [flag]

/-- Read flags. -/
def readFlagsAt? (directive : Directive) (place : BytePlace) :
    Option (Directive × BytePlace) :=
  place.passInto? takeFlag directive

/-- Read a width, if there is one. -/
def readWidthAt? (directive : Directive) (place : BytePlace) :
    Option (Directive × BytePlace) := do
  match ← place.passNumber? countCap with
  | (some width, place) => some (directive.withWidth width.toNat, place)
  | (none, place) => some (directive, place)

/-- Read a point and the precision behind it, if there is a point; no digits mean 0. -/
def readPrecisionAt? (directive : Directive) (place : BytePlace) :
    Option (Directive × BytePlace) := do
  match ← place.passIf? '.' with
  | (true, place) =>
      match ← place.passNumber? countCap with
      | (some precision, place) => some (directive.withPrecision precision.toNat, place)
      | (none, place) => some (directive.withPrecision 0, place)
  | (false, place) => some (directive, place)

/-- Read all that may stand in front of a verb. -/
def readModifiersAt? (directive : Directive) (place : BytePlace) :
    Option (Directive × BytePlace) := do
  let (directive, place) ← directive.readFlagsAt? place
  let (directive, place) ← directive.readWidthAt? place
  directive.readPrecisionAt? place

/-- Take a mark in front of a field name into a directive. -/
def takeMark (directive : Directive) : Char → Option Directive
  | '+' => some { directive with flags.plus := true }
  | '#' => some { directive with flags.sharp := true }
  | _ => none

end Directive

namespace Grammar

/-- Take a character of a field name. -/
def takeNameChar (_ : Unit) (character : Char) : Option Unit :=
  if isNameChar character then some () else none

/-- Read a bare directive from behind its percent sign. -/
def readBareAt? (grammar : Grammar) (place : BytePlace) : Option (Event × BytePlace) := do
  let (directive, place) ← Directive.readModifiersAt? {} place
  match ← place.next? with
  | none => some (.fault directive .noVerb, place)
  | some verb => some (grammar.conclude directive verb, ← place.pass?)

/-- Skip to the end of a faulty block; a block without an end is unclosed, whatever else it is. -/
def closeBlockAt? (directive : Directive) (fault : Fault) (place : BytePlace) :
    Option (Event × BytePlace) := do
  match ← place.passTo? '}'.toUInt8 with
  | (true, place) => some (.fault directive fault, ← place.pass?)
  | (false, place) => some (.fault directive .unclosed, place)

/--
The directive of a block that does not end behind its verb.  An accepted verb
passes the blame to the first character behind it.
-/
def blame
    (grammar : Grammar)
    (directive : Directive)
    (verb : Char)
    (extra : Option Char) :
    Directive :=
  if verb ∈ grammar.verbs then
    { directive.accept verb with verb := extra.getD verb }
  else
    { directive with verb }

/-- Read what stands between a verb and the end of its block, where nothing should stand. -/
def readBlockEndAt?
    (grammar : Grammar)
    (directive : Directive)
    (verb : Char)
    (place : BytePlace) :
    Option (Event × BytePlace) := do
  match ← place.passIf? '}' with
  | (true, place) => some (grammar.conclude directive verb, place)
  | (false, place) =>
      let blamed := grammar.blame directive verb (← place.next?)
      closeBlockAt? blamed .invalidVerb place

/-- Read a block from behind the colon. -/
def readBlockBodyAt? (grammar : Grammar) (directive : Directive) (place : BytePlace) :
    Option (Event × BytePlace) := do
  let (directive, place) ← directive.readModifiersAt? place
  match ← place.next? with
  | none => some (.fault directive .unclosed, place)
  | some '}' => some (.fault directive .noVerb, ← place.pass?)
  | some verb => grammar.readBlockEndAt? directive verb (← place.pass?)

/-- Read what stands behind a field name: the end of the block, or a colon and a body. -/
def readBehindNameAt? (grammar : Grammar) (directive : Directive) (place : BytePlace) :
    Option (Event × BytePlace) := do
  let nameless := grammar.requireName && directive.label.isEmpty
  match ← place.next? with
  | some '}' =>
      let place ← place.pass?
      if nameless then
        some (.fault directive .unnamed, place)
      else
        some (.directive (directive.accept 'v'), place)
  | some ':' =>
      let place ← place.pass?
      if nameless then
        closeBlockAt? directive .unnamed place
      else
        grammar.readBlockBodyAt? directive place
  | _ => some (.fault directive .unclosed, place)

/-- Read a block from behind its opening brace; the name is cut out between two offsets. -/
def readBlockAt? (grammar : Grammar) (place : BytePlace) : Option (Event × BytePlace) := do
  let (directive, place) ← place.passInto? Directive.takeMark {}
  let start := place.offset
  let ((), place) ← place.passInto? takeNameChar ()
  let name ← place.textSince? start
  grammar.readBehindNameAt? { directive with name := some name } place

/-- Read a directive from behind its percent sign. -/
def readDirectiveAt? (grammar : Grammar) (place : BytePlace) : Option (Event × BytePlace) := do
  match ← place.passIf? '{' with
  | (true, place) => grammar.readBlockAt? place
  | (false, place) => grammar.readBareAt? place

end Grammar

/-- An offset in a template, with the event that is held there. -/
structure ByteReader where
  place : BytePlace
  held : Option Event := none
  deriving Repr, DecidableEq

namespace Grammar

/--
The next event of a template, if there is one.  Literal text is cut out between
two offsets; it reaches up to the next directive, or through the first of two
percent signs.
-/
def nextAt? (grammar : Grammar) (reader : ByteReader) :
    Option (Option (Event × ByteReader)) := do
  match reader.held with
  | some event => some (some (event, { place := reader.place }))
  | none =>
      if reader.place.atEnd then
        some none
      else
        let start := reader.place.offset
        match ← reader.place.passTo? '%'.toUInt8 with
        | (false, place) =>
            some (some (.text (← place.textSince? start), { place }))
        | (true, place) =>
            if (← place.second?) = some '%' then
              let place ← place.pass?
              let text ← place.textSince? start
              some (some (.text text, { place := ← place.pass? }))
            else
              let text ← place.textSince? start
              let (event, place) ← grammar.readDirectiveAt? (← place.pass?)
              if text.isEmpty then
                some (some (event, { place }))
              else
                some (some (.text text, { place, held := some event }))

/-- A reader gives out events if it gives out the first and behind it the others, until it ends. -/
inductive Gives (grammar : Grammar) : ByteReader → List Event → Prop where
  | ended
      {reader : ByteReader} :
      grammar.nextAt? reader = some none →
      Gives grammar reader []
  | next
      {reader after : ByteReader}
      {event : Event}
      {events : List Event} :
      grammar.nextAt? reader = some (some (event, after)) →
      Gives grammar after events →
      Gives grammar reader (event :: events)

end Grammar

end CaptureFormat
