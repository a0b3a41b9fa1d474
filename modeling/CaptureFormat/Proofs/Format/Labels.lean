import CaptureFormat.Captures
import CaptureFormat.Proofs.Format.Basic
import CaptureFormat.Proofs.Formatter.Concatenation
import CaptureFormat.Proofs.Template.Labels

namespace CaptureFormat

/-!
# Names are labels

The name of a directive says under which field its argument is reported.  The
standard rendering does not look at it, at any depth of a value, and neither do
its markers.  So a directive can be spelled with a name or without one, in any
place of a template, and the text is the same.
-/

namespace Standard

variable
  (mark : Value → List Char)
  (directive : Directive)
  (name : Option String)

theorem single?_withName (value : Value) :
    single? { directive with name } value = single? directive value := by
  cases value <;> rfl

theorem item_withName (value : Value) :
    item mark { directive with name } value = item mark directive value := by
  unfold item
  rw [single?_withName]
  rfl

mutual

/-- A value is rendered in the same way under every name. -/
theorem renderUsing_withName :
    (value : Value) →
    renderUsing mark { directive with name } value =
      renderUsing mark directive value
  | .list items => by
      simp only [renderUsing, renderEach_withName items]
      rfl
  | .bytes bytes => by
      simp only [renderUsing, single?_withName, item_withName]
      rfl
  | .nil | .bool _ | .int _ | .uint _ | .float _ | .text _ | .error _
  | .pointer _ => by
      simp only [renderUsing, item_withName]

/-- The values of a list are rendered in the same way under every name. -/
theorem renderEach_withName :
    (items : List Value) →
    renderEach mark { directive with name } items =
      renderEach mark directive items
  | [] => rfl
  | item :: items => by
      simp only [renderEach, renderUsing_withName item,
        renderEach_withName items]

end

theorem render_withName (value : Value) :
    render { directive with name } value = render directive value :=
  congrArg String.ofList
    (renderUsing_withName (mismatch directive.verb) directive name value)

end Standard

/-- A directive has the same text under every name, whether there is an argument or not. -/
theorem Rendering.chunk_standard_withName
    (values : List Value)
    (index : Nat)
    (directive : Directive)
    (name : Option String) :
    standard.chunk values index (.directive { directive with name }) =
      standard.chunk values index (.directive directive) := by
  unfold chunk
  cases values[index]? with
  | none =>
      rfl
  | some value =>
      exact Standard.render_withName directive name value

namespace Formatter

/--
In any place of a template, a directive can be exchanged for another one that
has the same text for every argument.
-/
theorem join_chunks_exchange
    (formatter : Formatter κ V)
    {before first second : String}
    (whole : Event.EndWhole (formatter.grammar.events before))
    {asked other : Directive}
    (readsFirst : formatter.grammar.events first = [.directive asked])
    (readsSecond : formatter.grammar.events second = [.directive other])
    (same :
      ∀ values index,
        formatter.rendering.chunk values index (.directive asked) =
          formatter.rendering.chunk values index (.directive other))
    (after : String)
    (values : List V) :
    String.join (formatter.chunks (before ++ (first ++ after)) values) =
      String.join
        (formatter.chunks (before ++ (second ++ after)) values) := by
  have directiveWhole :
      ∀ {spelling directive},
        formatter.grammar.events spelling = [.directive directive] →
        Event.EndWhole (formatter.grammar.events spelling) := by
    rintro spelling directive reads event isLast
    rw [reads] at isLast
    cases isLast
    rfl
  have sameTaken :
      ∀ values : List V,
        formatter.taken first values = formatter.taken second values := by
    intro values
    simp only [taken, requests, events_eq, readsFirst, readsSecond]
    rfl
  have sameChunks :
      ∀ values : List V,
        formatter.chunks first values = formatter.chunks second values := by
    intro values
    simp only [chunks, events_eq, readsFirst, readsSecond]
    exact congrArg ([·]) (same values 0)
  simp only [formatter.join_chunks_append before _ whole,
    formatter.join_chunks_append _ after (directiveWhole readsFirst),
    formatter.join_chunks_append _ after (directiveWhole readsSecond),
    sameTaken, sameChunks]

end Formatter

/--
A name in front of a directive is a label and nothing else.

With the name in a block or without it, the template is read as a directive or
it is not, and the two directives differ in the name only.  Then every value is
rendered in the same way for both of them, and formatting either spelling gives
the same text, whatever stands in front of it and behind it.
-/
theorem format_labelled
    (grammar : Grammar)
    (marks name body : String)
    (areMarks : ∀ mark ∈ marks.toList, mark = '+' ∨ mark = '#')
    (named : name ≠ "")
    (nameChars : ':' ∉ name.toList ∧ '}' ∉ name.toList)
    (unmarked : ∀ first ∈ name.toList.head?, ¬(first = '+' ∨ first = '#'))
    (braceless : '}' ∉ body.toList)
    (bare : ∀ first ∈ body.toList.head?, first ≠ '%' ∧ first ≠ '{') :
    let block := "%\x7b" ++ marks ++ name ++ ":" ++ body ++ "\x7d"
    let unnamed := "%" ++ marks ++ body
    (∀ labelled,
        grammar.events block = [.directive labelled] ↔
          ∃ asked : Directive,
            grammar.events unnamed = [.directive asked] ∧
              labelled = { asked with name := some name }) ∧
      (∀ (asked : Directive) (value : Value),
        Standard.render { asked with name := some name } value =
          Standard.render asked value) ∧
      ∀ asked,
        Grammar.events {} unnamed = [.directive asked] →
        ∀ before after,
          Event.EndWhole (Grammar.events {} before) →
          ∀ (observer : Observer κ Value) (observed : κ) (values : List Value),
            (format observer observed (before ++ block ++ after) values).text =
              (format observer observed (before ++ unnamed ++ after)
                values).text := by
  intro block unnamed
  have readAlike :
      ∀ grammar : Grammar,
        ∀ labelled,
          grammar.events block = [.directive labelled] ↔
            ∃ asked : Directive,
              grammar.events unnamed = [.directive asked] ∧
                labelled = { asked with name := some name } :=
    fun grammar =>
      grammar.events_labelled_iff areMarks named nameChars unmarked braceless
        bare
  refine ⟨readAlike grammar, ?_, ?_⟩
  · intro asked value
    exact Standard.render_withName asked (some name) value
  · intro asked readsBare before after whole observer observed values
    have readsBlock := (readAlike {} _).mpr ⟨asked, readsBare, rfl⟩
    have grouped :
        ∀ spelling : String,
          before ++ spelling ++ after = before ++ (spelling ++ after) :=
      fun _ => String.append_assoc
    rw [format_eq, format_eq, grouped block, grouped unnamed]
    exact
      (Formatter.standard observer).join_chunks_exchange whole readsBlock
        readsBare
        (fun values index =>
          Rendering.chunk_standard_withName values index asked (some name))
        after values

/-- Flags on both sides of a name, in a block with text around it. -/
theorem format_labelled_flags :
    (∀ mark ∈ "#".toList, mark = '+' ∨ mark = '#') ∧
      "id" ≠ "" ∧
      (':' ∉ "id".toList ∧ '}' ∉ "id".toList) ∧
      (∀ first ∈ "id".toList.head?, ¬(first = '+' ∨ first = '#')) ∧
      '}' ∉ "+6v".toList ∧
      (∀ first ∈ "+6v".toList.head?, first ≠ '%' ∧ first ≠ '{') ∧
      Event.EndWhole (Grammar.events {} "n=") ∧
      Grammar.events {} "%\x7b#id:+6v\x7d" =
        [.directive {
          verb := 'v'
          name := some "id"
          flags := { verbose := true, source := true }
          width := some 6 }] ∧
      (format Captures.observer {} "n=%\x7b#id:+6v\x7d;" [.uint 7]).text =
        (format Captures.observer {} "n=%#+6v;" [.uint 7]).text := by
  have areMarks : ∀ mark ∈ "#".toList, mark = '+' ∨ mark = '#' := by simp
  have unmarked :
      ∀ first ∈ "id".toList.head?, ¬(first = '+' ∨ first = '#') := by
    rintro first ⟨⟩
    decide
  have bare : ∀ first ∈ "+6v".toList.head?, first ≠ '%' ∧ first ≠ '{' := by
    rintro first ⟨⟩
    decide
  have whole : Event.EndWhole (Grammar.events {} "n=") := by
    have literal : Grammar.events {} "n=" = [.text "n="] := by
      decide +kernel
    rw [literal]
    rintro event ⟨⟩
    rfl
  have reads :
      Grammar.events {} "%#+6v" =
        [.directive {
          verb := 'v'
          flags := { verbose := true, source := true }
          width := some 6 }] := by
    decide +kernel
  obtain ⟨alike, _, sameText⟩ :=
    format_labelled {} "#" "id" "+6v" areMarks (by decide) (by decide)
      unmarked (by decide) bare
  refine
    ⟨areMarks, by decide, by decide, unmarked, by decide, bare, whole,
      (alike _).mpr ⟨_, reads, rfl⟩, ?_⟩
  exact sameText _ reads "n=" ";" whole Captures.observer {} [.uint 7]

end CaptureFormat
