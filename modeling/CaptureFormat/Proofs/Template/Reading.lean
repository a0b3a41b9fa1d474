import CaptureFormat.Proofs.Template.Lookahead
import CaptureFormat.Template.Events

namespace CaptureFormat

/-!
# What a reader makes of a template

`Grammar.Reads` says which events a text has, without a reader and without
anything that is held back.  Exactly the events that a reader gives out are
those of `Reads`, so what holds of all events is shown by induction on it.
-/

/-- Literal text as an event, if there is any. -/
def Event.ofLiteral (run : List Char) : List Event :=
  if run.isEmpty then [] else [.text (String.ofList run)]

/-- Literal text that is not empty is an event. -/
theorem Event.ofLiteral_of_ne_nil
    {run : List Char}
    (nonempty : run ≠ []) :
    ofLiteral run = [.text (String.ofList run)] := by
  rw [ofLiteral, if_neg]
  exact mt List.isEmpty_iff.mp nonempty

namespace Grammar

/-- The events of a text, from one percent sign to the next. -/
inductive Reads (grammar : Grammar) : List Char → List Event → Prop where
  /-- Without a percent sign, all text is literal. -/
  | literal
      {run : List Char} :
      '%' ∉ run →
      Reads grammar run (Event.ofLiteral run)
  /-- Two percent signs stand for one, which ends the text in front of them. -/
  | escaped
      {run rest : List Char}
      {events : List Event} :
      '%' ∉ run →
      Reads grammar rest events →
      Reads grammar
        (run ++ '%' :: '%' :: rest)
        (.text (String.ofList (run ++ ['%'])) :: events)
  /-- Any other percent sign starts a directive. -/
  | directive
      {run afterPercent : List Char}
      {events : List Event} :
      '%' ∉ run →
      (∀ rest, afterPercent ≠ '%' :: rest) →
      Reads grammar (grammar.readDirective afterPercent).2 events →
      Reads grammar
        (run ++ '%' :: afterPercent)
        (Event.ofLiteral run ++
          (grammar.readDirective afterPercent).1 :: events)

private theorem literal_append
    {run more : List Char}
    (literal : '%' ∉ run)
    (stops : ∀ character ∈ more.head?, character = '%') :
    (run ++ more).takeWhile (· != '%') = run ∧
      (run ++ more).dropWhile (· != '%') = more := by
  apply takeWhile_append_of_stops
  · intro character member
    exact bne_iff_ne.mpr fun same => literal (same ▸ member)
  · intro character isNext
    simp [stops character isNext]

private theorem exists_literal (text : List Char) :
    ∃ run more,
      text = run ++ more ∧
        '%' ∉ run ∧
        (more = [] ∨ ∃ afterPercent, more = '%' :: afterPercent) := by
  refine
    ⟨text.takeWhile (· != '%'), text.dropWhile (· != '%'),
      List.takeWhile_append_dropWhile.symm, ?_, ?_⟩
  · intro member
    have notPercent := List.mem_takeWhile_imp member
    simp at notPercent
  · cases behind : text.dropWhile (· != '%') with
    | nil =>
        exact Or.inl rfl
    | cons first afterFirst =>
        have stops := List.head?_dropWhile_not (· != '%') text
        simp only [behind, List.head?_cons, bne_eq_false_iff_eq] at stops
        exact Or.inr ⟨afterFirst, by rw [stops]⟩

variable {grammar : Grammar}

/-- A reader gives out what it holds before anything else. -/
theorem eventsFrom_held
    (event : Event)
    (rest : List Char) :
    grammar.eventsFrom { rest, held := some event } =
      event :: grammar.eventsFrom { rest } :=
  eventsFrom_of_next? rfl

/-- A reader gives out literal text up to the end. -/
theorem eventsFrom_literal
    {run : List Char}
    (literal : '%' ∉ run) :
    grammar.eventsFrom { rest := run } = Event.ofLiteral run := by
  by_cases empty : run = []
  · subst run
    exact eventsFrom_nil grammar
  · have stops :
        ∀ character ∈ ([] : List Char).head?, character = '%' := by
      simp
    obtain ⟨taken, left⟩ := literal_append literal stops
    rw [List.append_nil] at taken left
    have read :
        grammar.next? { rest := run } =
          some (.text (String.ofList run), { rest := [] }) := by
      simp [next?, taken, left, empty]
    rw [eventsFrom_of_next? read, eventsFrom_nil,
      Event.ofLiteral_of_ne_nil empty]

/-- A reader gives out literal text through the first of two percent signs. -/
theorem eventsFrom_escaped
    {run : List Char}
    (literal : '%' ∉ run)
    (rest : List Char) :
    grammar.eventsFrom { rest := run ++ '%' :: '%' :: rest } =
      .text (String.ofList (run ++ ['%'])) ::
        grammar.eventsFrom { rest } := by
  have stops :
      ∀ character ∈ ('%' :: '%' :: rest).head?, character = '%' := by
    simp
  obtain ⟨taken, left⟩ := literal_append literal stops
  apply eventsFrom_of_next?
  simp only [next?, taken, left]

/-- A reader gives out literal text in front of a directive, and the directive next. -/
theorem eventsFrom_directive
    {run afterPercent : List Char}
    (literal : '%' ∉ run)
    (single : ∀ rest, afterPercent ≠ '%' :: rest) :
    grammar.eventsFrom { rest := run ++ '%' :: afterPercent } =
      Event.ofLiteral run ++
        (grammar.readDirective afterPercent).1 ::
          grammar.eventsFrom
            { rest := (grammar.readDirective afterPercent).2 } := by
  have stops :
      ∀ character ∈ ('%' :: afterPercent).head?, character = '%' := by
    simp
  obtain ⟨taken, left⟩ := literal_append literal stops
  by_cases empty : run = []
  · subst run
    apply eventsFrom_of_next?
    simp [next?]
  · have read :
        grammar.next? { rest := run ++ '%' :: afterPercent } =
          some (.text (String.ofList run),
            { rest := (grammar.readDirective afterPercent).2
              held := some (grammar.readDirective afterPercent).1 }) := by
      simp [next?, taken, left, empty]
    rw [eventsFrom_of_next? read, eventsFrom_held,
      Event.ofLiteral_of_ne_nil empty]
    rfl

/-- A reader gives out the events of a text and no others. -/
theorem Reads.eventsFrom_eq
    {text : List Char}
    {events : List Event}
    (reads : grammar.Reads text events) :
    grammar.eventsFrom { rest := text } = events := by
  induction reads with
  | literal literal =>
      exact eventsFrom_literal literal
  | escaped literal _ inductionHypothesis =>
      rw [eventsFrom_escaped literal, inductionHypothesis]
  | directive literal single _ inductionHypothesis =>
      rw [eventsFrom_directive literal single, inductionHypothesis]

/-- Every text has events. -/
theorem exists_reads
    (grammar : Grammar)
    (text : List Char) :
    ∃ events, grammar.Reads text events := by
  -- on the length, because a directive may leave any end part of the text
  induction shorter : text.length using Nat.strong_induction_on
    generalizing text with
  | _ length inductionHypothesis =>
      subst shorter
      obtain ⟨run, more, rfl, literal, rfl | ⟨afterPercent, rfl⟩⟩ :=
        exists_literal text
      · rw [List.append_nil]
        exact ⟨_, .literal literal⟩
      · by_cases escaped : ∃ rest, afterPercent = '%' :: rest
        · obtain ⟨rest, rfl⟩ := escaped
          obtain ⟨events, reads⟩ :=
            inductionHypothesis _
              (by simp only [List.length_append, List.length_cons]; omega)
              rest rfl
          exact ⟨_, .escaped literal reads⟩
        · have suffix :=
            (readDirective_suffix grammar afterPercent).length_le
          obtain ⟨events, reads⟩ :=
            inductionHypothesis _
              (by simp only [List.length_append, List.length_cons]; omega)
              (grammar.readDirective afterPercent).2 rfl
          exact ⟨_, .directive literal (not_exists.mp escaped) reads⟩

/-- What a reader gives out are the events of its text. -/
theorem reads_eventsFrom
    (grammar : Grammar)
    (text : List Char) :
    grammar.Reads text (grammar.eventsFrom { rest := text }) := by
  obtain ⟨events, reads⟩ := grammar.exists_reads text
  rwa [reads.eventsFrom_eq]

/-- What holds of text and of all that a directive is read as holds of every event. -/
theorem Reads.forall_mem
    {text : List Char}
    {events : List Event}
    (reads : grammar.Reads text events)
    {holds : Event → Prop}
    (ofText : ∀ content, holds (.text content))
    (ofDirective : ∀ text, holds (grammar.readDirective text).1) :
    ∀ event ∈ events, holds event := by
  have ofLiteral : ∀ run, ∀ event ∈ Event.ofLiteral run, holds event := by
    intro run event member
    unfold Event.ofLiteral at member
    split at member
    · cases member
    · rw [List.mem_singleton.mp member]
      exact ofText _
  induction reads with
  | literal _ =>
      exact ofLiteral _
  | escaped _ _ inductionHypothesis =>
      exact List.forall_mem_cons.mpr ⟨ofText _, inductionHypothesis⟩
  | directive _ _ _ inductionHypothesis =>
      exact
        List.forall_mem_append.mpr
          ⟨ofLiteral _,
            List.forall_mem_cons.mpr ⟨ofDirective _, inductionHypothesis⟩⟩

/-- Every character belongs to an event. -/
theorem eventsFrom_cons_ne_nil
    (grammar : Grammar)
    (first : Char)
    (rest : List Char) :
    grammar.eventsFrom { rest := first :: rest } ≠ [] := by
  have reads := grammar.reads_eventsFrom (first :: rest)
  intro nothing
  rw [nothing] at reads
  generalize text : first :: rest = characters at reads
  generalize events : ([] : List Event) = found at reads
  cases reads with
  | literal literal =>
      have nonempty : characters ≠ [] := by simp [← text]
      rw [Event.ofLiteral_of_ne_nil nonempty] at events
      cases events
  | escaped literal reads =>
      cases events
  | directive literal single reads =>
      simp at events

end Grammar

end CaptureFormat
