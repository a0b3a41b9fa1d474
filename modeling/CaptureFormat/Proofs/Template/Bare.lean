import CaptureFormat.Proofs.Template.Modifiers
import CaptureFormat.Proofs.Template.Reading

namespace CaptureFormat.Grammar

/-!
# Bare directives

A bare directive is spelled by modifiers and one more character, its verb.
Everything behind the verb is a template of its own.
-/

variable {grammar : Grammar}

/-- A percent sign in front of anything but a second one starts a directive. -/
theorem eventsFrom_percent
    {afterPercent : List Char}
    (single : ∀ rest, afterPercent ≠ '%' :: rest) :
    grammar.eventsFrom { rest := '%' :: afterPercent } =
      (grammar.readDirective afterPercent).1 ::
        grammar.eventsFrom
          { rest := (grammar.readDirective afterPercent).2 } :=
  eventsFrom_directive List.not_mem_nil single

/-- A directive is read as a bare one if no brace follows its percent sign. -/
theorem readDirective_of_ne_brace
    {text : List Char}
    (bare : ∀ rest, text ≠ '{' :: rest) :
    grammar.readDirective text = grammar.readBare text := by
  unfold readDirective
  split
  · exact absurd rfl (bare _)
  · rfl

/-- The verb decides what becomes of a directive that has been read up to it. -/
theorem conclude_directive
    (grammar : Grammar)
    (modifiers : Modifiers)
    (name : Option String)
    (marks : List Char)
    (verb : Char) :
    grammar.conclude (modifiers.directive name marks '\x00' false) verb =
      if verb ∈ grammar.verbs then
        .directive (modifiers.directive name marks verb true)
      else
        .fault (modifiers.directive name marks verb false) .invalidVerb := by
  rw [conclude, Directive.accept_directive]
  rfl

/-- A bare directive is its modifiers, and its verb if it has one. -/
theorem readBare_text
    (grammar : Grammar)
    (modifiers : Modifiers) :
    grammar.readBare modifiers.text =
      match modifiers.rest with
      | [] => (.fault (modifiers.directive none [] '\x00' false) .noVerb, [])
      | verb :: behind =>
          (if verb ∈ grammar.verbs then
              .directive (modifiers.directive none [] verb true)
            else
              .fault (modifiers.directive none [] verb false) .invalidVerb,
            behind) := by
  have read := Directive.readModifiers_text modifiers none []
  change Directive.readModifiers {} modifiers.text = _ at read
  simp only [readBare, read]
  cases modifiers.rest with
  | nil =>
      rfl
  | cons verb behind =>
      simp only [conclude_directive]

/--
A percent sign in front of anything but a percent sign or a brace is a bare
directive.

What follows the percent sign is taken apart into modifiers, in the only way
there is.  If nothing is behind them, the directive has no verb and the
template ends.  Otherwise the next character is its verb, whatever it is, and
the rest of the template has its events as if it stood alone.
-/
theorem events_bare
    (grammar : Grammar)
    (text : String)
    (bare : ∀ first ∈ text.toList.head?, first ≠ '%' ∧ first ≠ '{') :
    (∃! modifiers : Modifiers, modifiers.text = text.toList) ∧
      ∀ modifiers : Modifiers,
        modifiers.text = text.toList →
        grammar.events ("%" ++ text) =
          match modifiers.rest with
          | [] => [.fault (modifiers.directive none [] '\x00' false) .noVerb]
          | verb :: behind =>
              (if verb ∈ grammar.verbs then
                  .directive (modifiers.directive none [] verb true)
                else
                  .fault (modifiers.directive none [] verb false)
                    .invalidVerb) ::
                grammar.events (String.ofList behind) := by
  refine ⟨Modifiers.existsUnique_text text.toList, ?_⟩
  intro modifiers spelled
  have single : ∀ rest, text.toList ≠ '%' :: rest := by
    intro rest shape
    exact (bare '%' (by rw [shape]; rfl)).1 rfl
  have braceless : ∀ rest, text.toList ≠ '{' :: rest := by
    intro rest shape
    exact (bare '{' (by rw [shape]; rfl)).2 rfl
  have start : ("%" ++ text).toList = '%' :: text.toList := by
    rw [String.toList_append]
    rfl
  rw [events, start, eventsFrom_percent single,
    readDirective_of_ne_brace braceless, ← spelled, readBare_text]
  cases modifiers.rest with
  | nil =>
      simp
  | cons verb behind =>
      simp only [events, String.toList_ofList]

/-- A bare directive with all kinds of modifiers, and the template behind its verb. -/
theorem events_bare_value :
    (∀ first ∈ "-0+08.v!".toList.head?, first ≠ '%' ∧ first ≠ '{') ∧
      events {} "%-0+08.v!" =
        [.directive {
            verb := 'v'
            flags := { minus := true, verbose := true }
            width := some 8
            precision := some 0 },
          .text "!"] := by
  have bare :
      ∀ first ∈ "-0+08.v!".toList.head?, first ≠ '%' ∧ first ≠ '{' := by
    intro first isFirst
    obtain rfl : '-' = first := Option.some.inj isFirst
    decide
  refine ⟨bare, ?_⟩
  let modifiers : Modifiers := {
    flags := ['-', '0', '+', '0']
    width := ['8']
    precision := some []
    rest := ['v', '!']
    flags_maximal := by decide
    width_maximal := by decide
    precision_maximal := by decide }
  have read := (events_bare {} "-0+08.v!" bare).2 modifiers (by decide)
  have behind : events {} "!" = [.text "!"] :=
    eventsFrom_literal (by decide)
  have supported : 'v' ∈ VerbMask.standard := by decide
  refine read.trans ?_
  simp only [modifiers]
  rw [if_pos supported]
  exact congrArg (_ :: ·) behind

end CaptureFormat.Grammar
