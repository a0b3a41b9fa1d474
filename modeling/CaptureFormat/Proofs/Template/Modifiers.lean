import CaptureFormat.Proofs.Template.Count
import CaptureFormat.Proofs.Template.Lookahead
import CaptureFormat.Template.Segment
import Mathlib.Logic.ExistsUnique

namespace CaptureFormat

/-!
# What modifiers stand for

In front of a verb stand a run of flags, a run of digits, and a point with a
run of digits, each as long as it can be.  `Modifiers` is a text taken apart in
this way.  Every text can be taken apart in exactly one way, and
`Modifiers.directive` says what its parts stand for, without reading them one
after the other: a flag counts wherever it stands in its run and however often.

`readModifiers_text` is the one statement about the readers that the grammar of
directives and blocks rests on.
-/

/-- A run of characters that pass a test; the text behind it does not go on with another. -/
structure MaximalRun
    (test : Char → Prop)
    (run rest : List Char) : Prop where
  passes : ∀ character ∈ run, test character
  stops : ∀ character ∈ rest.head?, ¬test character

instance decidableMaximalRun
    (test : Char → Prop)
    [DecidablePred test]
    (run rest : List Char) :
    Decidable (MaximalRun test run rest) :=
  decidable_of_iff
    ((run.all fun character => test character) = true ∧
      (rest.head?.all fun character => ¬test character) = true)
    (by
      simp only [List.all_eq_true, Option.all_eq_true, decide_eq_true_eq]
      constructor
      · rintro ⟨passes, stops⟩
        exact ⟨passes, stops⟩
      · intro isRun
        exact ⟨isRun.passes, isRun.stops⟩)

namespace MaximalRun

variable {run rest : List Char}

theorem takeWhile_dropWhile
    {test : Char → Bool}
    (isRun : MaximalRun (test · = true) run rest) :
    (run ++ rest).takeWhile test = run ∧
      (run ++ rest).dropWhile test = rest := by
  apply takeWhile_append_of_stops isRun.passes
  intro character isNext
  exact Bool.eq_false_of_not_eq_true (isRun.stops character isNext)

theorem exists_split
    (test : Char → Bool)
    (text : List Char) :
    ∃ run rest,
      run ++ rest = text ∧ MaximalRun (test · = true) run rest := by
  refine
    ⟨text.takeWhile test, text.dropWhile test,
      List.takeWhile_append_dropWhile, ?_, ?_⟩
  · intro character member
    exact List.mem_takeWhile_imp member
  · intro character isNext passes
    have stopped := List.head?_dropWhile_not test text
    rw [Option.mem_def.mp isNext] at stopped
    exact absurd passes (by simpa using stopped)

theorem unique
    {test : Char → Prop}
    {otherRun otherRest : List Char}
    (isRun : MaximalRun test run rest)
    (isOther : MaximalRun test otherRun otherRest)
    (sameText : run ++ rest = otherRun ++ otherRest) :
    run = otherRun ∧ rest = otherRest := by
  -- a test that cannot be computed is no argument of `takeWhile`
  classical
  have decided :
      ∀ {run rest},
        MaximalRun test run rest →
        MaximalRun (fun character => decide (test character) = true)
          run rest := by
    intro run rest isRun
    exact ⟨by simpa using isRun.passes, by simpa using isRun.stops⟩
  obtain ⟨taken, left⟩ := (decided isRun).takeWhile_dropWhile
  obtain ⟨otherTaken, otherLeft⟩ := (decided isOther).takeWhile_dropWhile
  rw [sameText] at taken left
  exact ⟨taken.symm.trans otherTaken, left.symm.trans otherLeft⟩

/-- A run is empty exactly if the text does not start with a character that passes the test. -/
theorem eq_nil_iff
    {test : Char → Prop}
    (isRun : MaximalRun test run rest) :
    run = [] ↔ ∀ next ∈ (run ++ rest).head?, ¬test next := by
  constructor
  · rintro rfl
    exact isRun.stops
  · intro stops
    cases run with
    | nil =>
        rfl
    | cons first others =>
        exact absurd (isRun.passes first List.mem_cons_self) (stops first rfl)

/-- A run stays maximal if what follows it goes on with a character that fails the test. -/
theorem extend
    {test : Char → Prop}
    {next : Char}
    (isRun : MaximalRun test run rest)
    (fails : ¬test next)
    (more : List Char) :
    MaximalRun test run (rest ++ next :: more) where
  passes := isRun.passes
  stops := by
    cases rest with
    | nil =>
        rintro character ⟨⟩
        exact fails
    | cons first others =>
        exact isRun.stops

end MaximalRun

/-- The characters that stand for flags. -/
def Directive.flagChars : List Char :=
  ['+', '-', ' ', '#', '0']

theorem Directive.isFlagChar_iff {character : Char} :
    isFlagChar character = true ↔ character ∈ flagChars := by
  unfold isFlagChar Flag.ofChar?
  split <;> simp_all [flagChars]

/-- A precision as it is spelled: a point and digits, or nothing. -/
def pointed : Option (List Char) → List Char
  | none => []
  | some digits => '.' :: digits

/-- A precision takes all digits behind its point, and there is one if there is a point. -/
def MaximalPrecision : Option (List Char) → List Char → Prop
  | none, rest => rest.head? ≠ some '.'
  | some digits, rest => MaximalRun (·.isDigit = true) digits rest

instance decidableMaximalPrecision :
    (precision : Option (List Char)) →
    (rest : List Char) →
    Decidable (MaximalPrecision precision rest)
  | none, rest =>
      inferInstanceAs (Decidable (rest.head? ≠ some '.'))
  | some digits, rest =>
      inferInstanceAs (Decidable (MaximalRun (·.isDigit = true) digits rest))

namespace MaximalPrecision

theorem exists_split (text : List Char) :
    ∃ precision rest,
      pointed precision ++ rest = text ∧
        MaximalPrecision precision rest := by
  by_cases point : text.head? = some '.'
  · obtain ⟨afterPoint, rfl⟩ : ∃ afterPoint, text = '.' :: afterPoint := by
      cases text with
      | nil =>
          cases point
      | cons first rest =>
          cases point
          exact ⟨rest, rfl⟩
    obtain ⟨digits, rest, rfl, maximal⟩ :=
      MaximalRun.exists_split Char.isDigit afterPoint
    exact ⟨some digits, rest, rfl, maximal⟩
  · exact ⟨none, text, rfl, point⟩

theorem unique
    {precision other : Option (List Char)}
    {rest otherRest : List Char}
    (maximal : MaximalPrecision precision rest)
    (otherMaximal : MaximalPrecision other otherRest)
    (sameText : pointed precision ++ rest = pointed other ++ otherRest) :
    precision = other ∧ rest = otherRest := by
  cases precision with
  | none =>
      cases other with
      | none =>
          exact ⟨rfl, sameText⟩
      | some otherDigits =>
          exact absurd (congrArg List.head? sameText) maximal
  | some digits =>
      cases other with
      | none =>
          exact absurd (congrArg List.head? sameText).symm otherMaximal
      | some otherDigits =>
          obtain ⟨rfl, sameRest⟩ :=
            MaximalRun.unique maximal otherMaximal
              (List.cons.inj sameText).2
          exact ⟨rfl, sameRest⟩

theorem extend
    {precision : Option (List Char)}
    {rest : List Char}
    (maximal : MaximalPrecision precision rest)
    (more : List Char) :
    MaximalPrecision precision (rest ++ '}' :: more) := by
  cases precision with
  | none =>
      cases rest with
      | nil =>
          simp [MaximalPrecision]
      | cons first others =>
          exact maximal
  | some digits =>
      exact MaximalRun.extend maximal (by decide) more

end MaximalPrecision

/-- A text taken apart into modifiers and what is behind them. -/
@[ext]
structure Modifiers where
  flags : List Char
  /-- The digits of the width; none if there is no width. -/
  width : List Char
  /-- The digits behind the point, if there is a point. -/
  precision : Option (List Char)
  rest : List Char
  flags_maximal :
    MaximalRun (· ∈ Directive.flagChars) flags
      (width ++ (pointed precision ++ rest))
  width_maximal :
    MaximalRun (·.isDigit = true) width (pointed precision ++ rest)
  precision_maximal : MaximalPrecision precision rest

namespace Modifiers

/-- The text that was taken apart. -/
def text (modifiers : Modifiers) : List Char :=
  modifiers.flags ++
    (modifiers.width ++ (pointed modifiers.precision ++ modifiers.rest))

theorem text_injective : Function.Injective text := by
  intro modifiers other sameText
  obtain ⟨sameFlags, behindFlags⟩ :=
    modifiers.flags_maximal.unique other.flags_maximal sameText
  obtain ⟨sameWidth, behindWidth⟩ :=
    modifiers.width_maximal.unique other.width_maximal behindFlags
  obtain ⟨samePrecision, sameRest⟩ :=
    modifiers.precision_maximal.unique other.precision_maximal behindWidth
  exact Modifiers.ext sameFlags sameWidth samePrecision sameRest

/-- Every text can be taken apart in exactly one way. -/
theorem existsUnique_text (text : List Char) :
    ∃! modifiers : Modifiers, modifiers.text = text := by
  obtain ⟨flags, behindFlags, rfl, flagsMaximal⟩ :=
    MaximalRun.exists_split Directive.isFlagChar text
  obtain ⟨width, behindWidth, rfl, widthMaximal⟩ :=
    MaximalRun.exists_split Char.isDigit behindFlags
  obtain ⟨precision, rest, rfl, precisionMaximal⟩ :=
    MaximalPrecision.exists_split behindWidth
  simp only [Directive.isFlagChar_iff] at flagsMaximal
  refine
    ⟨⟨flags, width, precision, rest,
      flagsMaximal, widthMaximal, precisionMaximal⟩, rfl, ?_⟩
  intro other sameText
  exact text_injective sameText

/-- The same modifiers with more text behind them, which starts with a closing brace. -/
def close (modifiers : Modifiers) (more : List Char) : Modifiers where
  flags := modifiers.flags
  width := modifiers.width
  precision := modifiers.precision
  rest := modifiers.rest ++ '}' :: more
  flags_maximal := by
    have noFlag : '}' ∉ Directive.flagChars := by decide
    have extended := modifiers.flags_maximal.extend noFlag more
    simpa only [List.append_assoc] using extended
  width_maximal := by
    have noDigit : ¬ '}'.isDigit = true := by decide
    have extended := modifiers.width_maximal.extend noDigit more
    simpa only [List.append_assoc] using extended
  precision_maximal := modifiers.precision_maximal.extend more

@[simp] theorem text_close
    (modifiers : Modifiers)
    (more : List Char) :
    (modifiers.close more).text = modifiers.text ++ '}' :: more := by
  simp [text, close]

end Modifiers

/--
The flags that marks stand for, wherever they stand and however often.  A minus
takes the zero away.  The plus and the sharp have forms of their own for the
verb of values.
-/
def Flags.ofMarks (marks : List Char) (ofValue : Bool) : Flags where
  plus := marks.contains '+' && !ofValue
  minus := marks.contains '-'
  space := marks.contains ' '
  sharp := marks.contains '#' && !ofValue
  zero := marks.contains '0' && !marks.contains '-'
  verbose := marks.contains '+' && ofValue
  source := marks.contains '#' && ofValue

/-- The number that digits stand for, up to the limit for widths and precisions. -/
def Directive.sizeOfDigits (digits : List Char) : Nat :=
  min (Nat.ofDigitChars 10 digits 0) 1000000

/--
The directive that modifiers stand for, with a verb.  Marks may have stood in
front of its name.  If the verb is `v`, the flags take the forms of that verb
once it is accepted.
-/
def Modifiers.directive
    (modifiers : Modifiers)
    (name : Option String)
    (marks : List Char)
    (verb : Char)
    (accepted : Bool) :
    Directive where
  verb := verb
  name := name
  flags := .ofMarks (marks ++ modifiers.flags) (accepted && verb == 'v')
  width :=
    if modifiers.width = [] then
      none
    else
      some (Directive.sizeOfDigits modifiers.width)
  precision := modifiers.precision.map Directive.sizeOfDigits

namespace Directive

/-- One more flag is read as if it stood among the marks in front of it. -/
theorem addFlags_ofMarks
    (directive : Directive)
    (marks : List Char)
    {character : Char}
    (isFlag : character ∈ flagChars) :
    ({ directive with flags := .ofMarks marks false }.addFlags
        (Flag.ofChar? character).toList) =
      { directive with flags := .ofMarks (marks ++ [character]) false } := by
  simp only [flagChars, List.mem_cons, List.not_mem_nil, or_false] at isFlag
  -- the minus takes away a zero on either side of it
  rcases isFlag with rfl | rfl | rfl | rfl | rfl <;>
    simp [Flag.ofChar?, addFlags, set, dropHiddenZero, Flags.ofMarks,
      List.contains_eq_mem]

theorem foldl_addFlags_ofMarks
    (directive : Directive)
    (marks : List Char)
    {run : List Char}
    (areFlags : ∀ character ∈ run, character ∈ flagChars) :
    run.foldl
        (fun (soFar : Directive) character =>
          soFar.addFlags (Flag.ofChar? character).toList)
        { directive with flags := .ofMarks marks false } =
      { directive with flags := .ofMarks (marks ++ run) false } := by
  induction run generalizing marks with
  | nil =>
      rw [List.append_nil]
      rfl
  | cons first rest inductionHypothesis =>
      obtain ⟨isFlag, othersAreFlags⟩ := List.forall_mem_cons.mp areFlags
      rw [List.foldl_cons, addFlags_ofMarks directive marks isFlag,
        inductionHypothesis _ othersAreFlags, List.append_assoc]
      rfl

theorem readFlags_run
    (directive : Directive)
    (marks : List Char)
    {run rest : List Char}
    (maximal : MaximalRun (· ∈ flagChars) run rest) :
    { directive with flags := .ofMarks marks false }.readFlags (run ++ rest) =
      ({ directive with flags := .ofMarks (marks ++ run) false }, rest) := by
  have areFlags := maximal.passes
  simp only [← isFlagChar_iff] at maximal
  obtain ⟨taken, left⟩ := maximal.takeWhile_dropWhile
  simp only [readFlags, taken, left,
    foldl_addFlags_ofMarks directive marks areFlags]

theorem read?_run
    {run rest : List Char}
    (maximal : MaximalRun (·.isDigit = true) run rest) :
    Count.read? countCap (run ++ rest) =
      if run = [] then
        none
      else
        some (Count.ofDigits countCap run, rest) := by
  obtain ⟨taken, left⟩ := maximal.takeWhile_dropWhile
  rw [Count.read?_eq, taken, left]

/-- The cap on a count is the limit for widths and precisions. -/
theorem min_toNat_ofDigits (digits : List Char) :
    min (Count.ofDigits countCap digits).toNat sizeLimit =
      sizeOfDigits digits := by
  have cap : countCap.toNat = 1000000 := rfl
  rw [Count.toNat_ofDigits, cap, sizeOfDigits, sizeLimit, Nat.min_assoc,
    Nat.min_self]

theorem readWidth_run
    (directive : Directive)
    {run rest : List Char}
    (maximal : MaximalRun (·.isDigit = true) run rest) :
    directive.readWidth (run ++ rest) =
      ({ directive with
          width :=
            if run = [] then directive.width else some (sizeOfDigits run) },
        rest) := by
  rw [readWidth, read?_run maximal]
  by_cases empty : run = []
  · simp [empty]
  · simp [empty, withWidth, min_toNat_ofDigits]

theorem readPrecision_point
    (directive : Directive)
    {run rest : List Char}
    (maximal : MaximalRun (·.isDigit = true) run rest) :
    directive.readPrecision ('.' :: (run ++ rest)) =
      ({ directive with precision := some (sizeOfDigits run) }, rest) := by
  simp only [readPrecision, read?_run maximal]
  by_cases empty : run = []
  · subst run
    rfl
  · simp [empty, withPrecision, min_toNat_ofDigits]

theorem readPrecision_of_head?_ne
    (directive : Directive)
    {text : List Char}
    (pointless : text.head? ≠ some '.') :
    directive.readPrecision text = (directive, text) := by
  unfold readPrecision
  split
  · exact absurd rfl pointless
  · rfl

/-- Reading modifiers gives the directive that they stand for and leaves what is behind them. -/
theorem readModifiers_text
    (modifiers : Modifiers)
    (name : Option String)
    (marks : List Char) :
    { name, flags := .ofMarks marks false : Directive }.readModifiers
        modifiers.text =
      (modifiers.directive name marks '\x00' false, modifiers.rest) := by
  have precision := modifiers.precision_maximal
  simp only [readModifiers, Modifiers.text,
    readFlags_run { name } marks modifiers.flags_maximal,
    readWidth_run _ modifiers.width_maximal]
  cases shape : modifiers.precision with
  | none =>
      rw [shape] at precision
      simp [pointed, readPrecision_of_head?_ne _ precision,
        Modifiers.directive, shape]
  | some digits =>
      rw [shape] at precision
      simp [pointed, readPrecision_point _ precision,
        Modifiers.directive, shape]

/-- Once it is accepted, the verb `v` turns the flags into its own forms. -/
theorem accept_directive
    (modifiers : Modifiers)
    (name : Option String)
    (marks : List Char)
    (verb : Char) :
    (modifiers.directive name marks '\x00' false).accept verb =
      modifiers.directive name marks verb true := by
  by_cases ofValue : verb = 'v' <;>
    simp [accept, adaptToVerb, Modifiers.directive, Flags.ofMarks, ofValue]

end Directive

end CaptureFormat
