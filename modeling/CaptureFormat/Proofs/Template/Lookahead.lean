import CaptureFormat.Template.Modifiers
import Mathlib.Data.List.TakeWhile

namespace CaptureFormat

/-!
# One character of lookahead

A scanner splits a text into what it takes and the rest.  The scanners for
what stands in front of a verb or between braces decide to stop by the next
character alone.  So what they take is taken again whenever the same character
follows it, or the end of the text if that is where they stopped.
-/

/-- A run of characters that pass a test ends where the test fails. -/
theorem takeWhile_append_of_stops
    {test : Char → Bool}
    {run more : List Char}
    (passes : ∀ character ∈ run, test character = true)
    (stops : ∀ character ∈ more.head?, test character = false) :
    (run ++ more).takeWhile test = run ∧
      (run ++ more).dropWhile test = more := by
  rw [List.takeWhile_append_of_pos passes,
    List.dropWhile_append_of_pos passes]
  cases more with
  | nil =>
      simp
  | cons first rest =>
      have fails : test first = false := stops first rfl
      simp [fails]

/--
A scanner takes a beginning of each text and looks at no more than the one
character behind it.
-/
def LooksOneAhead (scan : List Char → α × List Char) : Prop :=
  ∀ text,
    ∃ taken,
      text = taken ++ (scan text).2 ∧
        ∀ more,
          more.head? = (scan text).2.head? →
          scan (taken ++ more) = ((scan text).1, more)

namespace LooksOneAhead

/-- Taking a run looks one character ahead. -/
theorem ofRun
    (test : Char → Bool)
    (make : List Char → α) :
    LooksOneAhead fun text =>
      (make (text.takeWhile test), text.dropWhile test) := by
  intro text
  refine ⟨text.takeWhile test,
    List.takeWhile_append_dropWhile.symm, ?_⟩
  intro more sameNext
  have passes :
      ∀ character ∈ text.takeWhile test, test character = true :=
    fun _ member => List.mem_takeWhile_imp member
  have stops : ∀ character ∈ more.head?, test character = false := by
    intro character isNext
    have stopped := List.head?_dropWhile_not test text
    rw [sameNext, Option.mem_def] at isNext
    simpa [isNext] using stopped
  obtain ⟨taken, left⟩ := takeWhile_append_of_stops passes stops
  simp only [taken, left]

/-- Two scanners one after the other look no further than the second. -/
theorem bind
    {scan : List Char → α × List Char}
    {next : α → List Char → β × List Char}
    (looks : LooksOneAhead scan)
    (looksNext : ∀ found, LooksOneAhead (next found)) :
    LooksOneAhead fun text => next (scan text).1 (scan text).2 := by
  intro text
  obtain ⟨taken, split, again⟩ := looks text
  obtain ⟨takenNext, splitNext, againNext⟩ :=
    looksNext (scan text).1 (scan text).2
  refine ⟨taken ++ takenNext, ?_, ?_⟩
  · rw [List.append_assoc, ← splitNext]
    exact split
  · intro more sameNext
    have sameFirst :
        (takenNext ++ more).head? = (scan text).2.head? := by
      rw [splitNext, List.head?_append, List.head?_append, sameNext]
    rw [List.append_assoc]
    simp only [again _ sameFirst, againNext more sameNext]

end LooksOneAhead

/-- A count is read off a run of digits, if there is one. -/
theorem Count.read?_eq
    (cap : UInt64)
    (text : List Char) :
    read? cap text =
      if text.takeWhile Char.isDigit = [] then
        none
      else
        some (ofDigits cap (text.takeWhile Char.isDigit),
          text.dropWhile Char.isDigit) := by
  unfold read?
  split
  · next noDigit =>
      rw [if_pos noDigit]
  · next someDigit =>
      rw [if_neg someDigit]

/-- Without a run at its start, a text is left as it is. -/
theorem dropWhile_of_takeWhile_nil
    {test : Char → Bool}
    {text : List Char}
    (nothing : text.takeWhile test = []) :
    text.dropWhile test = text := by
  have whole := List.takeWhile_append_dropWhile (p := test) (l := text)
  rwa [nothing] at whole

namespace Directive

/-- Flags are read one character ahead. -/
theorem looksOneAhead_readFlags (directive : Directive) :
    LooksOneAhead directive.readFlags :=
  .ofRun isFlagChar fun run =>
    run.foldl
      (fun (soFar : Directive) character =>
        soFar.addFlags (Flag.ofChar? character).toList)
      directive

/-- A count that may be missing is read one character ahead. -/
theorem looksOneAhead_readCount
    (make : UInt64 → Directive)
    (otherwise : Directive) :
    LooksOneAhead fun text =>
      match Count.read? countCap text with
      | some (count, rest) => (make count, rest)
      | none => (otherwise, text) := by
  have reads :=
    LooksOneAhead.ofRun Char.isDigit fun digits =>
      if digits = [] then
        otherwise
      else
        make (Count.ofDigits countCap digits)
  convert reads using 2 with text
  rw [Count.read?_eq]
  by_cases nothing : text.takeWhile Char.isDigit = []
  · simp only [if_pos nothing, dropWhile_of_takeWhile_nil nothing]
  · simp only [if_neg nothing]

/-- A width is read one character ahead. -/
theorem looksOneAhead_readWidth (directive : Directive) :
    LooksOneAhead directive.readWidth :=
  looksOneAhead_readCount
    (fun width => directive.withWidth width.toNat) directive

/-- A precision is read one character ahead. -/
theorem looksOneAhead_readPrecision (directive : Directive) :
    LooksOneAhead directive.readPrecision := by
  intro text
  by_cases point : ∃ afterPoint, text = '.' :: afterPoint
  · obtain ⟨afterPoint, rfl⟩ := point
    obtain ⟨taken, split, again⟩ :=
      looksOneAhead_readCount
        (fun precision => directive.withPrecision precision.toNat)
        (directive.withPrecision 0)
        afterPoint
    refine ⟨'.' :: taken, ?_, ?_⟩
    · exact congrArg (List.cons '.') split
    · intro more sameNext
      exact again more sameNext
  · have noPoint :
        ∀ {other}, other.head? = text.head? →
          directive.readPrecision other = (directive, other) := by
      intro other sameNext
      unfold readPrecision
      split
      · next afterPoint =>
          cases text with
          | nil =>
              cases sameNext
          | cons first rest =>
              cases sameNext
              exact absurd ⟨rest, rfl⟩ point
      · rfl
    rw [noPoint rfl]
    exact ⟨[], rfl, fun more sameNext => noPoint sameNext⟩

/-- Whatever may stand in front of a verb is read one character ahead. -/
theorem looksOneAhead_readModifiers (directive : Directive) :
    LooksOneAhead directive.readModifiers :=
  (looksOneAhead_readFlags directive).bind fun flagged =>
    (looksOneAhead_readWidth flagged).bind looksOneAhead_readPrecision

end Directive

end CaptureFormat
