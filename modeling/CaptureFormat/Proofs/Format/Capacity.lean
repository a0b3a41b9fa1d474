import CaptureFormat.Proofs.Destination.Bounded
import CaptureFormat.Proofs.Format.Basic

namespace CaptureFormat

/-!
# Formatting to a writer with bounded room

Formatting into a text never fails and yields all chunks of the template.
Formatting to a bounded writer leaves a beginning of that text: as many bytes
as fit if the writer takes parts, and as many whole chunks as fit if it does
not.  The two ways of formatting hand back the same arguments and tell an
observer the same.
-/

/-- The longest run of texts from the front whose bytes are at most `limit`. -/
structure LongestRun
    (limit : Nat)
    (texts run : List String) : Prop where
  leading : run <+: texts
  fits : (bytesOf run).length ≤ limit
  longest :
    ∀ {other},
      other <+: texts →
      (bytesOf other).length ≤ limit →
      other <+: run

namespace LongestRun

/-- If all texts fit, the longest run holds them all. -/
theorem of_fits
    {limit : Nat}
    {texts : List String}
    (fits : (bytesOf texts).length ≤ limit) :
    LongestRun limit texts texts where
  leading := List.prefix_rfl
  fits := fits
  longest := fun leading _ => leading

/-- A run is the longest if it fits and the text behind it does not fit with it. -/
theorem of_next
    {limit : Nat}
    {run rest : List String}
    {text : String}
    (fits : (bytesOf run).length ≤ limit)
    (tooMany : limit < (bytesOf (run ++ [text])).length) :
    LongestRun limit (run ++ text :: rest) run where
  leading := List.prefix_append run (text :: rest)
  fits := fits
  longest := by
    intro other leading otherFits
    rcases List.prefix_or_prefix_of_prefix leading
        (List.prefix_append run (text :: rest)) with
      shorter | ⟨later, rfl⟩
    · exact shorter
    · cases later with
      | nil =>
          simp
      | cons first others =>
          have sameFirst : first = text :=
            (List.cons_prefix_cons.mp
              ((List.prefix_append_right_inj run).mp leading)).1
          subst first
          have longer :
              bytesOf (run ++ text :: others) =
                bytesOf (run ++ [text]) ++ bytesOf others := by
            rw [← bytesOf_append]
            simp
          rw [longer, List.length_append] at otherFits
          omega

end LongestRun

namespace BoundedWriter

/-- A writer that holds nothing yet. -/
def fresh (limit : Option Nat) (takesParts : Bool) : BoundedWriter :=
  { limit, takesParts }

private theorem hasRoomFor_fresh
    (limit : Nat)
    (takesParts : Bool)
    (size : Nat) :
    (fresh (some limit) takesParts).hasRoomFor size = decide (size ≤ limit) :=
  rfl

private theorem keptPart_keep_fresh
    (limit : Nat)
    (takesParts : Bool)
    (before bytes : List UInt8) :
    ((fresh (some limit) takesParts).keep before).keptPart bytes =
      if takesParts then bytes.take (limit - before.length) else [] :=
  rfl

/--
Texts that are written to an empty writer one after the other are either all
kept, or only those in front of one that does not fit, with as much of that
one as the writer takes.
-/
private theorem writeEach_texts_cases
    (limit : Nat)
    (takesParts : Bool)
    (texts : List String) :
    let after :=
      (Output.ofDestination
          (WriterDestination.mk (fresh (some limit) takesParts))).writeEach
        (texts.map Write.text)
    ((bytesOf texts).length ≤ limit ∧
        after.destination.writer.content = bytesOf texts ∧
        after.failure = none) ∨
      ∃ run text rest error,
        texts = run ++ text :: rest ∧
          (bytesOf run).length ≤ limit ∧
          limit < (bytesOf (run ++ [text])).length ∧
          after.destination.writer.content =
            bytesOf run ++
              (if takesParts then
                (bytesOf [text]).take (limit - (bytesOf run).length)
              else
                []) ∧
          after.failure = some error ∧
          error.kind = .tookNothing := by
  intro after
  rcases accepts_or_refuses
      (WriterDestination.mk (fresh (some limit) takesParts))
      (texts.map Write.text) with
    ⟨final, accepts⟩ |
    ⟨accepted, write, rest, middle, final, error, shape, accepts, refuses⟩
  · have reached := Output.writeEach_of_accepts accepts 0
    obtain ⟨fits, rfl⟩ := accepts_iff.mp accepts
    rw [flatMap_payload_text] at fits reached
    rw [hasRoomFor_fresh, decide_eq_true_eq] at fits
    refine Or.inl ⟨fits, ?_, ?_⟩
    · exact congrArg (·.destination.writer.content) reached
    · exact congrArg (·.failure) reached
  · have reached := (Delivers.refused 0 shape accepts refuses).writeEach_eq
    obtain ⟨run, behind, rfl, rfl, behindShape⟩ :=
      List.map_eq_append_iff.mp shape
    obtain ⟨text, others, rfl, rfl, rfl⟩ :=
      List.map_eq_cons_iff.mp behindShape
    have payload : (Write.text text).payload = bytesOf [text] := by
      simp [Write.payload, bytesOf]
    obtain ⟨fits, rfl⟩ := accepts_iff.mp accepts
    obtain ⟨tooMany, rfl, kind⟩ := of_send_refused refuses
    rw [hasRoomFor_keep fits, flatMap_payload_text, payload,
      hasRoomFor_fresh, decide_eq_false_iff_not] at tooMany
    rw [flatMap_payload_text, payload, keptPart_keep_fresh] at reached
    rw [flatMap_payload_text, hasRoomFor_fresh, decide_eq_true_eq] at fits
    refine Or.inr ⟨run, text, others, error, rfl, fits, ?_, ?_, ?_, kind⟩
    · rw [bytesOf_append, List.length_append]
      exact Nat.lt_of_not_le tooMany
    · exact congrArg (·.destination.writer.content) reached
    · exact congrArg (·.failure) reached

/-- A writer that takes parts keeps as many bytes as it can hold. -/
theorem content_writeEach_parts
    (limit : Nat)
    (texts : List String) :
    ((Output.ofDestination
          (WriterDestination.mk (fresh (some limit) true))).writeEach
        (texts.map Write.text)).destination.writer.content =
      (bytesOf texts).take limit := by
  rcases writeEach_texts_cases limit true texts with
    ⟨fits, content, _⟩ |
    ⟨run, text, rest, error, shape, fits, tooMany, content, _, _⟩
  · rw [content, List.take_of_length_le fits]
  · subst texts
    have textTooLong : limit - (bytesOf run).length ≤ (bytesOf [text]).length := by
      rw [bytesOf_append, List.length_append] at tooMany
      omega
    rw [content, bytesOf_append_cons, bytesOf_append, List.append_assoc,
      List.take_append, List.take_of_length_le fits,
      List.take_append_of_le_length textTooLong]
    rfl

/-- A writer that takes no parts keeps as many whole texts as it can hold. -/
theorem content_writeEach_whole
    (limit : Nat)
    (texts : List String) :
    ∃ run,
      LongestRun limit texts run ∧
        ((Output.ofDestination
              (WriterDestination.mk (fresh (some limit) false))).writeEach
            (texts.map Write.text)).destination.writer.content =
          bytesOf run := by
  rcases writeEach_texts_cases limit false texts with
    ⟨fits, content, _⟩ |
    ⟨run, text, rest, error, rfl, fits, tooMany, content, _, _⟩
  · exact ⟨texts, .of_fits fits, content⟩
  · refine ⟨run, .of_next fits tooMany, ?_⟩
    simpa using content

/-- A writer fails exactly if it cannot hold all texts, and then because it took nothing. -/
theorem failure_writeEach_texts
    (limit : Nat)
    (takesParts : Bool)
    (texts : List String) :
    let after :=
      (Output.ofDestination
          (WriterDestination.mk (fresh (some limit) takesParts))).writeEach
        (texts.map Write.text)
    if (bytesOf texts).length ≤ limit then
      after.failure = none
    else
      ∃ error : WriteError,
        error.kind = .tookNothing ∧ after.failure = some error := by
  rcases writeEach_texts_cases limit takesParts texts with
    ⟨fits, _, succeeded⟩ |
    ⟨run, text, rest, error, rfl, _, tooMany, _, failed, kind⟩
  · simpa only [if_pos fits] using succeeded
  · have overfull : ¬(bytesOf (run ++ text :: rest)).length ≤ limit := by
      rw [bytesOf_append_cons, List.length_append]
      omega
    simp only [if_neg overfull]
    exact ⟨error, kind, failed⟩

/-- A writer without a limit keeps everything and never fails. -/
theorem writeEach_texts_of_unlimited
    (takesParts : Bool)
    (texts : List String) :
    let after :=
      (Output.ofDestination
          (WriterDestination.mk (fresh none takesParts))).writeEach
        (texts.map Write.text)
    after.destination.writer.content = bytesOf texts ∧
      after.failure = none := by
  have accepts :
      Accepts
        (WriterDestination.mk (fresh none takesParts))
        (texts.map Write.text) _ :=
    accepts_iff.mpr ⟨rfl, rfl⟩
  have reached := Output.writeEach_of_accepts accepts 0
  rw [flatMap_payload_text] at reached
  exact
    ⟨congrArg (·.destination.writer.content) reached,
      congrArg (·.failure) reached⟩

end BoundedWriter

/--
Formatting to a bounded writer against formatting into a text.

A text takes every chunk.  A writer that holds all bytes of the text gets them
and does not fail.  Of a longer text, a writer that takes parts keeps as many
bytes as it can hold, any other the longest run of whole chunks that it can
hold, and both fail because they took nothing more.  In every case the same
arguments are handed back and an observer is told the same.
-/
theorem formatTo_bounded
    (observer : Observer κ Value)
    (observed : κ)
    (template : String)
    (values : List Value)
    (limit : Option Nat)
    (takesParts : Bool) :
    let chunks := (Formatter.standard observer).chunks template values
    let formatted := format observer observed template values
    let bytes := Utf8.encode formatted.text.toList
    let written :=
      formatTo (BoundedWriter.fresh limit takesParts)
        observer observed template values
    formatted.text = String.join chunks ∧
      ((Formatter.standard observer).run template values observed
          (Output.ofDestination "")).output.failure = none ∧
      written.observed = formatted.observed ∧
      match limit with
      | none =>
          written.writer.content = bytes ∧
            written.result = .ok formatted.rest
      | some most =>
          (if takesParts then
              written.writer.content = bytes.take most
            else
              ∃ run,
                LongestRun most chunks run ∧
                  written.writer.content = bytesOf run) ∧
            if bytes.length ≤ most then
              written.result = .ok formatted.rest
            else
              ∃ error : WriteError,
                error.kind = .tookNothing ∧
                  written.result = .error { rest := formatted.rest, error } := by
  intro chunks formatted bytes written
  have text : formatted.text = String.join chunks := by
    simp only [formatted, chunks, format_eq]
  have succeeded := output_run_text observer observed template values
  have textBytes : bytes = bytesOf chunks :=
    congrArg (fun text => Utf8.encode text.toList) text
  have outcome :=
    formatTo_eq observer observed template values
      (BoundedWriter.fresh limit takesParts)
  refine
    ⟨text, congrArg (·.failure) succeeded,
      congrArg (·.observed) outcome, ?_⟩
  have content := congrArg (·.writer.content) outcome
  have result := congrArg (·.result) outcome
  simp only at content result
  cases limit with
  | none =>
      obtain ⟨kept, unfailing⟩ :=
        BoundedWriter.writeEach_texts_of_unlimited takesParts chunks
      rw [unfailing] at result
      exact ⟨content.trans (kept.trans textBytes.symm), result⟩
  | some most =>
      have failure :=
        BoundedWriter.failure_writeEach_texts most takesParts chunks
      rw [textBytes]
      constructor
      · cases takesParts with
        | true =>
            exact content.trans
              (BoundedWriter.content_writeEach_parts most chunks)
        | false =>
            obtain ⟨run, longest, kept⟩ :=
              BoundedWriter.content_writeEach_whole most chunks
            exact ⟨run, longest, content.trans kept⟩
      · by_cases fits : (bytesOf chunks).length ≤ most
        · simp only [if_pos fits] at failure ⊢
          rw [failure] at result
          exact result
        · simp only [if_neg fits] at failure ⊢
          obtain ⟨error, kind, failed⟩ := failure
          rw [failed] at result
          exact ⟨error, kind, result⟩

end CaptureFormat
