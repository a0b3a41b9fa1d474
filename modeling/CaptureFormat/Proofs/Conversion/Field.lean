import CaptureFormat.Conversion.Field
import CaptureFormat.Proofs.Template.Lookahead
import Mathlib.Data.List.DropRight

namespace CaptureFormat

/-!
# Padded fields

Padding adds as many characters as a text is short of the width, on one side.
Where they are spaces, trimming takes them away again, along with a space that
stands in the place of a sign.
-/

/-- A text without the spaces on either side of it. -/
def trimSpaces (text : List Char) : List Char :=
  (text.dropWhile (· == ' ')).rdropWhile (· == ' ')

theorem dropWhile_spaces_append
    (count : Nat)
    {text : List Char}
    (first : text.head? ≠ some ' ') :
    (List.replicate count ' ' ++ text).dropWhile (· == ' ') = text := by
  have spaces :
      ∀ character ∈ List.replicate count ' ',
        (character == ' ') = true := by
    intro character member
    rw [List.eq_of_mem_replicate member]
    rfl
  have stops : ∀ character ∈ text.head?, (character == ' ') = false := by
    intro character isFirst
    rw [Option.mem_def.mp isFirst] at first
    simpa using first
  exact (takeWhile_append_of_stops spaces stops).2

/-- Trimming takes spaces away up to the first and the last other character. -/
theorem trimSpaces_surrounded
    {text : List Char}
    (nonempty : text ≠ [])
    (first : text.head? ≠ some ' ')
    (last : text.getLast? ≠ some ' ')
    (left right : Nat) :
    trimSpaces
        (List.replicate left ' ' ++ text ++ List.replicate right ' ') =
      text := by
  have stillFirst :
      (text ++ List.replicate right ' ').head? ≠ some ' ' := by
    obtain ⟨head, rest, rfl⟩ := List.exists_cons_of_ne_nil nonempty
    exact first
  have stillLast : text.reverse.head? ≠ some ' ' := by
    rwa [List.head?_reverse]
  rw [trimSpaces, List.append_assoc,
    dropWhile_spaces_append left stillFirst, List.rdropWhile,
    List.reverse_append, List.reverse_replicate,
    dropWhile_spaces_append right stillLast, List.reverse_reverse]

namespace Directive

variable (directive : Directive)

/-- The sign of a number that is left once spaces are trimmed. -/
def shownSign (negative : Bool) : List Char :=
  if negative then ['-'] else if directive.flags.plus then ['+'] else []

/-- The width that a text has to be filled up by. -/
def gap (text : List Char) : Nat :=
  directive.width.getD 0 - text.length

/-- Padding fills the gap on the left, or with spaces on the right. -/
theorem padWith_eq (fill : Char) (text : List Char) :
    directive.padWith fill text =
      if directive.flags.minus then
        text ++ List.replicate (directive.gap text) ' '
      else
        List.replicate (directive.gap text) fill ++ text := by
  unfold padWith gap
  cases directive.width with
  | none =>
      simp
  | some width =>
      rfl

/-- A text in a field is as long as the longer of the two. -/
theorem length_padWith (fill : Char) (text : List Char) :
    (directive.padWith fill text).length =
      max (directive.width.getD 0) text.length := by
  rw [padWith_eq, gap]
  split <;> simp only [List.length_append, List.length_replicate] <;> omega

theorem width_le_length_padWith (fill : Char) (text : List Char) :
    directive.width.getD 0 ≤ (directive.padWith fill text).length := by
  rw [length_padWith]
  exact Nat.le_max_left _ _

theorem padWith_space_surrounds (text : List Char) :
    ∃ left right,
      directive.padWith ' ' text =
        List.replicate left ' ' ++ text ++ List.replicate right ' ' := by
  rw [padWith_eq]
  split
  · exact ⟨0, directive.gap text, rfl⟩
  · exact ⟨directive.gap text, 0, (List.append_nil _).symm⟩

/-- Trimming takes a text out of its field. -/
theorem trimSpaces_padWith
    {text : List Char}
    (nonempty : text ≠ [])
    (first : text.head? ≠ some ' ')
    (last : text.getLast? ≠ some ' ') :
    trimSpaces (directive.padWith ' ' text) = text := by
  obtain ⟨left, right, padded⟩ := directive.padWith_space_surrounds text
  rw [padded, trimSpaces_surrounded nonempty first last]

/-- A sign that does not show is a space or nothing. -/
theorem exists_sign_eq (negative : Bool) :
    ∃ spaces,
      directive.sign negative =
        List.replicate spaces ' ' ++ directive.shownSign negative := by
  unfold sign shownSign
  split
  · exact ⟨0, rfl⟩
  · split
    · exact ⟨0, rfl⟩
    · split
      · exact ⟨1, rfl⟩
      · exact ⟨0, rfl⟩

theorem space_notMem_shownSign (negative : Bool) :
    ' ' ∉ directive.shownSign negative := by
  unfold shownSign
  split
  · decide
  · split <;> decide

theorem length_sign (negative : Bool) :
    (directive.sign negative).length =
      if negative = true ∨ directive.flags.plus = true ∨
          directive.flags.space = true then
        1
      else
        0 := by
  unfold sign
  cases negative <;> cases directive.flags.plus <;>
    cases directive.flags.space <;> rfl

/-- A number in its field, once spaces are trimmed: its shown sign and its body. -/
theorem trimSpaces_padWith_sign
    {body : List Char}
    (nonempty : body ≠ [])
    (first : body.head? ≠ some ' ')
    (last : body.getLast? ≠ some ' ')
    (negative : Bool) :
    trimSpaces
        (directive.padWith ' ' (directive.sign negative ++ body)) =
      directive.shownSign negative ++ body := by
  obtain ⟨left, right, padded⟩ :=
    directive.padWith_space_surrounds (directive.sign negative ++ body)
  obtain ⟨spaces, sign⟩ := directive.exists_sign_eq negative
  have shape :
      directive.padWith ' ' (directive.sign negative ++ body) =
        List.replicate (left + spaces) ' ' ++
          (directive.shownSign negative ++ body) ++
          List.replicate right ' ' := by
    rw [padded, sign, List.replicate_add]
    simp only [List.append_assoc]
  rw [shape]
  apply trimSpaces_surrounded
  · exact List.append_ne_nil_of_right_ne_nil _ nonempty
  · cases signShape : directive.shownSign negative with
    | nil =>
        exact first
    | cons mark rest =>
        have notSpace := directive.space_notMem_shownSign negative
        rw [signShape, List.mem_cons, not_or] at notSpace
        simpa using Ne.symm notSpace.1
  · rwa [List.getLast?_append_of_ne_nil _ nonempty]

end Directive

end CaptureFormat
