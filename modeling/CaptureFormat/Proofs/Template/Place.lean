import CaptureFormat.Proofs.Template.BytePlace
import CaptureFormat.Template.Place

namespace CaptureFormat

/-!
# Places between characters

A place keeps the characters on either side.  `Place.inBytes` is its offset, and
every move of the place is the same move of the offset, so all that is shown
here of a place is also true of an offset between characters.
-/

namespace Place

/-- The digits behind a place are passed and counted. -/
theorem passNumber_of_run
    (passed : List Char)
    (cap : UInt64)
    {digits rest : List Char}
    (isRun : MaximalRun (fun character => character.isDigit = true) digits rest) :
    passNumber ⟨passed, digits ++ rest⟩ cap =
      (if digits = [] then none else some (Count.ofDigits cap digits),
        ⟨digits.reverse ++ passed, rest⟩) := by
  obtain ⟨taken, left⟩ := isRun.takeWhile_dropWhile
  rw [passNumber, Count.read?_eq, taken, left]
  by_cases nothing : digits = []
  · simp [nothing]
  · simp [nothing, passWhile, taken, left]

/-- All that is not searched for is passed. -/
theorem passTo_of_run
    (passed : List Char)
    {target : Char}
    {run rest : List Char}
    (isRun : MaximalRun (fun character => (character != target) = true) run rest) :
    passTo ⟨passed, run ++ rest⟩ target =
      (!rest.isEmpty, ⟨run.reverse ++ passed, rest⟩) := by
  obtain ⟨taken, left⟩ := isRun.takeWhile_dropWhile
  simp only [passTo, passWhile, taken, left, atEnd]

/-- The offset of a place, in the bytes of its text. -/
def inBytes (place : Place) : BytePlace :=
  .between place.passed.reverse place.rest

@[simp] theorem inBytes_start (text : String) :
    (start text).inBytes = { text } := by
  simp [inBytes, start, BytePlace.between]

@[simp] theorem offset_inBytes (place : Place) :
    place.inBytes.offset = place.offset :=
  Utf8.size_reverse place.passed

@[simp] theorem next?_inBytes (place : Place) :
    place.inBytes.next? = some place.next? :=
  BytePlace.next?_between _ _

@[simp] theorem second?_inBytes (place : Place) :
    place.inBytes.second? = some place.second? :=
  BytePlace.second?_between _ _

@[simp] theorem remainder?_inBytes (place : Place) :
    place.inBytes.remainder? = some place.remainder :=
  BytePlace.remainder?_between _ _

@[simp] theorem atEnd_inBytes (place : Place) :
    place.inBytes.atEnd = place.atEnd :=
  BytePlace.atEnd_between _ _

theorem inBytes_passWhile
    (place : Place)
    (test : Char → Bool) :
    (place.passWhile test).inBytes =
      .between
        (place.passed.reverse ++ place.rest.takeWhile test)
        (place.rest.dropWhile test) := by
  simp [passWhile, inBytes]

/-- The same character is passed by an offset. -/
theorem pass?_inBytes (place : Place) :
    place.inBytes.pass? = some place.pass.inBytes := by
  rcases place with ⟨passed, rest⟩
  cases rest with
  | nil =>
      exact BytePlace.pass?_nil passed.reverse
  | cons next rest =>
      simp [inBytes, pass, BytePlace.pass?_cons]

/-- The same character is expected by an offset. -/
theorem passIf?_inBytes
    (place : Place)
    (expected : Char) :
    place.inBytes.passIf? expected =
      some ((place.passIf expected).map id inBytes) := by
  rcases place with ⟨passed, rest⟩
  by_cases isNext : rest.head? = some expected
  · obtain ⟨others, rfl⟩ := List.head?_eq_some_iff.mp isNext
    simp [inBytes, passIf, next?, pass, BytePlace.passIf?_head]
  · simp [inBytes, passIf, next?, isNext, BytePlace.passIf?_of_ne]

/-- The same number is passed by an offset. -/
theorem passNumber?_inBytes
    (place : Place)
    (cap : UInt64) :
    place.inBytes.passNumber? cap =
      some ((place.passNumber cap).map id inBytes) := by
  rw [inBytes, BytePlace.passNumber?_between, passNumber, Count.read?_eq]
  by_cases nothing : place.rest.takeWhile Char.isDigit = []
  · simp [nothing, dropWhile_of_takeWhile_nil nothing, inBytes]
  · simp [nothing, inBytes_passWhile]

/-- The same ASCII character is searched by an offset. -/
theorem passTo?_inBytes
    (place : Place)
    {target : UInt8}
    (ascii : target.toNat < 0x80) :
    place.inBytes.passTo? target =
      some ((place.passTo (Char.ofNat target.toNat)).map id inBytes) := by
  rw [inBytes, BytePlace.passTo?_between _ _ ascii]
  simp [passTo, inBytes, atEnd, passWhile]

/-- A number of bytes can be dropped if it is the size of whole characters. -/
theorem dropBytes?_eq_some_iff
    {count : Nat}
    {characters rest : List Char} :
    dropBytes? count characters = some rest ↔
      ∃ front, front ++ rest = characters ∧ Utf8.size front = count := by
  constructor
  · intro dropped
    induction count, characters using dropBytes?.induct with
    | case1 characters =>
        rw [dropBytes?] at dropped
        cases dropped
        exact ⟨[], rfl, rfl⟩
    | case2 count =>
        cases dropped
    | case3 count first others fits inductionHypothesis =>
        rw [dropBytes?, if_pos fits] at dropped
        obtain ⟨front, rfl, counted⟩ := inductionHypothesis dropped
        refine ⟨first :: front, rfl, ?_⟩
        rw [Utf8.size_cons, counted, Nat.add_sub_cancel' fits]
    | case4 count first others tooLong =>
        rw [dropBytes?, if_neg tooLong] at dropped
        cases dropped
  · rintro ⟨front, rfl, rfl⟩
    induction front with
    | nil =>
        simp [dropBytes?]
    | cons first others inductionHypothesis =>
        obtain ⟨count, counted⟩ :=
          Nat.exists_eq_add_of_lt first.utf8Size_pos
        rw [Nat.zero_add] at counted
        have size :
            Utf8.size (first :: others) = count + Utf8.size others + 1 := by
          rw [Utf8.size_cons, counted, Nat.add_right_comm]
        have left :
            count + Utf8.size others + 1 - first.utf8Size =
              Utf8.size others := by
          rw [← size, Utf8.size_cons, Nat.add_sub_cancel_left]
        rw [size, List.cons_append, dropBytes?, if_pos (by omega), left]
        exact inductionHypothesis

/-- The same text is cut out between an offset and the place, if it can be cut there at all. -/
theorem textSince?_inBytes
    (place : Place)
    (start : Nat) :
    place.inBytes.textSince? start = place.textSince? start := by
  by_cases earlier :
      ∃ front middle,
        front ++ middle = place.passed.reverse ∧ Utf8.size front = start
  · obtain ⟨front, middle, passed, rfl⟩ := earlier
    have dropped :
        dropBytes? (Utf8.size front) place.passed.reverse = some middle :=
      dropBytes?_eq_some_iff.mpr ⟨front, passed, rfl⟩
    rw [textSince?, dropped, inBytes, ← passed, BytePlace.textSince?_between]
    rfl
  · have notDropped : dropBytes? start place.passed.reverse = none := by
      refine Option.eq_none_iff_forall_ne_some.mpr fun middle dropped => ?_
      obtain ⟨front, passed, size⟩ := dropBytes?_eq_some_iff.mp dropped
      exact earlier ⟨front, middle, passed, size⟩
    have notCut : ¬(start ≤ place.inBytes.offset ∧
        Utf8.isBoundary place.inBytes.bytes start = true ∧
        Utf8.isBoundary place.inBytes.bytes place.inBytes.offset = true) := by
      rintro ⟨ordered, boundary, _⟩
      rw [inBytes, BytePlace.bytes_between, ← Utf8.encode_append] at boundary
      obtain ⟨front, back, sameText, rfl⟩ :=
        Utf8.isBoundary_encode_iff.mp boundary
      obtain ⟨middle, passed⟩ :=
        Utf8.exists_append_of_size_le sameText ordered
      exact earlier ⟨front, middle, passed, rfl⟩
    rw [textSince?, notDropped, BytePlace.textSince?, BytePlace.slice?,
      BytePlace.cut?, if_neg notCut]
    rfl

/--
A number is passed exactly if a digit is next.  It is the longest run of digits,
and it counts as much as the run is worth or as much as the cap, if that is
less, however long the run is.
-/
theorem passNumber_value
    (place : Place)
    (cap : UInt64) :
    (place.passNumber cap = (none, place) ↔
        ∀ next ∈ place.next?, next.isDigit = false) ∧
      ((place.passNumber cap).1 = none ↔
        ∀ next ∈ place.next?, next.isDigit = false) ∧
      (∃ digits rest,
        place.rest = digits ++ rest ∧
          MaximalRun (fun character => character.isDigit = true) digits rest ∧
          (place.passNumber cap).2 = ⟨digits.reverse ++ place.passed, rest⟩ ∧
          (place.passNumber cap).1.map UInt64.toNat =
            if digits = [] then
              none
            else
              some (min cap.toNat (Nat.ofDigitChars 10 digits 0))) ∧
      place.inBytes.passNumber? cap =
        some ((place.passNumber cap).map id inBytes) := by
  rcases place with ⟨passed, text⟩
  obtain ⟨digits, rest, rfl, isRun⟩ := MaximalRun.exists_split Char.isDigit text
  have number := passNumber_of_run passed cap isRun
  have noDigit :
      digits = [] ↔
        ∀ next ∈ (digits ++ rest).head?, next.isDigit = false := by
    simpa only [Bool.not_eq_true] using isRun.eq_nil_iff
  refine ⟨?_, ?_, ⟨digits, rest, rfl, isRun, ?_, ?_⟩, passNumber?_inBytes _ cap⟩
  · rw [next?, ← noDigit, number]
    constructor
    · intro unmoved
      by_contra someDigit
      rw [if_neg someDigit] at unmoved
      cases unmoved
    · rintro rfl
      rfl
  · rw [next?, ← noDigit, number]
    by_cases nothing : digits = [] <;> simp [nothing]
  · rw [number]
  · rw [number]
    by_cases nothing : digits = []
    · rw [if_pos nothing, if_pos nothing]
      rfl
    · rw [if_neg nothing, if_neg nothing, Option.map_some,
        Count.toNat_ofDigits, Nat.min_comm]

example :
    ((start "184467440737095516170v").passNumber 1000).1 = some 1000 ∧
      ((start "184467440737095516170v").passNumber 1000).2.rest = ['v'] := by
  decide +kernel

end Place

end CaptureFormat
