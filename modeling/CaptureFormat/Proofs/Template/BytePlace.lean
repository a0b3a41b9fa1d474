import CaptureFormat.Proofs.Template.Modifiers
import CaptureFormat.Proofs.Text.Encoding
import CaptureFormat.Template.BytePlace

namespace CaptureFormat

/-!
# Offsets that follow characters

An offset is good for cutting if whole characters stand in front of it.  Every
move from such an offset leads to another one, and past the same characters that
a place between characters is moved past.  What makes a search for a byte and a
run of digit bytes safe is that an ASCII byte stands for a character wherever it
occurs in a text.

`BytePlace.between` is the offset between two lists of characters.  Each move
has one equation from there.
-/

namespace Utf8

theorem isContinuation_iff {byte : UInt8} :
    isContinuation byte = true ↔ IsContinuation byte := by
  simp [isContinuation, IsContinuation, UInt8.le_iff_toNat_le]

@[simp] theorem size_reverse (characters : List Char) :
    size characters.reverse = size characters := by
  induction characters with
  | nil =>
      rfl
  | cons first rest inductionHypothesis =>
      simp [inductionHypothesis, Nat.add_comm]

theorem size_eq_zero_iff {characters : List Char} :
    size characters = 0 ↔ characters = [] := by
  cases characters with
  | nil =>
      simp
  | cons first rest =>
      simp [Nat.ne_of_gt first.utf8Size_pos]

/-- Of two beginnings of a text, the one with fewer bytes is a beginning of the other. -/
theorem exists_append_of_size_le
    {front back otherFront otherBack : List Char}
    (sameText : front ++ back = otherFront ++ otherBack)
    (fewer : size front ≤ size otherFront) :
    ∃ between, front ++ between = otherFront := by
  rcases List.append_eq_append_iff.mp sameText with
    ⟨between, longer, _⟩ | ⟨between, shorter, _⟩
  · exact ⟨between, longer.symm⟩
  · rw [shorter, size_append] at fewer
    have nothing : between = [] := size_eq_zero_iff.mp (by omega)
    rw [nothing, List.append_nil] at shorter
    exact ⟨[], by rw [shorter, List.append_nil]⟩

/-- Every text can be cut in front of all of it. -/
theorem isBoundary_encode_zero (characters : List Char) :
    isBoundary (encode characters) 0 = true := by
  cases characters with
  | nil =>
      rfl
  | cons letter rest =>
      obtain ⟨first, others, bytes, spells⟩ := exists_utf8EncodeChar_eq letter
      have starts := mt isContinuation_iff.mp spells.first_not_continuation
      rw [encode_cons, bytes]
      simpa [isBoundary] using starts

/-- No text can be cut inside its first character. -/
theorem isBoundary_encode_inside
    {letter : Char}
    {rest : List Char}
    {offset : Nat}
    (positive : 0 < offset)
    (inside : offset < letter.utf8Size) :
    isBoundary (encode (letter :: rest)) offset = false := by
  obtain ⟨first, others, bytes, spells⟩ := exists_utf8EncodeChar_eq letter
  have bounded := inside
  rw [← String.length_utf8EncodeChar, bytes] at bounded
  obtain ⟨index, rfl⟩ := Nat.exists_eq_add_of_lt positive
  rw [Nat.zero_add, List.length_cons, Nat.add_lt_add_iff_right] at bounded
  have continues := spells.rest_continuation _ (List.getElem_mem bounded)
  have found :
      (encode (letter :: rest))[0 + index + 1]? = some others[index] := by
    rw [encode_cons, bytes, Nat.zero_add, List.cons_append,
      List.getElem?_cons_succ, List.getElem?_append_left bounded,
      List.getElem?_eq_getElem bounded]
  rw [isBoundary, found]
  simp [isContinuation_iff.mpr continues]

/-- Behind some bytes, a text can be cut where the rest of it can be cut. -/
theorem isBoundary_append
    (front back : List UInt8)
    (offset : Nat) :
    isBoundary (front ++ back) (front.length + offset) =
      isBoundary back offset := by
  unfold isBoundary
  rw [List.getElem?_append_right (Nat.le_add_right _ _),
    Nat.add_sub_cancel_left, List.length_append]
  split
  · rfl
  · simp

/-- A text can be cut at an offset exactly if whole characters stand in front of it. -/
theorem isBoundary_encode_iff
    {characters : List Char}
    {offset : Nat} :
    isBoundary (encode characters) offset = true ↔
      ∃ front back, front ++ back = characters ∧ size front = offset := by
  constructor
  · intro boundary
    induction characters generalizing offset with
    | nil =>
        have atStart : offset = 0 := by
          simpa [isBoundary] using boundary
        exact ⟨[], [], rfl, atStart.symm⟩
    | cons letter rest inductionHypothesis =>
        rcases Nat.eq_zero_or_pos offset with rfl | positive
        · exact ⟨[], letter :: rest, rfl, rfl⟩
        rcases Nat.lt_or_ge offset letter.utf8Size with inside | behind
        · rw [isBoundary_encode_inside positive inside] at boundary
          cases boundary
        · obtain ⟨further, rfl⟩ := Nat.exists_eq_add_of_le behind
          rw [encode_cons, ← String.length_utf8EncodeChar,
            isBoundary_append] at boundary
          obtain ⟨front, back, rfl, rfl⟩ := inductionHypothesis boundary
          exact ⟨letter :: front, back, rfl, rfl⟩
  · rintro ⟨front, back, rfl, rfl⟩
    rw [encode_append, ← length_encode, ← Nat.add_zero (encode front).length,
      isBoundary_append]
    exact isBoundary_encode_zero back

/-- An ASCII byte stands in an encoded text exactly where its character stands in the text. -/
theorem mem_encode_iff
    {characters : List Char}
    {byte : UInt8}
    (ascii : byte.toNat < 0x80) :
    byte ∈ encode characters ↔ Char.ofNat byte.toNat ∈ characters := by
  rw [encode, List.mem_flatMap]
  simp [mem_utf8EncodeChar_iff ascii]

/-- An ASCII byte is first found where its character is. -/
theorem idxOf?_encode
    {characters : List Char}
    {byte : UInt8}
    (ascii : byte.toNat < 0x80) :
    (encode characters).idxOf? byte =
      if characters.dropWhile (· != Char.ofNat byte.toNat) = [] then
        none
      else
        some (size (characters.takeWhile (· != Char.ofNat byte.toNat))) := by
  obtain ⟨run, rest, rfl, isRun⟩ :=
    MaximalRun.exists_split (· != Char.ofNat byte.toNat) characters
  obtain ⟨taken, left⟩ := isRun.takeWhile_dropWhile
  have absent : byte ∉ encode run := by
    rw [mem_encode_iff ascii]
    intro member
    simpa using isRun.passes _ member
  rw [taken, left]
  cases rest with
  | nil =>
      rw [if_pos rfl, List.idxOf?_eq_none_iff, List.append_nil]
      exact absent
  | cons next others =>
      have found : next = Char.ofNat byte.toNat := by
        simpa using isRun.stops next rfl
      rw [if_neg (List.cons_ne_nil next others), encode_append, encode_cons,
        found, utf8EncodeChar_one ascii, List.idxOf?, List.findIdx?_append,
        ← List.idxOf?, List.idxOf?_eq_none_iff.mpr absent, length_encode]
      simp [List.idxOf?_cons]

end Utf8

namespace BytePlace

theorem isDigit_iff {byte : UInt8} :
    isDigit byte = true ↔ 48 ≤ byte.toNat ∧ byte.toNat ≤ 57 := by
  simp [isDigit, UInt8.le_iff_toNat_le]

theorem isDigit_char_iff {character : Char} :
    character.isDigit = true ↔
      48 ≤ character.toNat ∧ character.toNat ≤ 57 := by
  simp only [Char.isDigit, Bool.and_eq_true, decide_eq_true_eq, ge_iff_le,
    UInt32.le_iff_toNat_le]
  rfl

/-- A digit is written as one byte, which is a digit of the same value. -/
theorem exists_digit_byte
    {digit : Char}
    (isNumeral : digit.isDigit = true) :
    ∃ byte : UInt8,
      String.utf8EncodeChar digit = [byte] ∧
        isDigit byte = true ∧
        byte.toNat = digit.toNat := by
  have bounds := isDigit_char_iff.mp isNumeral
  have value : (UInt8.ofNat digit.toNat).toNat = digit.toNat :=
    UInt8.toNat_ofNat_of_lt' (lt_of_le_of_lt bounds.2 (by decide))
  have spelled :
      String.utf8EncodeChar (Char.ofNat (UInt8.ofNat digit.toNat).toNat) =
        [UInt8.ofNat digit.toNat] :=
    Utf8.utf8EncodeChar_one (by rw [value]; omega)
  rw [value, Char.ofNat_toNat] at spelled
  refine ⟨UInt8.ofNat digit.toNat, spelled, ?_, value⟩
  rw [isDigit_iff, value]
  exact bounds

/-- No other character has a byte that is a digit. -/
theorem not_isDigit_of_mem
    {character : Char}
    {byte : UInt8}
    (notDigit : character.isDigit = false)
    (member : byte ∈ String.utf8EncodeChar character) :
    isDigit byte = false := by
  by_contra isNumeral
  have bounds := isDigit_iff.mp (Bool.not_eq_false _ ▸ isNumeral)
  have isByte :=
    (Utf8.mem_utf8EncodeChar_iff (by omega)).mp member
  have digit : character.isDigit = true := by
    rw [isDigit_char_iff, isByte, Utf8.toNat_ofNat (Or.inl (by omega))]
    exact bounds
  rw [notDigit] at digit
  cases digit

/-- The digit bytes at the start of an encoded text are those of its digits. -/
theorem takeWhile_isDigit_encode (text : List Char) :
    (Utf8.encode text).takeWhile isDigit =
      Utf8.encode (text.takeWhile Char.isDigit) := by
  induction text with
  | nil =>
      rfl
  | cons first rest inductionHypothesis =>
      cases isNumeral : first.isDigit with
      | true =>
          obtain ⟨byte, bytes, isByteDigit, _⟩ := exists_digit_byte isNumeral
          rw [List.takeWhile_cons_of_pos isNumeral, Utf8.encode_cons,
            Utf8.encode_cons, bytes, ← inductionHypothesis,
            List.singleton_append, List.takeWhile_cons_of_pos isByteDigit]
          rfl
      | false =>
          obtain ⟨byte, others, bytes, _⟩ := Utf8.exists_utf8EncodeChar_eq first
          have notDigit : isDigit byte = false :=
            not_isDigit_of_mem isNumeral (by simp [bytes])
          rw [List.takeWhile_cons_of_neg (by simp [isNumeral]),
            Utf8.encode_cons, bytes, List.cons_append,
            List.takeWhile_cons_of_neg (by simp [notDigit])]
          rfl

/-- Digit bytes are appended to a value as their digits are. -/
theorem foldl_push_encode
    (cap value : UInt64)
    {digits : List Char}
    (areDigits : ∀ digit ∈ digits, digit.isDigit = true) :
    (Utf8.encode digits).foldl (push cap) value =
      digits.foldl (Count.push cap) value := by
  induction digits generalizing value with
  | nil =>
      rfl
  | cons digit rest inductionHypothesis =>
      obtain ⟨isNumeral, restDigits⟩ := List.forall_mem_cons.mp areDigits
      obtain ⟨byte, bytes, isByteDigit, sameValue⟩ := exists_digit_byte isNumeral
      have bounds := isDigit_iff.mp isByteDigit
      have least : 0x30 ≤ byte := UInt8.le_iff_toNat_le.mpr bounds.1
      have digitValue :
          (byte - 0x30).toUInt64 = Count.digitValue digit := by
        apply UInt64.toNat_inj.mp
        rw [UInt8.toNat_toUInt64, UInt8.toNat_sub_of_le _ _ least,
          Count.toNat_digitValue, sameValue]
        rfl
      rw [Utf8.encode_cons, bytes, List.singleton_append, List.foldl_cons,
        List.foldl_cons, push, digitValue, ← Count.push]
      exact inductionHypothesis _ restDigits

/-- A text is cut between whole characters, wherever the place is. -/
theorem cut?_of_text
    {place : BytePlace}
    {front middle back : List Char}
    (text : place.text = String.ofList (front ++ (middle ++ back))) :
    place.cut? (Utf8.size front) (Utf8.size front + Utf8.size middle) =
      some (Utf8.encode middle) := by
  have bytes :
      place.bytes = Utf8.encode front ++ (Utf8.encode middle ++ Utf8.encode back) := by
    rw [BytePlace.bytes, text, String.toList_ofList, Utf8.encode_append,
      Utf8.encode_append]
  have starts : Utf8.isBoundary place.bytes (Utf8.size front) = true := by
    rw [bytes, ← Utf8.encode_append, ← Utf8.encode_append]
    exact Utf8.isBoundary_encode_iff.mpr ⟨front, middle ++ back, rfl, rfl⟩
  have stops :
      Utf8.isBoundary place.bytes (Utf8.size front + Utf8.size middle) = true := by
    rw [bytes, ← Utf8.encode_append, ← Utf8.encode_append]
    exact
      Utf8.isBoundary_encode_iff.mpr
        ⟨front ++ middle, back, List.append_assoc _ _ _,
          Utf8.size_append front middle⟩
  rw [cut?, if_pos ⟨Nat.le_add_right _ _, starts, stops⟩, bytes,
    ← Utf8.length_encode front, List.drop_left, Nat.add_sub_cancel_left,
    ← Utf8.length_encode middle, List.take_left]

theorem slice?_of_text
    {place : BytePlace}
    {front middle back : List Char}
    (text : place.text = String.ofList (front ++ (middle ++ back))) :
    place.slice? (Utf8.size front) (Utf8.size front + Utf8.size middle) =
      some middle := by
  rw [slice?, cut?_of_text text]
  simp [Utf8.decode, Utf8.decodeFrom_encode, Except.toOption]

/-- The offset between two lists of characters. -/
def between (front rest : List Char) : BytePlace where
  text := String.ofList (front ++ rest)
  offset := Utf8.size front

section Between

variable (front rest : List Char)

@[simp] theorem bytes_between :
    (between front rest).bytes = Utf8.encode front ++ Utf8.encode rest := by
  rw [bytes, between, String.toList_ofList, Utf8.encode_append]

@[simp] theorem offset_between :
    (between front rest).offset = Utf8.size front :=
  rfl

theorem length_bytes_between :
    (between front rest).bytes.length = Utf8.size front + Utf8.size rest := by
  rw [bytes_between, List.length_append, Utf8.length_encode, Utf8.length_encode]

/-- So many bytes further on, the offset lies behind the characters that they write. -/
theorem skip_between (taken : List Char) :
    (between front (taken ++ rest)).skip (Utf8.size taken) =
      between (front ++ taken) rest := by
  rw [skip, between, between, List.append_assoc, Utf8.size_append]

theorem cut?_rest_between :
    (between front rest).cut? (Utf8.size front) (between front rest).bytes.length =
      some (Utf8.encode rest) := by
  rw [length_bytes_between]
  exact cut?_of_text (by rw [between, List.append_nil])

@[simp] theorem rest?_between :
    (between front rest).rest? = some rest := by
  rw [rest?, offset_between, length_bytes_between]
  exact slice?_of_text (by rw [between, List.append_nil])

@[simp] theorem remainder?_between :
    (between front rest).remainder? = some (String.ofList rest) := by
  simp [remainder?]

@[simp] theorem next?_between :
    (between front rest).next? = some rest.head? := by
  simp [next?]

@[simp] theorem second?_between :
    (between front rest).second? = some rest.tail.head? := by
  simp [second?]

@[simp] theorem atEnd_between :
    (between front rest).atEnd = rest.isEmpty := by
  cases rest with
  | nil =>
      simp [atEnd, Utf8.length_encode]
  | cons first others =>
      have positive := first.utf8Size_pos
      simp [atEnd, Utf8.length_encode]
      omega

/-- A text is cut between an earlier place and a later one. -/
theorem textSince?_between (middle : List Char) :
    (between (front ++ middle) rest).textSince? (Utf8.size front) =
      some (String.ofList middle) := by
  have cut :
      (between (front ++ middle) rest).slice?
          (Utf8.size front) (Utf8.size front + Utf8.size middle) =
        some middle :=
    slice?_of_text (by rw [between, List.append_assoc])
  rw [textSince?, offset_between, Utf8.size_append, cut]
  rfl

theorem pass?_nil : (between front []).pass? = some (between front []) := by
  simp [pass?]

theorem pass?_cons (next : Char) :
    (between front (next :: rest)).pass? =
      some (between (front ++ [next]) rest) := by
  have skipped := skip_between front rest [next]
  simpa [pass?] using skipped

theorem passIf?_head (expected : Char) :
    (between front (expected :: rest)).passIf? expected =
      some (true, between (front ++ [expected]) rest) := by
  have skipped := skip_between front rest [expected]
  simpa [passIf?] using skipped

theorem passIf?_of_ne
    {expected : Char}
    {rest : List Char}
    (different : rest.head? ≠ some expected) :
    (between front rest).passIf? expected =
      some (false, between front rest) := by
  simp [passIf?, different]

/-- The digits that are next are passed and counted. -/
theorem passNumber?_between (cap : UInt64) :
    (between front rest).passNumber? cap =
      some
        (if rest.takeWhile Char.isDigit = [] then
          none
        else
          some (Count.ofDigits cap (rest.takeWhile Char.isDigit)),
        between
          (front ++ rest.takeWhile Char.isDigit)
          (rest.dropWhile Char.isDigit)) := by
  obtain ⟨digits, back, rfl, isRun⟩ :=
    MaximalRun.exists_split Char.isDigit rest
  obtain ⟨taken, left⟩ := isRun.takeWhile_dropWhile
  simp only [passNumber?, offset_between, cut?_rest_between,
    takeWhile_isDigit_encode, taken, left, Option.bind_eq_bind, Option.bind_some]
  by_cases nothing : digits = []
  · simp [nothing]
  · have someByte : Utf8.encode digits ≠ [] :=
      fun noByte => nothing (Utf8.encode_injective noByte)
    rw [if_neg someByte, if_neg nothing, foldl_push_encode cap 0 isRun.passes,
      ← Count.ofDigits, Utf8.length_encode, skip_between]

/-- All characters in front of the next such one are passed, or all there are. -/
theorem passTo?_between
    {target : UInt8}
    (ascii : target.toNat < 0x80) :
    (between front rest).passTo? target =
      some
        (!(rest.dropWhile (· != Char.ofNat target.toNat)).isEmpty,
        between
          (front ++ rest.takeWhile (· != Char.ofNat target.toNat))
          (rest.dropWhile (· != Char.ofNat target.toNat))) := by
  obtain ⟨run, back, rfl, isRun⟩ :=
    MaximalRun.exists_split (· != Char.ofNat target.toNat) rest
  obtain ⟨taken, left⟩ := isRun.takeWhile_dropWhile
  have inside :
      (between front (run ++ back)).offset ≤
        (between front (run ++ back)).bytes.length := by
    rw [length_bytes_between]
    exact Nat.le_add_right _ _
  have behind :
      (between front (run ++ back)).bytes.drop
          (between front (run ++ back)).offset =
        Utf8.encode (run ++ back) := by
    rw [bytes_between, offset_between, ← Utf8.length_encode, List.drop_left]
  rw [passTo?, if_pos inside, behind, Utf8.idxOf?_encode ascii, taken, left]
  cases back with
  | nil =>
      simp [between, bytes, Utf8.length_encode]
  | cons next others =>
      simp [skip_between]

end Between

end BytePlace

end CaptureFormat
