import CaptureFormat.Proofs.Text.Encoding

namespace CaptureFormat.Utf8

/-!
# The pieces of a byte sequence

A byte sequence splits into characters and bytes that belong to no character,
and there is one way to do so.  The reader that keeps faulty bytes finds these
pieces although it takes a faulty run as a whole, and so does the scan that cuts
a sequence short, which takes one faulty byte after another.

Every byte sequence is empty, or starts with a character, or starts with a byte
that starts none.  `piecewise_induction` goes along these cases.
-/

/-- No character stands at the start of a byte sequence. -/
def Faulty (bytes : List UInt8) : Prop :=
  ∀ letter, ¬String.utf8EncodeChar letter <+: bytes

/-- The byte at a position is one of a character that stands in the byte sequence. -/
def BelongsToCharacter (bytes : List UInt8) (position : Nat) : Prop :=
  ∃ before letter behind,
    bytes = before ++ (String.utf8EncodeChar letter ++ behind) ∧
      before.length ≤ position ∧
      position < before.length + (String.utf8EncodeChar letter).length

/-- A byte sequence is cut into characters and the bytes that belong to none. -/
structure Splits (bytes : List UInt8) (parts : List Piece) : Prop where
  joined : parts.flatMap Piece.bytes = bytes
  lone :
    ∀ before byte behind,
      parts = before ++ .byte byte :: behind →
      ¬BelongsToCharacter bytes (before.flatMap Piece.bytes).length

section Faults

/-- Where no character is read, continuation bytes are passed, up to the end or a fault. -/
theorem follow_cases
    {low high : UInt8}
    (least : 0x80 ≤ low.toNat)
    (most : high.toNat ≤ 0xBF)
    (value taken remaining : Nat)
    (bytes : List UInt8) :
    (∃ letter total,
        follow low high value taken remaining bytes =
          .character letter total) ∨
      ∃ run back,
        bytes = run ++ back ∧
          (∀ byte ∈ run, IsContinuation byte) ∧
          (follow low high value taken remaining bytes =
              .malformed (taken + run.length) ∨
            back = [] ∧
              follow low high value taken remaining bytes =
                .truncated (taken + run.length)) := by
  induction remaining generalizing low high value taken bytes with
  | zero =>
      exact Or.inl ⟨_, _, rfl⟩
  | succ remaining inductionHypothesis =>
      cases bytes with
      | nil =>
          exact Or.inr ⟨[], [], rfl, by simp, Or.inr ⟨rfl, rfl⟩⟩
      | cons byte rest =>
          rw [follow]
          split
          · next bounds =>
              have continues : IsContinuation byte :=
                ⟨Nat.le_trans least (UInt8.le_iff_toNat_le.mp bounds.1),
                  Nat.le_trans (UInt8.le_iff_toNat_le.mp bounds.2) most⟩
              obtain read | ⟨run, back, rfl, continuations, stops⟩ :=
                inductionHypothesis
                  (by decide : 0x80 ≤ (0x80 : UInt8).toNat)
                  (by decide : (0xBF : UInt8).toNat ≤ 0xBF)
                  (value * 64 + byte.toNat % 64) (taken + 1) rest
              · exact Or.inl read
              · refine Or.inr ⟨byte :: run, back, rfl, ?_, ?_⟩
                · exact List.forall_mem_cons.mpr ⟨continues, continuations⟩
                · rwa [List.length_cons, Nat.add_comm run.length 1,
                    ← Nat.add_assoc]
          · exact Or.inr ⟨[], byte :: rest, rfl, by simp, Or.inl rfl⟩

theorem Promised.bounds
    {first : Nat}
    {promise : Promise}
    (promised : Promised first promise) :
    0x80 ≤ promise.low.toNat ∧ promise.high.toNat ≤ 0xBF := by
  cases promised with
  | one => exact ⟨Nat.le_refl _, Nat.le_refl _⟩
  | two => exact ⟨Nat.le_refl _, Nat.le_refl _⟩
  | three _ _ lower upper => exact ⟨lower.1, upper.1⟩
  | four _ _ lower upper => exact ⟨lower.1, upper.1⟩

/-- A fault at the start takes the first byte and continuation bytes behind it. -/
theorem leading_of_faulty
    {first : UInt8}
    {rest : List UInt8}
    (faulty : Faulty (first :: rest)) :
    ∃ run back,
      rest = run ++ back ∧
        (∀ byte ∈ run, IsContinuation byte) ∧
        (leading first rest = .malformed (1 + run.length) ∨
          back = [] ∧ leading first rest = .truncated (1 + run.length)) := by
  have noCharacter :
      ∀ letter taken, leading first rest ≠ .character letter taken :=
    fun letter _ isLeading =>
      faulty letter (leading_eq_character_iff.mp isLeading).2
  unfold leading at noCharacter ⊢
  cases promises : promise? first with
  | none =>
      exact ⟨[], rest, rfl, by simp, Or.inl rfl⟩
  | some promise =>
      rw [promises] at noCharacter
      obtain ⟨least, most⟩ := (promised_of_promise? promises).bounds
      obtain ⟨letter, total, reads⟩ | faults :=
        follow_cases least most promise.payload 1 promise.following rest
      · exact absurd reads (noCharacter letter total)
      · exact faults

theorem leading_of_continuation
    {byte : UInt8}
    (continues : IsContinuation byte)
    (rest : List UInt8) :
    leading byte rest = .malformed 1 := by
  obtain ⟨least, most⟩ := continues
  have noPromise : promise? byte = none := by
    simp only [promise?]
    rw [if_neg (by omega), if_pos (by omega)]
  rw [leading, noPromise]

/-- Continuation bytes that follow no first byte are pieces of their own. -/
theorem pieces_continuations_append
    {run : List UInt8}
    (continuations : ∀ byte ∈ run, IsContinuation byte)
    (back : List UInt8) :
    pieces (run ++ back) = run.map .byte ++ pieces back := by
  induction run with
  | nil =>
      rfl
  | cons byte rest inductionHypothesis =>
      obtain ⟨continues, others⟩ := List.forall_mem_cons.mp continuations
      rw [List.cons_append, pieces, leading_of_continuation continues]
      simp only [List.take_succ_cons, List.take_zero, Nat.sub_self,
        List.drop_zero, inductionHypothesis others]
      rfl

/-- A byte that starts no character is a piece of its own, also in a longer faulty run. -/
theorem pieces_of_faulty
    {first : UInt8}
    {rest : List UInt8}
    (faulty : Faulty (first :: rest)) :
    pieces (first :: rest) = .byte first :: pieces rest := by
  obtain ⟨run, back, rfl, continuations, stops⟩ :=
    leading_of_faulty faulty
  rw [pieces, pieces_continuations_append continuations]
  obtain malformed | ⟨rfl, truncated⟩ := stops
  · simp [malformed, Nat.add_comm 1]
  · rw [truncated, List.append_nil, pieces, List.append_nil]
    rfl

end Faults

/-- Induction along the pieces of a byte sequence. -/
@[elab_as_elim]
theorem piecewise_induction
    {motive : List UInt8 → Prop}
    (nil : motive [])
    (character :
      ∀ letter back,
        motive back →
        motive (String.utf8EncodeChar letter ++ back))
    (byte :
      ∀ first rest,
        Faulty (first :: rest) →
        motive rest →
        motive (first :: rest))
    (bytes : List UInt8) :
    motive bytes := by
  induction bytes using WellFounded.induction (measure List.length).wf with
  | _ bytes inductionHypothesis =>
      cases bytes with
      | nil =>
          exact nil
      | cons first rest =>
          by_cases faulty : Faulty (first :: rest)
          · exact byte first rest faulty
              (inductionHypothesis rest (Nat.lt_succ_self rest.length))
          · obtain ⟨letter, back, shape⟩ :
                ∃ letter, String.utf8EncodeChar letter <+: first :: rest := by
              simpa [Faulty] using faulty
            rw [← shape]
            apply character
            apply inductionHypothesis
            obtain ⟨start, others, bytes, _⟩ :=
              exists_utf8EncodeChar_eq letter
            change back.length < (first :: rest).length
            rw [← shape, bytes, List.length_append, List.length_cons]
            omega

/-- The pieces of a byte sequence are all of it. -/
theorem flatMap_bytes_pieces (bytes : List UInt8) :
    (pieces bytes).flatMap Piece.bytes = bytes := by
  induction bytes using piecewise_induction with
  | nil =>
      rw [pieces]
      rfl
  | character letter back inductionHypothesis =>
      rw [pieces_utf8EncodeChar_append, List.flatMap_cons,
        inductionHypothesis]
      rfl
  | byte first rest faulty inductionHypothesis =>
      rw [pieces_of_faulty faulty, List.flatMap_cons, inductionHypothesis]
      rfl

namespace BelongsToCharacter

variable {bytes : List UInt8} {position : Nat}

/-- More bytes on either side leave a character where it is. -/
theorem surround
    (belongs : BelongsToCharacter bytes position)
    (front back : List UInt8) :
    BelongsToCharacter (front ++ bytes ++ back) (front.length + position) := by
  obtain ⟨before, letter, behind, rfl, least, most⟩ := belongs
  refine ⟨front ++ before, letter, behind ++ back, ?_, ?_, ?_⟩
  · simp only [List.append_assoc]
  · rw [List.length_append]
    omega
  · rw [List.length_append]
    omega

/-- The first byte belongs to a character only if one stands there. -/
theorem not_faulty (belongs : BelongsToCharacter bytes 0) :
    ¬Faulty bytes := by
  obtain ⟨before, letter, behind, rfl, least, _⟩ := belongs
  rw [List.eq_nil_of_length_eq_zero (Nat.le_zero.mp least)]
  exact fun faulty => faulty letter (List.prefix_append _ _)

/-- A character behind a faulty byte does not start with it. -/
theorem of_faulty
    {first : UInt8}
    {rest : List UInt8}
    (faulty : Faulty (first :: rest))
    (belongs : BelongsToCharacter (first :: rest) (1 + position)) :
    BelongsToCharacter rest position := by
  obtain ⟨before, letter, behind, shape, least, most⟩ := belongs
  cases before with
  | nil =>
      exact absurd ⟨behind, shape.symm⟩ (faulty letter)
  | cons start others =>
      rw [List.cons_append, List.cons.injEq] at shape
      rw [List.length_cons] at least most
      exact ⟨others, letter, behind, shape.2, by omega, by omega⟩

/-- A character behind another one does not start inside it. -/
theorem of_character
    {letter : Char}
    {back : List UInt8}
    (belongs :
      BelongsToCharacter
        (String.utf8EncodeChar letter ++ back)
        ((String.utf8EncodeChar letter).length + position)) :
    BelongsToCharacter back position := by
  obtain ⟨before, other, behind, shape, least, most⟩ := belongs
  obtain ⟨between, rfl, isBack⟩ | ⟨inside, isLetter, isOther⟩ :=
    List.append_eq_append_iff.mp shape
  · rw [List.length_append] at least most
    exact ⟨between, other, behind, isBack, by omega, by omega⟩
  · cases before with
    | nil =>
        obtain ⟨rfl, _⟩ := utf8EncodeChar_append_inj shape
        rw [List.length_nil] at most
        omega
    | cons start earlier =>
        obtain ⟨first, rest, bytes, spells⟩ := exists_utf8EncodeChar_eq other
        cases inside with
        | nil =>
            rw [List.append_nil] at isLetter
            rw [List.nil_append] at isOther
            rw [isLetter] at least most
            exact
              ⟨[], other, behind, isOther.symm, Nat.zero_le _,
                by rw [List.length_nil]; omega⟩
        | cons overlap others =>
            -- the byte where the other character starts is a continuation of this one
            rw [bytes, List.cons_append, List.cons_append,
              List.cons.injEq] at isOther
            obtain ⟨initial, continuations, shown, lettersSpell⟩ :=
              exists_utf8EncodeChar_eq letter
            rw [shown, List.cons_append, List.cons.injEq] at isLetter
            have continues : IsContinuation overlap := by
              apply lettersSpell.rest_continuation
              rw [isLetter.2]
              exact List.mem_append_right _ List.mem_cons_self
            rw [← isOther.1] at continues
            exact absurd continues spells.first_not_continuation

end BelongsToCharacter

namespace Splits

variable {bytes : List UInt8} {parts : List Piece}

theorem nil : Splits [] [] where
  joined := rfl
  lone before byte behind shape := by
    cases before <;> cases shape

theorem character (letter : Char) (splits : Splits bytes parts) :
    Splits (String.utf8EncodeChar letter ++ bytes)
      (.character letter :: parts) where
  joined := by
    rw [List.flatMap_cons, splits.joined]
    rfl
  lone before byte behind shape := by
    cases before with
    | nil =>
        cases shape
    | cons part others =>
        rw [List.cons_append, List.cons.injEq] at shape
        obtain ⟨rfl, shape⟩ := shape
        rw [List.flatMap_cons, List.length_append]
        exact fun belongs =>
          splits.lone others byte behind shape belongs.of_character

theorem byte
    {first : UInt8}
    (faulty : Faulty (first :: bytes))
    (splits : Splits bytes parts) :
    Splits (first :: bytes) (.byte first :: parts) where
  joined := by
    rw [List.flatMap_cons, splits.joined]
    rfl
  lone before byte behind shape := by
    cases before with
    | nil =>
        exact fun belongs => belongs.not_faulty faulty
    | cons part others =>
        rw [List.cons_append, List.cons.injEq] at shape
        obtain ⟨rfl, shape⟩ := shape
        rw [List.flatMap_cons, List.length_append]
        exact fun belongs =>
          splits.lone others byte behind shape
            (belongs.of_faulty faulty)

/-- The parts behind others split the bytes behind those of the others. -/
theorem of_append
    (earlier : List Piece)
    (splits : Splits bytes (earlier ++ parts)) :
    Splits (parts.flatMap Piece.bytes) parts where
  joined := rfl
  lone before byte behind shape belongs := by
    apply splits.lone (earlier ++ before) byte behind
    · rw [shape, List.append_assoc]
    · have surrounded :=
        belongs.surround (earlier.flatMap Piece.bytes) []
      rwa [List.append_nil, ← List.flatMap_append, splits.joined,
        ← List.length_append, ← List.flatMap_append] at surrounded

/-- The parts in front of others split the bytes in front of those of the others. -/
theorem of_append_left
    {later : List Piece}
    (splits : Splits bytes (parts ++ later)) :
    Splits (parts.flatMap Piece.bytes) parts where
  joined := rfl
  lone before byte behind shape belongs := by
    apply splits.lone before byte (behind ++ later)
    · rw [shape, List.append_assoc]
      rfl
    · have surrounded :=
        belongs.surround [] (later.flatMap Piece.bytes)
      rwa [List.nil_append, ← List.flatMap_append, splits.joined,
        List.length_nil, Nat.zero_add] at surrounded

/-- A byte sequence splits into nothing but its pieces. -/
theorem eq_pieces (splits : Splits bytes parts) : parts = pieces bytes := by
  induction parts generalizing bytes with
  | nil =>
      rw [← splits.joined, List.flatMap_nil, pieces]
  | cons part rest inductionHypothesis =>
      have later := of_append [part] splits
      rw [← splits.joined, List.flatMap_cons]
      cases part with
      | character letter =>
          change
            Piece.character letter :: rest =
              pieces
                (String.utf8EncodeChar letter ++ rest.flatMap Piece.bytes)
          rw [pieces_utf8EncodeChar_append, ← inductionHypothesis later]
      | byte single =>
          have faulty : Faulty (single :: rest.flatMap Piece.bytes) := by
            rintro letter ⟨back, shape⟩
            apply splits.lone [] single rest rfl
            refine ⟨[], letter, back, ?_, Nat.zero_le _, ?_⟩
            · rw [← splits.joined, List.nil_append, shape]
              rfl
            · obtain ⟨first, others, bytes, _⟩ :=
                exists_utf8EncodeChar_eq letter
              simp [bytes]
          change
            Piece.byte single :: rest =
              pieces (single :: rest.flatMap Piece.bytes)
          rw [pieces_of_faulty faulty, ← inductionHypothesis later]

end Splits

/-- The pieces of a byte sequence are its characters and the bytes that belong to none. -/
theorem splits_pieces (bytes : List UInt8) : Splits bytes (pieces bytes) := by
  induction bytes using piecewise_induction with
  | nil =>
      rw [pieces]
      exact .nil
  | character letter back inductionHypothesis =>
      rw [pieces_utf8EncodeChar_append]
      exact inductionHypothesis.character letter
  | byte first rest faulty inductionHypothesis =>
      rw [pieces_of_faulty faulty]
      exact inductionHypothesis.byte faulty

section Front

theorem announced?_of_spells
    {code : Nat}
    {first : UInt8}
    {rest : List UInt8}
    (spells : Spells code (first :: rest)) :
    announced? first = some (rest.length + 1) := by
  simp only [announced?]
  cases spells with
  | one small _ =>
      exact if_pos small
  | two least most _ _ =>
      rw [if_neg (by omega), if_neg (by omega), if_pos most]
      rfl
  | three least most _ _ _ _ _ =>
      rw [if_neg (by omega), if_neg (by omega), if_neg (by omega),
        if_pos most]
      rfl
  | four least most _ _ _ _ _ _ =>
      rw [if_neg (by omega), if_neg (by omega), if_neg (by omega),
        if_neg (by omega), if_pos (by omega)]
      rfl

/-- The scan measures a character by its first byte. -/
theorem leadingLength_of_spells
    {letter : Char}
    {first : UInt8}
    {rest : List UInt8}
    (bytes : String.utf8EncodeChar letter = first :: rest)
    (spells : Spells letter.toNat (first :: rest))
    (back : List UInt8) :
    leadingLength first (rest ++ back) = rest.length + 1 := by
  have isLetter : isText (first :: rest) = true :=
    isText_iff.mpr ⟨[letter], by simp [bytes]⟩
  rw [leadingLength, announced?_of_spells spells]
  simp only [List.take_succ_cons, List.take_left, isLetter,
    List.length_append]
  exact if_pos ⟨by omega, trivial⟩

theorem ne_zero_of_announced?
    {first : UInt8}
    {length : Nat}
    (announced : announced? first = some length) :
    length ≠ 0 := by
  grind [announced?]

/-- The scan passes a byte alone where no character stands, whatever the byte announces. -/
theorem leadingLength_of_faulty
    {first : UInt8}
    {rest : List UInt8}
    (faulty : Faulty (first :: rest)) :
    leadingLength first rest = 1 := by
  unfold leadingLength
  split
  · next length announced =>
      obtain ⟨others, rfl⟩ :=
        Nat.exists_eq_succ_of_ne_zero (ne_zero_of_announced? announced)
      rw [if_neg]
      rintro ⟨_, isLetters⟩
      obtain ⟨text, bytes⟩ := isText_iff.mp isLetters
      cases text with
      | nil =>
          cases bytes
      | cons letter later =>
          have starts :
              encode (letter :: later) <+: first :: rest := by
            rw [bytes]
            exact List.take_prefix _ _
          exact
            faulty letter ((List.prefix_append _ (encode later)).trans starts)
  · rfl

/-- Cutting a byte sequence short keeps its first pieces. -/
theorem front_eq (count : Nat) (bytes : List UInt8) :
    front count bytes =
      ((pieces bytes).take count).flatMap Piece.bytes := by
  induction count generalizing bytes with
  | zero =>
      rfl
  | succ count inductionHypothesis =>
      cases bytes using piecewise_induction with
      | nil =>
          rw [pieces]
          rfl
      | character letter back _ =>
          obtain ⟨first, rest, bytes, spells⟩ :=
            exists_utf8EncodeChar_eq letter
          rw [pieces_utf8EncodeChar_append, List.take_succ_cons,
            List.flatMap_cons, ← inductionHypothesis, bytes,
            List.cons_append, front,
            leadingLength_of_spells bytes spells back]
          simp [Piece.bytes, bytes]
      | byte first rest faulty _ =>
          rw [pieces_of_faulty faulty, List.take_succ_cons,
            List.flatMap_cons, ← inductionHypothesis, front,
            leadingLength_of_faulty faulty]
          rfl

theorem front_prefix (count : Nat) (bytes : List UInt8) :
    front count bytes <+: bytes := by
  refine ⟨((pieces bytes).drop count).flatMap Piece.bytes, ?_⟩
  rw [front_eq, ← List.flatMap_append, List.take_append_drop,
    flatMap_bytes_pieces]

/-- The pieces of a byte sequence that was cut short are the first ones of the whole. -/
theorem pieces_front (count : Nat) (bytes : List UInt8) :
    pieces (front count bytes) = (pieces bytes).take count := by
  have splits := splits_pieces bytes
  rw [← List.take_append_drop count (pieces bytes)] at splits
  rw [front_eq]
  exact splits.of_append_left.eq_pieces.symm

/-- An encoded text is cut to as many characters. -/
theorem front_encode (count : Nat) (text : List Char) :
    front count (encode text) = encode (text.take count) := by
  rw [front_eq, pieces_encode, ← List.map_take, List.flatMap_map]
  rfl

end Front

end CaptureFormat.Utf8
