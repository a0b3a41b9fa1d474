import CaptureFormat.Proofs.Text.Utf8

namespace CaptureFormat.Utf8

/-!
# Characters read back from their bytes

The bytes of a character are a first byte and continuation bytes behind it, and
no byte is both.  At the start of a sequence they are read as that character,
whatever stands behind them, and no other character starts with them.  So every
reader of this library takes an encoded text for the text that it is.
-/

/-- The bytes that stand behind the first byte of a character. -/
def IsContinuation (byte : UInt8) : Prop :=
  0x80 ≤ byte.toNat ∧ byte.toNat ≤ 0xBF

/-- The bytes of the character with a code point, by their number. -/
inductive Spells (code : Nat) : List UInt8 → Prop where
  | one {first : UInt8} :
      first.toNat < 0x80 →
      code = first.toNat →
      Spells code [first]
  | two {first second : UInt8} :
      0xC2 ≤ first.toNat →
      first.toNat < 0xE0 →
      IsContinuation second →
      code = (first.toNat - 0xC0) * 64 + second.toNat % 64 →
      Spells code [first, second]
  | three {first second third : UInt8} :
      0xE0 ≤ first.toNat →
      first.toNat < 0xF0 →
      IsContinuation second →
      (first.toNat = 0xE0 → 0xA0 ≤ second.toNat) →
      (first.toNat = 0xED → second.toNat ≤ 0x9F) →
      IsContinuation third →
      code =
        ((first.toNat - 0xE0) * 64 + second.toNat % 64) * 64 +
          third.toNat % 64 →
      Spells code [first, second, third]
  | four {first second third fourth : UInt8} :
      0xF0 ≤ first.toNat →
      first.toNat ≤ 0xF4 →
      IsContinuation second →
      (first.toNat = 0xF0 → 0x90 ≤ second.toNat) →
      (first.toNat = 0xF4 → second.toNat ≤ 0x8F) →
      IsContinuation third →
      IsContinuation fourth →
      code =
        (((first.toNat - 0xF0) * 64 + second.toNat % 64) * 64 +
            third.toNat % 64) * 64 + fourth.toNat % 64 →
      Spells code [first, second, third, fourth]

/-- A character is written with the bytes that spell its code point. -/
theorem spells_utf8EncodeChar (letter : Char) :
    Spells letter.toNat (String.utf8EncodeChar letter) := by
  have valid : letter.toNat.isValidChar := letter.valid
  have bytes := utf8EncodeChar_ofNat valid
  rw [Char.ofNat_toNat] at bytes
  rw [bytes]
  generalize letter.toNat = code at valid ⊢
  split
  · apply Spells.one <;> simp only [UInt8.toNat_ofNat'] <;> omega
  split
  · apply Spells.two <;>
      simp only [IsContinuation, UInt8.toNat_ofNat'] <;> omega
  split
  · apply Spells.three <;>
      simp only [IsContinuation, UInt8.toNat_ofNat'] <;> omega
  · apply Spells.four <;>
      simp only [IsContinuation, UInt8.toNat_ofNat'] <;> omega

section Promises

variable {first : UInt8}

theorem promise?_of_one (small : first.toNat < 0x80) :
    promise? first = some ⟨0, first.toNat, 0x80, 0xBF⟩ :=
  if_pos small

theorem promise?_of_two
    (least : 0xC2 ≤ first.toNat)
    (most : first.toNat < 0xE0) :
    promise? first = some ⟨1, first.toNat - 0xC0, 0x80, 0xBF⟩ := by
  simp only [promise?]
  rw [if_neg (by omega), if_neg (by omega), if_pos most]

/-- The promised bounds hold of every second byte that makes no overlong form and no surrogate. -/
theorem exists_promise?_of_three
    (least : 0xE0 ≤ first.toNat)
    (most : first.toNat < 0xF0)
    {second : UInt8}
    (continues : IsContinuation second)
    (notOverlong : first.toNat = 0xE0 → 0xA0 ≤ second.toNat)
    (notSurrogate : first.toNat = 0xED → second.toNat ≤ 0x9F) :
    ∃ low high,
      promise? first = some ⟨2, first.toNat - 0xE0, low, high⟩ ∧
        low.toNat ≤ second.toNat ∧
        second.toNat ≤ high.toNat := by
  obtain ⟨low, high⟩ := continues
  simp only [promise?]
  rw [if_neg (by omega), if_neg (by omega), if_neg (by omega)]
  split
  · next is =>
      rw [is]
      exact ⟨_, _, rfl, notOverlong is, high⟩
  split
  · next is =>
      rw [is]
      exact ⟨_, _, rfl, low, notSurrogate is⟩
  · exact ⟨_, _, rfl, low, high⟩

/-- The promised bounds hold of every second byte that stays within the code points. -/
theorem exists_promise?_of_four
    (least : 0xF0 ≤ first.toNat)
    (most : first.toNat ≤ 0xF4)
    {second : UInt8}
    (continues : IsContinuation second)
    (notOverlong : first.toNat = 0xF0 → 0x90 ≤ second.toNat)
    (notTooLarge : first.toNat = 0xF4 → second.toNat ≤ 0x8F) :
    ∃ low high,
      promise? first = some ⟨3, first.toNat - 0xF0, low, high⟩ ∧
        low.toNat ≤ second.toNat ∧
        second.toNat ≤ high.toNat := by
  obtain ⟨low, high⟩ := continues
  simp only [promise?]
  rw [if_neg (by omega), if_neg (by omega), if_neg (by omega),
    if_neg (by omega), if_neg (by omega), if_neg (by omega)]
  split
  · next is =>
      rw [is]
      exact ⟨_, _, rfl, notOverlong is, high⟩
  split
  · exact ⟨_, _, rfl, low, high⟩
  · next isNot isLess =>
      have is : first.toNat = 0xF4 := by omega
      rw [if_pos is, is]
      exact ⟨_, _, rfl, low, notTooLarge is⟩

end Promises

namespace Spells

variable {code : Nat} {first : UInt8} {rest : List UInt8}

/-- The first byte is no continuation byte. -/
theorem first_not_continuation (spells : Spells code (first :: rest)) :
    ¬IsContinuation first := by
  intro continues
  obtain ⟨least, most⟩ := continues
  cases spells <;> omega

/-- All other bytes are continuation bytes. -/
theorem rest_continuation (spells : Spells code (first :: rest)) :
    ∀ byte ∈ rest, IsContinuation byte := by
  cases spells with
  | one => simp
  | two => simp [*]
  | three => simp [*]
  | four => simp [*]

/-- Bytes that spell a code point are read as its character, whatever is behind them. -/
theorem leading_append
    (spells : Spells code (first :: rest))
    (back : List UInt8) :
    leading first (rest ++ back) =
      .character (Char.ofNat code) (rest.length + 1) := by
  unfold leading
  cases spells with
  | one small value =>
      rw [promise?_of_one small]
      subst value
      rfl
  | two least most second value =>
      rw [promise?_of_two least most]
      subst value
      exact
        follow_succ_eq_character_iff.mpr
          ⟨_, _, rfl, second.1, second.2, rfl⟩
  | three least most second notOverlong notSurrogate third value =>
      obtain ⟨low, high, promises, lower, upper⟩ :=
        exists_promise?_of_three least most second notOverlong notSurrogate
      rw [promises]
      subst value
      exact
        follow_succ_eq_character_iff.mpr
          ⟨_, _, rfl, lower, upper,
            follow_succ_eq_character_iff.mpr
              ⟨_, _, rfl, third.1, third.2, rfl⟩⟩
  | four least most second notOverlong notTooLarge third fourth value =>
      obtain ⟨low, high, promises, lower, upper⟩ :=
        exists_promise?_of_four least most second notOverlong notTooLarge
      rw [promises]
      subst value
      exact
        follow_succ_eq_character_iff.mpr
          ⟨_, _, rfl, lower, upper,
            follow_succ_eq_character_iff.mpr
              ⟨_, _, rfl, third.1, third.2,
                follow_succ_eq_character_iff.mpr
                  ⟨_, _, rfl, fourth.1, fourth.2, rfl⟩⟩⟩

end Spells

/-- The bytes of a character: a first one, and continuation bytes behind it. -/
theorem exists_utf8EncodeChar_eq (letter : Char) :
    ∃ first rest,
      String.utf8EncodeChar letter = first :: rest ∧
        Spells letter.toNat (first :: rest) := by
  have spells := spells_utf8EncodeChar letter
  cases bytes : String.utf8EncodeChar letter with
  | nil =>
      rw [bytes] at spells
      cases spells
  | cons first rest =>
      rw [bytes] at spells
      exact ⟨first, rest, rfl, spells⟩

/-- An ASCII byte is a character of its own, and no part of any other. -/
theorem mem_utf8EncodeChar_iff
    {letter : Char}
    {byte : UInt8}
    (ascii : byte.toNat < 0x80) :
    byte ∈ String.utf8EncodeChar letter ↔
      letter = Char.ofNat byte.toNat := by
  constructor
  · intro member
    obtain ⟨first, rest, bytes, spells⟩ := exists_utf8EncodeChar_eq letter
    rw [bytes] at member
    rcases List.mem_cons.mp member with rfl | behind
    · cases spells with
      | one _ value =>
          rw [← value, Char.ofNat_toNat]
      | two least => omega
      | three least => omega
      | four least => omega
    · have continues := (spells.rest_continuation byte behind).1
      omega
  · rintro rfl
    rw [utf8EncodeChar_one ascii]
    exact List.mem_singleton_self byte

/-- A character is read exactly where its bytes stand, and all of them are taken. -/
theorem leading_eq_character_iff
    {first : UInt8}
    {rest : List UInt8}
    {letter : Char}
    {taken : Nat} :
    leading first rest = .character letter taken ↔
      taken = (String.utf8EncodeChar letter).length ∧
        String.utf8EncodeChar letter <+: first :: rest := by
  have reads :
      ∀ back,
        first :: rest = String.utf8EncodeChar letter ++ back →
        leading first rest =
          .character letter (String.utf8EncodeChar letter).length := by
    intro back shape
    obtain ⟨start, others, bytes, spells⟩ := exists_utf8EncodeChar_eq letter
    rw [bytes, List.cons_append, List.cons.injEq] at shape
    obtain ⟨rfl, rfl⟩ := shape
    rw [spells.leading_append back, Char.ofNat_toNat, bytes, List.length_cons]
  constructor
  · intro isLeading
    have shape := cons_eq_encode_append_of_leading isLeading
    have again := reads _ shape
    rw [isLeading, Leading.character.injEq] at again
    exact ⟨again.2, _, shape.symm⟩
  · rintro ⟨rfl, back, shape⟩
    exact reads back shape.symm

/-- No two characters start with the same bytes. -/
theorem utf8EncodeChar_append_inj
    {first second : Char}
    {firstBack secondBack : List UInt8}
    (same :
      String.utf8EncodeChar first ++ firstBack =
        String.utf8EncodeChar second ++ secondBack) :
    first = second ∧ firstBack = secondBack := by
  obtain ⟨start, rest, bytes, spells⟩ := exists_utf8EncodeChar_eq first
  have isFirst := spells.leading_append firstBack
  rw [Char.ofNat_toNat] at isFirst
  have isSecond :
      leading start (rest ++ firstBack) =
        .character second (String.utf8EncodeChar second).length := by
    rw [leading_eq_character_iff, ← List.cons_append, ← bytes, same]
    exact ⟨rfl, List.prefix_append _ _⟩
  rw [isFirst, Leading.character.injEq] at isSecond
  obtain ⟨rfl, _⟩ := isSecond
  exact ⟨rfl, List.append_cancel_left same⟩

section Readers

variable (letter : Char) (back : List UInt8)

theorem pieces_utf8EncodeChar_append :
    pieces (String.utf8EncodeChar letter ++ back) =
      .character letter :: pieces back := by
  obtain ⟨first, rest, bytes, spells⟩ := exists_utf8EncodeChar_eq letter
  rw [bytes, List.cons_append, pieces, spells.leading_append,
    Char.ofNat_toNat]
  simp

theorem lossy_utf8EncodeChar_append :
    lossy (String.utf8EncodeChar letter ++ back) = letter :: lossy back := by
  obtain ⟨first, rest, bytes, spells⟩ := exists_utf8EncodeChar_eq letter
  rw [bytes, List.cons_append, lossy, spells.leading_append,
    Char.ofNat_toNat]
  simp

theorem decodeFrom_utf8EncodeChar_append (index : Nat) :
    decodeFrom index (String.utf8EncodeChar letter ++ back) =
      (decodeFrom (index + (String.utf8EncodeChar letter).length) back).map
        (letter :: ·) := by
  obtain ⟨first, rest, bytes, spells⟩ := exists_utf8EncodeChar_eq letter
  rw [bytes, List.cons_append, decodeFrom, spells.leading_append,
    Char.ofNat_toNat]
  simp

end Readers

/-- The pieces of an encoded text are its characters. -/
theorem pieces_encode (text : List Char) :
    pieces (encode text) = text.map .character := by
  induction text with
  | nil =>
      rw [encode_nil, pieces]
      rfl
  | cons letter rest inductionHypothesis =>
      rw [encode_cons, pieces_utf8EncodeChar_append, inductionHypothesis]
      rfl

/-- Nothing is lost of an encoded text. -/
theorem lossy_encode (text : List Char) : lossy (encode text) = text := by
  induction text with
  | nil =>
      rw [encode_nil, lossy]
  | cons letter rest inductionHypothesis =>
      rw [encode_cons, lossy_utf8EncodeChar_append, inductionHypothesis]

/-- An encoded text decodes, at any index. -/
theorem decodeFrom_encode (index : Nat) (text : List Char) :
    decodeFrom index (encode text) = .ok text := by
  induction text generalizing index with
  | nil =>
      rw [encode_nil, decodeFrom]
  | cons letter rest inductionHypothesis =>
      rw [encode_cons, decodeFrom_utf8EncodeChar_append, inductionHypothesis]
      rfl

theorem encode_injective : Function.Injective encode := by
  intro first second same
  have read := lossy_encode first
  rwa [same, lossy_encode, eq_comm] at read

/-- Bytes are text exactly if they are the bytes of some characters. -/
theorem isText_iff {bytes : List UInt8} :
    isText bytes = true ↔ ∃ text, encode text = bytes := by
  unfold isText decode
  constructor
  · intro isOk
    cases reads : decodeFrom 0 bytes with
    | error fault =>
        rw [reads] at isOk
        cases isOk
    | ok text =>
        exact ⟨text, encode_of_decodeFrom reads⟩
  · rintro ⟨text, rfl⟩
    rw [decodeFrom_encode]
    rfl

end CaptureFormat.Utf8
