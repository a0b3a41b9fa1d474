import CaptureFormat.Text.Utf8

namespace CaptureFormat.Utf8

/-!
# Decoding of UTF-8

Bytes that decode are the bytes of the characters that they decode to.  The
reader never computes an encoding, so this comes down to the bounds on the
bytes of one character: between them no other character is written with these
bytes, and no code point is a surrogate or too large.
-/

/-- What a first byte may promise, by the number of bytes after it. -/
inductive Promised (first : Nat) : Promise → Prop where
  | one :
      first < 0x80 →
      Promised first ⟨0, first, 0x80, 0xBF⟩
  | two :
      0xC2 ≤ first →
      first < 0xE0 →
      Promised first ⟨1, first - 0xC0, 0x80, 0xBF⟩
  | three {low high : UInt8} :
      0xE0 ≤ first →
      first < 0xF0 →
      0x80 ≤ low.toNat ∧ (first = 0xE0 → 0xA0 ≤ low.toNat) →
      high.toNat ≤ 0xBF ∧ (first = 0xED → high.toNat ≤ 0x9F) →
      Promised first ⟨2, first - 0xE0, low, high⟩
  | four {low high : UInt8} :
      0xF0 ≤ first →
      first ≤ 0xF4 →
      0x80 ≤ low.toNat ∧ (first = 0xF0 → 0x90 ≤ low.toNat) →
      high.toNat ≤ 0xBF ∧ (first = 0xF4 → high.toNat ≤ 0x8F) →
      Promised first ⟨3, first - 0xF0, low, high⟩

/-- A first byte promises what the number of bytes after it allows. -/
theorem promised_of_promise?
    {first : UInt8}
    {promise : Promise}
    (promises : promise? first = some promise) :
    Promised first.toNat promise := by
  unfold promise? at promises
  simp only at promises
  split at promises
  · next small =>
      cases promises
      exact .one small
  split at promises
  · cases promises
  split at promises
  · next least most =>
      cases promises
      exact .two (by omega) most
  split at promises
  · next is =>
      cases promises
      have shape := @Promised.three first.toNat 0xA0 0xBF
      rw [is] at shape ⊢
      simpa using shape
  split at promises
  · next isNot is =>
      cases promises
      have shape := @Promised.three first.toNat 0x80 0x9F
      rw [is] at shape ⊢
      simpa using shape
  split at promises
  · next least isNotE0 isNotED most =>
      cases promises
      exact .three (by omega) most
        ⟨Nat.le_refl _, fun is => absurd is isNotE0⟩
        ⟨Nat.le_refl _, fun is => absurd is isNotED⟩
  split at promises
  · next is =>
      cases promises
      have shape := @Promised.four first.toNat 0x90 0xBF
      rw [is] at shape ⊢
      simpa using shape
  split at promises
  · next least isNot most =>
      cases promises
      exact .four (by omega) (by omega)
        ⟨Nat.le_refl _, fun is => absurd is isNot⟩
        ⟨Nat.le_refl _, fun is => absurd is (Nat.ne_of_lt most)⟩
  split at promises
  · next is =>
      cases promises
      have shape := @Promised.four first.toNat 0x80 0x8F
      rw [is] at shape ⊢
      simpa using shape
  · cases promises

/-- A character follows if the promised bytes are there and within their bounds. -/
theorem follow_succ_eq_character_iff
    {low high : UInt8}
    {value taken remaining total : Nat}
    {bytes : List UInt8}
    {letter : Char} :
    follow low high value taken (remaining + 1) bytes = .character letter total ↔
      ∃ byte rest,
        bytes = byte :: rest ∧
          low.toNat ≤ byte.toNat ∧
          byte.toNat ≤ high.toNat ∧
          follow 0x80 0xBF (value * 64 + byte.toNat % 64) (taken + 1)
            remaining rest = .character letter total := by
  cases bytes with
  | nil =>
      simp [follow]
  | cons byte rest =>
      simp only [follow, UInt8.le_iff_toNat_le, List.cons.injEq]
      constructor
      · intro follows
        split at follows
        · next bounds =>
            exact ⟨byte, rest, ⟨rfl, rfl⟩, bounds.1, bounds.2, follows⟩
        · cases follows
      · rintro ⟨_, _, ⟨rfl, rfl⟩, least, most, follows⟩
        rw [if_pos ⟨least, most⟩]
        exact follows

theorem follow_zero_eq_character_iff
    {low high : UInt8}
    {value taken total : Nat}
    {bytes : List UInt8}
    {letter : Char} :
    follow low high value taken 0 bytes = .character letter total ↔
      letter = Char.ofNat value ∧ total = taken := by
  simp only [follow, Leading.character.injEq]
  exact and_congr eq_comm eq_comm

theorem toNat_ofNat
    {value : Nat}
    (valid : value.isValidChar) :
    (Char.ofNat value).toNat = value := by
  rw [Char.ofNat, dif_pos valid]
  rfl

/-- The bytes of the character with a code point. -/
theorem utf8EncodeChar_ofNat
    {value : Nat}
    (valid : value.isValidChar) :
    String.utf8EncodeChar (Char.ofNat value) =
      if value ≤ 0x7F then
        [UInt8.ofNat value]
      else if value ≤ 0x7FF then
        [UInt8.ofNat (value / 64 % 32 + 0xC0),
          UInt8.ofNat (value % 64 + 0x80)]
      else if value ≤ 0xFFFF then
        [UInt8.ofNat (value / 4096 % 16 + 0xE0),
          UInt8.ofNat (value / 64 % 64 + 0x80),
          UInt8.ofNat (value % 64 + 0x80)]
      else
        [UInt8.ofNat (value / 262144 % 8 + 0xF0),
          UInt8.ofNat (value / 4096 % 64 + 0x80),
          UInt8.ofNat (value / 64 % 64 + 0x80),
          UInt8.ofNat (value % 64 + 0x80)] := by
  have point : (Char.ofNat value).val.toNat = value := toNat_ofNat valid
  rw [String.utf8EncodeChar.eq_def]
  simp only [point]

theorem ofNat_eq_of_toNat
    (byte : UInt8)
    {value : Nat}
    (same : value = byte.toNat) :
    UInt8.ofNat value = byte := by
  rw [same, UInt8.ofNat_toNat]

section Sequences

variable {first second third fourth : UInt8}

theorem utf8EncodeChar_one (small : first.toNat < 0x80) :
    String.utf8EncodeChar (Char.ofNat first.toNat) = [first] := by
  have valid : first.toNat.isValidChar := Or.inl (by omega)
  rw [utf8EncodeChar_ofNat valid, if_pos (by omega),
    ofNat_eq_of_toNat first rfl]

theorem utf8EncodeChar_two
    (least : 0xC2 ≤ first.toNat)
    (most : first.toNat < 0xE0)
    (second_mem : 0x80 ≤ second.toNat ∧ second.toNat ≤ 0xBF) :
    String.utf8EncodeChar
        (Char.ofNat
          ((first.toNat - 0xC0) * 64 + second.toNat % 64)) =
      [first, second] := by
  generalize point :
    (first.toNat - 0xC0) * 64 + second.toNat % 64 = value
  have valid : value.isValidChar := Or.inl (by omega)
  rw [utf8EncodeChar_ofNat valid, if_neg (by omega), if_pos (by omega),
    ofNat_eq_of_toNat first (by omega),
    ofNat_eq_of_toNat second (by omega)]

/-- The bounds of the second byte keep out overlong forms and surrogates. -/
theorem utf8EncodeChar_three
    (least : 0xE0 ≤ first.toNat)
    (most : first.toNat < 0xF0)
    (second_mem : 0x80 ≤ second.toNat ∧ second.toNat ≤ 0xBF)
    (notOverlong : first.toNat = 0xE0 → 0xA0 ≤ second.toNat)
    (notSurrogate : first.toNat = 0xED → second.toNat ≤ 0x9F)
    (third_mem : 0x80 ≤ third.toNat ∧ third.toNat ≤ 0xBF) :
    String.utf8EncodeChar
        (Char.ofNat
          (((first.toNat - 0xE0) * 64 + second.toNat % 64) * 64 +
            third.toNat % 64)) =
      [first, second, third] := by
  generalize point :
    ((first.toNat - 0xE0) * 64 + second.toNat % 64) * 64 +
      third.toNat % 64 = value
  have valid : value.isValidChar := by
    unfold Nat.isValidChar
    omega
  rw [utf8EncodeChar_ofNat valid, if_neg (by omega), if_neg (by omega),
    if_pos (by omega),
    ofNat_eq_of_toNat first (by omega),
    ofNat_eq_of_toNat second (by omega),
    ofNat_eq_of_toNat third (by omega)]

/-- The bounds of the second byte keep out overlong forms and what no code point reaches. -/
theorem utf8EncodeChar_four
    (least : 0xF0 ≤ first.toNat)
    (most : first.toNat ≤ 0xF4)
    (second_mem : 0x80 ≤ second.toNat ∧ second.toNat ≤ 0xBF)
    (notOverlong : first.toNat = 0xF0 → 0x90 ≤ second.toNat)
    (notTooLarge : first.toNat = 0xF4 → second.toNat ≤ 0x8F)
    (third_mem : 0x80 ≤ third.toNat ∧ third.toNat ≤ 0xBF)
    (fourth_mem : 0x80 ≤ fourth.toNat ∧ fourth.toNat ≤ 0xBF) :
    String.utf8EncodeChar
        (Char.ofNat
          ((((first.toNat - 0xF0) * 64 + second.toNat % 64) * 64 +
            third.toNat % 64) * 64 + fourth.toNat % 64)) =
      [first, second, third, fourth] := by
  generalize point :
    (((first.toNat - 0xF0) * 64 + second.toNat % 64) * 64 +
      third.toNat % 64) * 64 + fourth.toNat % 64 = value
  have valid : value.isValidChar := by
    unfold Nat.isValidChar
    omega
  rw [utf8EncodeChar_ofNat valid, if_neg (by omega), if_neg (by omega),
    if_neg (by omega),
    ofNat_eq_of_toNat first (by omega),
    ofNat_eq_of_toNat second (by omega),
    ofNat_eq_of_toNat third (by omega),
    ofNat_eq_of_toNat fourth (by omega)]

end Sequences

/-- A character that is read from bytes is written with the bytes that it took. -/
theorem cons_eq_encode_append_of_leading
    {first : UInt8}
    {rest : List UInt8}
    {letter : Char}
    {taken : Nat}
    (reads : leading first rest = .character letter taken) :
    first :: rest =
      String.utf8EncodeChar letter ++ rest.drop (taken - 1) := by
  unfold leading at reads
  split at reads
  · cases reads
  next promise promises =>
  cases promised_of_promise? promises with
  | one small =>
      obtain ⟨rfl, rfl⟩ := follow_zero_eq_character_iff.mp reads
      rw [utf8EncodeChar_one small]
      rfl
  | two least most =>
      obtain ⟨second, rest, rfl, low₂, high₂, reads⟩ :=
        follow_succ_eq_character_iff.mp reads
      obtain ⟨rfl, rfl⟩ := follow_zero_eq_character_iff.mp reads
      rw [utf8EncodeChar_two least most ⟨low₂, high₂⟩]
      rfl
  | three least most lower upper =>
      obtain ⟨second, rest, rfl, low₂, high₂, reads⟩ :=
        follow_succ_eq_character_iff.mp reads
      obtain ⟨third, rest, rfl, low₃, high₃, reads⟩ :=
        follow_succ_eq_character_iff.mp reads
      obtain ⟨rfl, rfl⟩ := follow_zero_eq_character_iff.mp reads
      rw [utf8EncodeChar_three least most
        ⟨Nat.le_trans lower.1 low₂, Nat.le_trans high₂ upper.1⟩
        (fun is => Nat.le_trans (lower.2 is) low₂)
        (fun is => Nat.le_trans high₂ (upper.2 is))
        ⟨low₃, high₃⟩]
      rfl
  | four least most lower upper =>
      obtain ⟨second, rest, rfl, low₂, high₂, reads⟩ :=
        follow_succ_eq_character_iff.mp reads
      obtain ⟨third, rest, rfl, low₃, high₃, reads⟩ :=
        follow_succ_eq_character_iff.mp reads
      obtain ⟨fourth, rest, rfl, low₄, high₄, reads⟩ :=
        follow_succ_eq_character_iff.mp reads
      obtain ⟨rfl, rfl⟩ := follow_zero_eq_character_iff.mp reads
      rw [utf8EncodeChar_four least most
        ⟨Nat.le_trans lower.1 low₂, Nat.le_trans high₂ upper.1⟩
        (fun is => Nat.le_trans (lower.2 is) low₂)
        (fun is => Nat.le_trans high₂ (upper.2 is))
        ⟨low₃, high₃⟩ ⟨low₄, high₄⟩]
      rfl

/-- Bytes that decode, read from any index, are those of the characters read. -/
theorem encode_of_decodeFrom
    {index : Nat}
    {bytes : List UInt8}
    {characters : List Char}
    (reads : decodeFrom index bytes = .ok characters) :
    encode characters = bytes := by
  induction index, bytes using decodeFrom.induct generalizing characters with
  | case1 index =>
      rw [decodeFrom] at reads
      cases reads
      rfl
  | case2 index first rest letter taken leads inductionHypothesis =>
      rw [decodeFrom, leads] at reads
      simp only at reads
      cases later : decodeFrom (index + taken) (rest.drop (taken - 1)) with
      | error fault =>
          rw [later] at reads
          cases reads
      | ok others =>
          rw [later] at reads
          cases reads
          rw [encode_cons, inductionHypothesis later]
          exact (cons_eq_encode_append_of_leading leads).symm
  | case3 index first rest taken leads =>
      rw [decodeFrom, leads] at reads
      cases reads
  | case4 index first rest taken leads =>
      rw [decodeFrom, leads] at reads
      cases reads

/-- Bytes that decode are the bytes of the characters that they decode to. -/
theorem encode_of_decode
    {bytes : List UInt8}
    {characters : List Char}
    (reads : decode bytes = .ok characters) :
    encode characters = bytes :=
  encode_of_decodeFrom reads

end CaptureFormat.Utf8
