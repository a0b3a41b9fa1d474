namespace CaptureFormat.Utf8

/-!
# UTF-8

Characters are written as one to four bytes.  A first byte fixes how many
bytes follow it and between which bounds the second one lies, which is what
keeps overlong forms, surrogates, and code points past U+10FFFF out.

`encode` writes characters.  `leading` looks at the start of a byte sequence
and says what stands there, and three readers are built on it: `decode` stops
at the first fault, `lossy` puts U+FFFD for each faulty run, and `pieces`
keeps every byte that belongs to no character.  `front` cuts a sequence short
by a scan of its own, which measures one character at a time and asks only
whether its bytes are text.
-/

/-- The bytes of a list of characters. -/
def encode (characters : List Char) : List UInt8 :=
  characters.flatMap String.utf8EncodeChar

/-- The number of bytes that `encode` writes. -/
def size : List Char → Nat
  | [] => 0
  | first :: rest => first.utf8Size + size rest

@[simp]
theorem encode_nil : encode [] = [] :=
  rfl

@[simp]
theorem encode_cons (first : Char) (rest : List Char) :
    encode (first :: rest) = String.utf8EncodeChar first ++ encode rest :=
  rfl

@[simp]
theorem encode_append (left right : List Char) :
    encode (left ++ right) = encode left ++ encode right :=
  List.flatMap_append

@[simp]
theorem size_nil : size [] = 0 :=
  rfl

@[simp]
theorem size_cons (first : Char) (rest : List Char) :
    size (first :: rest) = first.utf8Size + size rest :=
  rfl

@[simp]
theorem size_append (left right : List Char) :
    size (left ++ right) = size left + size right := by
  induction left with
  | nil =>
      simp
  | cons first rest inductionHypothesis =>
      simp [inductionHypothesis, Nat.add_assoc]

/-- `size` counts the bytes that `encode` writes. -/
theorem length_encode (characters : List Char) :
    (encode characters).length = size characters := by
  induction characters with
  | nil =>
      rfl
  | cons first rest inductionHypothesis =>
      simp [inductionHypothesis]

/-- The bytes of a text are those that it is stored in. -/
theorem encode_toList (text : String) :
    encode text.toList = text.toByteArray.data.toList := by
  conv => rhs; rw [← String.ofList_toList (s := text)]
  rw [String.toByteArray_ofList]
  simp [List.utf8Encode, encode]

/-- The size of a text is the number of bytes that `encode` writes for it. -/
theorem utf8ByteSize_eq_size (text : String) :
    text.utf8ByteSize = size text.toList := by
  rw [← length_encode, encode_toList]
  rfl

/--
What a first byte promises: how many bytes follow it, the bits that it adds
to the code point, and the bounds of the byte after it.
-/
structure Promise where
  following : Nat
  payload : Nat
  low : UInt8
  high : UInt8
  deriving Repr, DecidableEq

/-- The promise of a first byte; continuation bytes, C0, C1, and F5 to FF make none. -/
def promise? (byte : UInt8) : Option Promise :=
  let value := byte.toNat
  if value < 0x80 then some ⟨0, value, 0x80, 0xBF⟩
  else if value < 0xC2 then none
  else if value < 0xE0 then some ⟨1, value - 0xC0, 0x80, 0xBF⟩
  else if value = 0xE0 then some ⟨2, 0, 0xA0, 0xBF⟩
  else if value = 0xED then some ⟨2, 0xD, 0x80, 0x9F⟩
  else if value < 0xF0 then some ⟨2, value - 0xE0, 0x80, 0xBF⟩
  else if value = 0xF0 then some ⟨3, 0, 0x90, 0xBF⟩
  else if value < 0xF4 then some ⟨3, value - 0xF0, 0x80, 0xBF⟩
  else if value = 0xF4 then some ⟨3, 4, 0x80, 0x8F⟩
  else none

/-- What stands at the start of a byte sequence. -/
inductive Leading where
  /-- A character, written with this many bytes. -/
  | character : Char → Nat → Leading
  /-- This many bytes that no further byte can turn into a character. -/
  | malformed : Nat → Leading
  /-- A character cut off by the end of the sequence after this many bytes. -/
  | truncated : Nat → Leading
  deriving Repr, DecidableEq

/--
Read the bytes that a first byte promised.  `value` is the code point so far,
`taken` counts the bytes read, and the bounds hold for the next byte only.
-/
def follow
    (low high : UInt8)
    (value taken : Nat) :
    Nat → List UInt8 → Leading
  | 0, _ => .character (Char.ofNat value) taken
  | _ + 1, [] => .truncated taken
  | remaining + 1, byte :: rest =>
      if low ≤ byte ∧ byte ≤ high then
        follow 0x80 0xBF (value * 64 + byte.toNat % 64) (taken + 1) remaining rest
      else
        .malformed taken

/-- What stands at the start of the bytes `first :: rest`. -/
def leading (first : UInt8) (rest : List UInt8) : Leading :=
  match promise? first with
  | none => .malformed 1
  | some promise => follow promise.low promise.high promise.payload 1 promise.following rest

/-- A byte sequence cut into characters and the bytes that belong to none. -/
inductive Piece where
  | character : Char → Piece
  | byte : UInt8 → Piece
  deriving Repr, DecidableEq

/-- The bytes that a piece stands for. -/
def Piece.bytes : Piece → List UInt8
  | .character letter => String.utf8EncodeChar letter
  | .byte single => [single]

/-- Cut a byte sequence into its pieces; every byte of a faulty run is a piece of its own. -/
def pieces : List UInt8 → List Piece
  | [] => []
  | first :: rest =>
      match leading first rest with
      | .character letter taken =>
          .character letter :: pieces (rest.drop (taken - 1))
      | .malformed taken =>
          ((first :: rest).take taken).map .byte ++ pieces (rest.drop (taken - 1))
      | .truncated _ => (first :: rest).map .byte
  termination_by bytes => bytes.length
  decreasing_by all_goals grind

/-- The character that stands for bytes that cannot be read. -/
def replacement : Char := '\uFFFD'

/-- Read all bytes, with one replacement character for each faulty run. -/
def lossy : List UInt8 → List Char
  | [] => []
  | first :: rest =>
      match leading first rest with
      | .character letter taken => letter :: lossy (rest.drop (taken - 1))
      | .malformed taken => replacement :: lossy (rest.drop (taken - 1))
      | .truncated _ => [replacement]
  termination_by bytes => bytes.length
  decreasing_by all_goals grind

/-- Why bytes are not UTF-8, with the number of bytes before the fault. -/
inductive Fault where
  /-- This many bytes at this index can never be part of a character. -/
  | invalid (count index : Nat)
  /-- The bytes end inside the character that starts at this index. -/
  | incomplete (index : Nat)
  deriving Repr, DecidableEq

/-- The wording of a fault. -/
def Fault.message : Fault → String
  | .invalid count index =>
      "invalid utf-8 sequence of " ++ count.repr ++ " bytes from index " ++ index.repr
  | .incomplete index =>
      "incomplete utf-8 byte sequence from index " ++ index.repr

/-- Read all bytes, which start at `index`, or report the first fault. -/
def decodeFrom (index : Nat) : List UInt8 → Except Fault (List Char)
  | [] => .ok []
  | first :: rest =>
      match leading first rest with
      | .character letter taken =>
          (decodeFrom (index + taken) (rest.drop (taken - 1))).map (letter :: ·)
      | .malformed taken => .error (.invalid taken index)
      | .truncated _ => .error (.incomplete index)
  termination_by bytes => bytes.length
  decreasing_by all_goals grind

/-- Read all bytes or report the first fault. -/
def decode (bytes : List UInt8) : Except Fault (List Char) :=
  decodeFrom 0 bytes

/-- Whether bytes are the bytes of some text. -/
def isText (bytes : List UInt8) : Bool :=
  (decode bytes).isOk

/-- The number of bytes of a character with this first byte; continuation bytes start none. -/
def announced? (first : UInt8) : Option Nat :=
  let value := first.toNat
  if value < 0x80 then some 1
  else if value < 0xC2 then none
  else if value < 0xE0 then some 2
  else if value < 0xF0 then some 3
  else if value < 0xF5 then some 4
  else none

/-- The number of bytes of the character at the start of `first :: rest`, or 1 if there is none. -/
def leadingLength (first : UInt8) (rest : List UInt8) : Nat :=
  match announced? first with
  | some length =>
      if length ≤ rest.length + 1 ∧ isText ((first :: rest).take length) = true then
        length
      else
        1
  | none => 1

/-- The front of a byte sequence with at most so many characters, each faulty byte counted as one. -/
def front : Nat → List UInt8 → List UInt8
  | 0, _ => []
  | _ + 1, [] => []
  | count + 1, first :: rest =>
      let length := leadingLength first rest
      (first :: rest).take length ++ front count ((first :: rest).drop length)

end CaptureFormat.Utf8
