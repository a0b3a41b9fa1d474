import CaptureFormat.Proofs.Numeral.Reading
import CaptureFormat.Proofs.Text.Pieces
import CaptureFormat.Text.Quoted
import Mathlib.Data.List.Basic

namespace CaptureFormat.Quoted

/-!
# Quoted text reads back

`read?` takes what stands between two quotes from left to right.  An escape
stands for a character, a code point, or a byte, and whatever is no escape
stands for itself.  `Quotes` says of a quoted text that it reads back as some
bytes and that it is safe to show: no quote inside it ends it early, and every
character is printable.

A quoted text is made of units that are read one after another, whatever comes
behind them.  So a property of all units is one of the text.
-/

open Numeral Printable

section Reader

/-- The character that a letter names behind a backslash. -/
def namedControl? : Char → Option Char
  | 'a' => some '\x07'
  | 'b' => some '\x08'
  | 't' => some '\t'
  | 'n' => some '\n'
  | 'v' => some '\x0B'
  | 'f' => some '\x0C'
  | 'r' => some '\r'
  | _ => none

/-- The number that so many hex digits at the start of a text stand for, and the rest. -/
def readHex? (count : Nat) (text : List Char) : Option (Nat × List Char) :=
  if count ≤ text.length then
    (read? 16 .lower ((text.take count).map Char.toLower)).map
      (·, text.drop count)
  else
    none

/-- A code point as bytes; a surrogate has none. -/
def codeBytes? (code : Nat) : Option (List UInt8) :=
  if code.isValidChar then
    some (String.utf8EncodeChar (Char.ofNat code))
  else
    none

/-- What an escape with a letter stands for, and the rest behind it. -/
def readCode? (letter : Char) (text : List Char) : Option (List UInt8 × List Char) :=
  match letter with
  | 'x' =>
      (readHex? 2 text).map fun hex => ([UInt8.ofNat hex.1], hex.2)
  | 'u' =>
      (readHex? 4 text).bind fun hex => (codeBytes? hex.1).map (·, hex.2)
  | 'U' =>
      (readHex? 8 text).bind fun hex => (codeBytes? hex.1).map (·, hex.2)
  | _ => none

/-- What the first unit of a text stands for, and the rest behind it. -/
def readUnit? (quote : Char) : List Char → Option (List UInt8 × List Char)
  | [] => none
  | ['\\'] => none
  | '\\' :: letter :: rest =>
      if letter = quote ∨ letter = '\\' then
        some (String.utf8EncodeChar letter, rest)
      else
        match namedControl? letter with
        | some control => some (String.utf8EncodeChar control, rest)
        | none => readCode? letter rest
  | single :: rest => some (String.utf8EncodeChar single, rest)

theorem length_le_of_readHex?
    {count value : Nat}
    {text rest : List Char}
    (reads : readHex? count text = some (value, rest)) :
    rest.length ≤ text.length := by
  unfold readHex? at reads
  split at reads
  · obtain ⟨_, _, shape⟩ := Option.map_eq_some_iff.mp reads
    cases shape
    rw [List.length_drop]
    omega
  · cases reads

theorem length_le_of_readCode?
    {letter : Char}
    {bytes : List UInt8}
    {text rest : List Char}
    (reads : readCode? letter text = some (bytes, rest)) :
    rest.length ≤ text.length := by
  unfold readCode? at reads
  split at reads
  · obtain ⟨hex, readsHex, shape⟩ := Option.map_eq_some_iff.mp reads
    cases shape
    exact length_le_of_readHex? readsHex
  · obtain ⟨hex, readsHex, reads⟩ := Option.bind_eq_some_iff.mp reads
    obtain ⟨_, _, shape⟩ := Option.map_eq_some_iff.mp reads
    cases shape
    exact length_le_of_readHex? readsHex
  · obtain ⟨hex, readsHex, reads⟩ := Option.bind_eq_some_iff.mp reads
    obtain ⟨_, _, shape⟩ := Option.map_eq_some_iff.mp reads
    cases shape
    exact length_le_of_readHex? readsHex
  · cases reads

/-- A unit takes at least one character. -/
theorem length_lt_of_readUnit?
    {quote : Char}
    {bytes : List UInt8}
    {text rest : List Char}
    (reads : readUnit? quote text = some (bytes, rest)) :
    rest.length < text.length := by
  unfold readUnit? at reads
  split at reads
  · cases reads
  · cases reads
  · next letter later =>
      rw [List.length_cons, List.length_cons]
      split at reads
      · cases reads
        omega
      · split at reads
        · cases reads
          omega
        · have shorter := length_le_of_readCode? reads
          omega
  · cases reads
    exact Nat.lt_succ_self _

/-- The bytes that the units of a text stand for, one after another. -/
def unescape? (quote : Char) : List Char → Option (List UInt8)
  | [] => some []
  | first :: rest =>
      match _ : readUnit? quote (first :: rest) with
      | none => none
      | some (bytes, behind) => (unescape? quote behind).map (bytes ++ ·)
  termination_by text => text.length
  decreasing_by exact length_lt_of_readUnit? (by assumption)

/-- What stands between the first and the last character of a text. -/
def interior (text : List Char) : List Char :=
  (text.drop 1).dropLast

/-- The bytes that a text between two quotes stands for. -/
def read? (quote : Char) (text : List Char) : Option (List UInt8) :=
  if text.head? = some quote ∧ (text.drop 1).getLast? = some quote then
    unescape? quote (interior text)
  else
    none

/-- Whether a text holds a quote without a backslash in front of it. -/
def hasBareQuote (quote : Char) : List Char → Bool
  | [] => false
  | '\\' :: _ :: rest => hasBareQuote quote rest
  | single :: rest => single == quote || hasBareQuote quote rest

end Reader

section Characters

variable {character : Char}

/-- The characters from the space to the tilde are printable. -/
theorem isPrintable_of_ascii
    (least : ' ' ≤ character)
    (most : character ≤ '~') :
    isPrintable character = true := by
  have low : 0x20 ≤ character.toNat := least
  have high : character.toNat ≤ 0x7E := most
  by_cases isSpace : character = ' '
  · rw [isSpace]
    rfl
  · have notSpace : character.toNat ≠ 0x20 := fun is =>
      isSpace (Char.toNat_inj.mp is)
    rw [isPrintable, Bool.or_eq_true]
    right
    simp only [isControl, isWhiteSpace, isNoncharacter, isPrivate, isFormat,
      Bool.not_eq_true', Bool.or_eq_false_iff, Bool.and_eq_false_imp,
      decide_eq_true_eq, decide_eq_false_iff_not, beq_eq_false_iff_ne]
    omega

/-- No other character below U+0080 is printable. -/
theorem ascii_of_isPrintable
    (printable : isPrintable character = true)
    (small : character.toNat < 0x80) :
    ' ' ≤ character ∧ character ≤ '~' := by
  have bounds : 0x20 ≤ character.toNat ∧ character.toNat ≤ 0x7E := by
    rw [isPrintable, Bool.or_eq_true, beq_iff_eq] at printable
    rcases printable with rfl | printable
    · decide
    · simp only [isControl] at printable
      grind
  exact bounds

/-- What is printable is no control, and no white space but U+0020. -/
theorem visible_of_isPrintable
    (printable : isPrintable character = true) :
    isControl character = false ∧
      (isWhiteSpace character = true → character = ' ') := by
  rw [isPrintable, Bool.or_eq_true, beq_iff_eq] at printable
  rcases printable with rfl | printable
  · exact ⟨rfl, fun _ => rfl⟩
  · simp only [Bool.not_eq_true', Bool.or_eq_false_iff] at printable
    obtain ⟨⟨⟨⟨notControl, notSpace⟩, _⟩, _⟩, _⟩ := printable
    exact
      ⟨notControl, fun isSpace =>
        absurd isSpace (Bool.eq_false_iff.mp notSpace)⟩

end Characters

/-- A quote that surrounds text with escapes. -/
def IsQuote (quote : Char) : Prop :=
  quote = '\x22' ∨ quote = '\x27'

section Units

variable
  {quote : Char}
  {asciiOnly : Bool}
  {bytes : List UInt8}
  {text : List Char}

/-- A text that is read as one unit, whatever comes behind it, and is safe to show. -/
structure IsUnit
    (quote : Char)
    (asciiOnly : Bool)
    (bytes : List UInt8)
    (text : List Char) : Prop where
  reads : ∀ rest, readUnit? quote (text ++ rest) = some (bytes, rest)
  guarded :
    ∀ rest, hasBareQuote quote (text ++ rest) = hasBareQuote quote rest
  printable : ∀ character ∈ text, isPrintable character = true
  ascii :
    asciiOnly = true →
    ∀ character ∈ text, ' ' ≤ character ∧ character ≤ '~'

theorem readUnit?_cons_of_ne
    {single : Char}
    (notBackslash : single ≠ '\\')
    (rest : List Char) :
    readUnit? quote (single :: rest) =
      some (String.utf8EncodeChar single, rest) := by
  rw [readUnit?]
  · exact fun isBackslash _ => notBackslash isBackslash
  · exact fun _ _ isBackslash _ => notBackslash isBackslash

theorem hasBareQuote_cons_of_ne
    {single : Char}
    (notBackslash : single ≠ '\\')
    (notQuote : single ≠ quote)
    (rest : List Char) :
    hasBareQuote quote (single :: rest) = hasBareQuote quote rest := by
  rw [hasBareQuote, beq_false_of_ne notQuote, Bool.false_or]
  exact fun _ _ isBackslash _ => notBackslash isBackslash

/-- Characters that are neither a quote nor a backslash do not hide a quote behind them. -/
theorem hasBareQuote_append
    {plain : List Char}
    (harmless :
      ∀ character ∈ plain, character ≠ '\\' ∧ character ≠ quote)
    (rest : List Char) :
    hasBareQuote quote (plain ++ rest) = hasBareQuote quote rest := by
  induction plain with
  | nil =>
      rfl
  | cons character others inductionHypothesis =>
      obtain ⟨⟨notBackslash, notQuote⟩, harmlessOthers⟩ :=
        List.forall_mem_cons.mp harmless
      rw [List.cons_append, hasBareQuote_cons_of_ne notBackslash notQuote,
        inductionHypothesis harmlessOthers]

/-- A character that shows as itself. -/
theorem isUnit_plain
    {character : Char}
    (notBackslash : character ≠ '\\')
    (notQuote : character ≠ quote)
    (printable : isPrintable character = true)
    (ascii : asciiOnly = true → character.toNat < 0x80) :
    IsUnit quote asciiOnly (String.utf8EncodeChar character)
      [character] where
  reads := readUnit?_cons_of_ne notBackslash
  guarded := hasBareQuote_cons_of_ne notBackslash notQuote
  printable := by simpa using printable
  ascii isAscii := by
    simpa using ascii_of_isPrintable printable (ascii isAscii)

/-- A backslash, a letter, and perhaps hex digits. -/
theorem isUnit_backslash
    (isQuote : IsQuote quote)
    {letter : Char}
    (least : ' ' ≤ letter)
    (most : letter ≤ '~')
    {digits : List Char}
    (hexDigits : ∀ digit ∈ digits, digit ∈ alphabet .lower)
    (reads :
      ∀ rest,
        readUnit? quote ('\\' :: letter :: (digits ++ rest)) =
          some (bytes, rest)) :
    IsUnit quote asciiOnly bytes ('\\' :: letter :: digits) := by
  have ascii :
      ∀ character ∈ '\\' :: letter :: digits,
        ' ' ≤ character ∧ character ≤ '~' := by
    have alphabetAscii :
        ∀ digit ∈ alphabet .lower, ' ' ≤ digit ∧ digit ≤ '~' :=
      List.forall_iff_forall_mem.mp (by decide)
    refine List.forall_mem_cons.mpr ⟨by decide, ?_⟩
    refine List.forall_mem_cons.mpr ⟨⟨least, most⟩, ?_⟩
    exact fun digit member => alphabetAscii digit (hexDigits digit member)
  have harmless :
      ∀ digit ∈ digits, digit ≠ '\\' ∧ digit ≠ quote := by
    have alphabetHarmless :
        ∀ digit ∈ alphabet .lower,
          digit ≠ '\\' ∧ digit ≠ '\x22' ∧ digit ≠ '\x27' :=
      List.forall_iff_forall_mem.mp (by decide)
    intro digit member
    obtain ⟨notBackslash, notDouble, notSingle⟩ :=
      alphabetHarmless digit (hexDigits digit member)
    rcases isQuote with rfl | rfl
    · exact ⟨notBackslash, notDouble⟩
    · exact ⟨notBackslash, notSingle⟩
  exact {
    reads
    guarded := fun rest => hasBareQuote_append harmless rest
    printable := fun character member =>
      isPrintable_of_ascii (ascii character member).1
        (ascii character member).2
    ascii := fun _ => ascii }

theorem readUnit?_backslash
    (letter : Char)
    (rest : List Char) :
    readUnit? quote ('\\' :: letter :: rest) =
      if letter = quote ∨ letter = '\\' then
        some (String.utf8EncodeChar letter, rest)
      else
        match namedControl? letter with
        | some control => some (String.utf8EncodeChar control, rest)
        | none => readCode? letter rest :=
  rfl

/-- The letter of a control names it. -/
theorem namedControl?_of_controlLetter?
    {character letter : Char}
    (isLetter : controlLetter? character = some letter) :
    namedControl? letter = some character ∧
      letter ∈ ['a', 'b', 't', 'n', 'v', 'f', 'r'] := by
  have named :
      ∀ {code : Nat} {control : Char},
        character.toNat = code →
        control.toNat = code →
        some control = some character := by
    intro code control isCode controlCode
    rw [Option.some_inj, ← Char.toNat_inj, controlCode, isCode]
  unfold controlLetter? at isLetter
  split at isLetter
  all_goals
    first
      | next isCode =>
          cases isLetter
          exact ⟨named isCode rfl, by decide⟩
      | cases isLetter

/-- The letters behind a backslash are no quotes and no backslash. -/
theorem not_quote_of_mem
    (isQuote : IsQuote quote)
    {letter : Char}
    (member : letter ∈ ['a', 'b', 't', 'n', 'v', 'f', 'r', 'x', 'u', 'U']) :
    ¬(letter = quote ∨ letter = '\\') := by
  have foreign :
      ∀ letter ∈ ['a', 'b', 't', 'n', 'v', 'f', 'r', 'x', 'u', 'U'],
        letter ≠ '\x22' ∧ letter ≠ '\x27' ∧ letter ≠ '\\' :=
    List.forall_iff_forall_mem.mp (by decide)
  obtain ⟨notDouble, notSingle, notBackslash⟩ := foreign letter member
  rcases isQuote with rfl | rfl
  · exact not_or.mpr ⟨notDouble, notBackslash⟩
  · exact not_or.mpr ⟨notSingle, notBackslash⟩

theorem readUnit?_code
    (isQuote : IsQuote quote)
    {letter : Char}
    (member : letter ∈ ['x', 'u', 'U'])
    (rest : List Char) :
    readUnit? quote ('\\' :: letter :: rest) = readCode? letter rest := by
  have unnamed : ∀ letter ∈ ['x', 'u', 'U'], namedControl? letter = none :=
    List.forall_iff_forall_mem.mp (by decide)
  have among :
      ∀ letter ∈ ['x', 'u', 'U'],
        letter ∈ ['a', 'b', 't', 'n', 'v', 'f', 'r', 'x', 'u', 'U'] :=
    List.forall_iff_forall_mem.mp (by decide)
  rw [readUnit?_backslash,
    if_neg (not_quote_of_mem isQuote (among letter member)),
    unnamed letter member]

/-- As many hex digits as a number was written with read back as that number. -/
theorem readHex?_padded
    {count code : Nat}
    (positive : 0 < count)
    (small : code < 16 ^ count)
    (rest : List Char) :
    readHex? count (padded 16 .lower count code ++ rest) =
      some (code, rest) := by
  have length : (padded 16 .lower count code).length = count :=
    length_padded_of_lt (by decide) positive small
  have lowerCase :
      (padded 16 .lower count code).map Char.toLower =
        padded 16 .lower count code := by
    have alphabetLower : ∀ digit ∈ alphabet .lower, digit.toLower = digit :=
      List.forall_iff_forall_mem.mp (by decide)
    refine (List.map_congr_left fun digit member => ?_).trans
      (List.map_id _)
    exact
      alphabetLower digit
        (mem_alphabet_of_mem_padded (by decide) (by decide) member)
  have enough :
      count ≤ (padded 16 .lower count code ++ rest).length := by
    rw [List.length_append]
    omega
  rw [readHex?, if_pos enough, List.take_left' length,
    List.drop_left' length, lowerCase,
    read?_padded (by decide) (by decide)]
  rfl

theorem hexDigits_padded (count code : Nat) :
    ∀ digit ∈ padded 16 .lower count code, digit ∈ alphabet .lower :=
  fun _ => mem_alphabet_of_mem_padded (by decide) (by decide)

/-- A byte in hexadecimal stands for itself. -/
theorem isUnit_byteEscape (isQuote : IsQuote quote) (byte : UInt8) :
    IsUnit quote asciiOnly [byte] (codeEscape 'x' 2 byte.toNat) := by
  refine isUnit_backslash isQuote (by decide) (by decide)
    (hexDigits_padded _ _) fun rest => ?_
  rw [readUnit?_code isQuote (by decide), readCode?,
    readHex?_padded (by decide) byte.toNat_lt, Option.map_some,
    UInt8.ofNat_toNat]

theorem codeBytes?_toNat (character : Char) :
    codeBytes? character.toNat =
      some (String.utf8EncodeChar character) := by
  have valid : character.toNat.isValidChar := character.valid
  rw [codeBytes?, if_pos valid, Char.ofNat_toNat]

/-- A code point with four hex digits stands for its character. -/
theorem isUnit_fourDigits
    (isQuote : IsQuote quote)
    {character : Char}
    (small : character.toNat < 0x10000) :
    IsUnit quote asciiOnly (String.utf8EncodeChar character)
      (codeEscape 'u' 4 character.toNat) := by
  refine isUnit_backslash isQuote (by decide) (by decide)
    (hexDigits_padded _ _) fun rest => ?_
  rw [readUnit?_code isQuote (by decide), readCode?,
    readHex?_padded (by decide) small, Option.bind_some,
    codeBytes?_toNat]
  rfl

/-- A code point with eight hex digits stands for its character. -/
theorem isUnit_eightDigits
    (isQuote : IsQuote quote)
    (character : Char) :
    IsUnit quote asciiOnly (String.utf8EncodeChar character)
      (codeEscape 'U' 8 character.toNat) := by
  have small : character.toNat < 16 ^ 8 :=
    Nat.lt_of_lt_of_le character.val.toNat_lt (by decide)
  refine isUnit_backslash isQuote (by decide) (by decide)
    (hexDigits_padded _ _) fun rest => ?_
  rw [readUnit?_code isQuote (by decide), readCode?,
    readHex?_padded (by decide) small, Option.bind_some,
    codeBytes?_toNat]
  rfl

theorem isUnit_unprintable
    (isQuote : IsQuote quote)
    (character : Char) :
    IsUnit quote asciiOnly (String.utf8EncodeChar character)
      (unprintable character) := by
  unfold unprintable
  split
  · next letter isLetter =>
      obtain ⟨named, member⟩ := namedControl?_of_controlLetter? isLetter
      have shown :
          ∀ letter ∈ ['a', 'b', 't', 'n', 'v', 'f', 'r'],
            (' ' ≤ letter ∧ letter ≤ '~') ∧
              letter ∈
                ['a', 'b', 't', 'n', 'v', 'f', 'r', 'x', 'u', 'U'] :=
        List.forall_iff_forall_mem.mp (by decide)
      obtain ⟨⟨least, most⟩, among⟩ := shown letter member
      refine isUnit_backslash isQuote least most (List.forall_mem_nil _)
        fun rest => ?_
      rw [readUnit?_backslash, if_neg (not_quote_of_mem isQuote among),
        named]
      rfl
  · simp only []
    split
    · next small =>
        have ascii : character.toNat < 0x80 := by omega
        have toNat :
            (UInt8.ofNat character.toNat).toNat = character.toNat := by
          rw [UInt8.toNat_ofNat']
          omega
        have bytes := Utf8.utf8EncodeChar_one (by rwa [toNat])
        rw [toNat, Char.ofNat_toNat] at bytes
        have unit :
            IsUnit quote asciiOnly [UInt8.ofNat character.toNat]
              (codeEscape 'x' 2 (UInt8.ofNat character.toNat).toNat) :=
          isUnit_byteEscape isQuote _
        rwa [toNat, ← bytes] at unit
    · split
      · next small =>
          exact isUnit_fourDigits isQuote small
      · exact isUnit_eightDigits isQuote character

/-- Every character stands for itself between quotes. -/
theorem isUnit_escape
    (isQuote : IsQuote quote)
    (character : Char) :
    IsUnit quote asciiOnly (String.utf8EncodeChar character)
      (escape quote asciiOnly character) := by
  unfold escape
  split
  · next escaped =>
      have ascii : ' ' ≤ character ∧ character ≤ '~' := by
        rcases isQuote with rfl | rfl <;> rcases escaped with rfl | rfl <;>
          decide
      refine isUnit_backslash isQuote ascii.1 ascii.2
        (List.forall_mem_nil _) fun rest => ?_
      rw [readUnit?_backslash, if_pos escaped]
      rfl
  · next notEscaped =>
      rw [not_or] at notEscaped
      split
      · next shown =>
          rw [Bool.and_eq_true, Bool.or_eq_true] at shown
          refine isUnit_plain notEscaped.2 notEscaped.1 shown.1
            fun isAscii => ?_
          simpa [isAscii] using shown.2
      · exact isUnit_unprintable isQuote character

/-- Every piece of a byte sequence stands for its bytes. -/
theorem isUnit_escapePiece (piece : Utf8.Piece) :
    IsUnit '\x22' asciiOnly piece.bytes (escapePiece asciiOnly piece) := by
  cases piece with
  | character letter =>
      exact isUnit_escape (Or.inl rfl) letter
  | byte single =>
      exact isUnit_byteEscape (Or.inl rfl) single

end Units

/-- A text between quotes that reads back as some bytes and is safe to show. -/
structure Quotes
    (quote : Char)
    (asciiOnly : Bool)
    (content : List UInt8)
    (text : List Char) : Prop where
  /-- The text reads back. -/
  reads : read? quote text = some content
  /-- No quote inside it ends it early. -/
  guarded : hasBareQuote quote (interior text) = false
  /-- Every character of it shows as itself. -/
  printable : ∀ character ∈ text, isPrintable character = true
  /-- There is no control in it, no line break, and no white space but U+0020. -/
  visible :
    ∀ character ∈ text,
      isControl character = false ∧
        (isWhiteSpace character = true → character = ' ')
  /-- It stays within ASCII if it is to. -/
  ascii :
    asciiOnly = true →
    ∀ character ∈ text, ' ' ≤ character ∧ character ≤ '~'

section Whole

variable
  {quote : Char}
  {asciiOnly : Bool}

theorem unescape?_of_readUnit?
    {text rest : List Char}
    {bytes : List UInt8}
    (reads : readUnit? quote text = some (bytes, rest)) :
    unescape? quote text = (unescape? quote rest).map (bytes ++ ·) := by
  cases text with
  | nil =>
      cases reads
  | cons first others =>
      rw [unescape?]
      split
      · next fails =>
          rw [fails] at reads
          cases reads
      · next found =>
          rw [found] at reads
          cases reads
          rfl

variable
  {items : List α}
  {meaning : α → List UInt8}
  {spell : α → List Char}

/-- Units behind each other stand for their bytes behind each other. -/
theorem unescape?_flatMap
    (units : ∀ item, IsUnit quote asciiOnly (meaning item) (spell item))
    (items : List α) :
    unescape? quote (items.flatMap spell) = some (items.flatMap meaning) := by
  induction items with
  | nil =>
      rw [List.flatMap_nil, unescape?]
      rfl
  | cons item rest inductionHypothesis =>
      rw [List.flatMap_cons,
        unescape?_of_readUnit? ((units item).reads _), inductionHypothesis]
      rfl

theorem hasBareQuote_flatMap
    (units : ∀ item, IsUnit quote asciiOnly (meaning item) (spell item))
    (items : List α) :
    hasBareQuote quote (items.flatMap spell) = false := by
  induction items with
  | nil =>
      rfl
  | cons item rest inductionHypothesis =>
      rw [List.flatMap_cons, (units item).guarded, inductionHypothesis]

theorem interior_enclose (quote : Char) (inner : List Char) :
    interior (enclose quote inner) = inner :=
  List.dropLast_concat

theorem read?_enclose (quote : Char) (inner : List Char) :
    read? quote (enclose quote inner) = unescape? quote inner := by
  have surrounded :
      (enclose quote inner).head? = some quote ∧
        ((enclose quote inner).drop 1).getLast? = some quote :=
    ⟨rfl, List.getLast?_concat⟩
  rw [read?, if_pos surrounded, interior_enclose]

/-- Quotes around units make a quoted text. -/
theorem quotes_of_units
    (isQuote : IsQuote quote)
    (units : ∀ item, IsUnit quote asciiOnly (meaning item) (spell item))
    (items : List α) :
    Quotes quote asciiOnly (items.flatMap meaning)
      (enclose quote (items.flatMap spell)) := by
  have quoteShown :
      isPrintable quote = true ∧ ' ' ≤ quote ∧ quote ≤ '~' := by
    rcases isQuote with rfl | rfl <;> decide
  have member :
      ∀ character ∈ enclose quote (items.flatMap spell),
        character = quote ∨ ∃ item, character ∈ spell item := by
    intro character isMember
    rw [enclose, List.mem_append, List.mem_cons, List.mem_singleton,
      List.mem_flatMap] at isMember
    rcases isMember with (isQuote | ⟨item, _, inside⟩) | isQuote
    · exact Or.inl isQuote
    · exact Or.inr ⟨item, inside⟩
    · exact Or.inl isQuote
  have printable :
      ∀ character ∈ enclose quote (items.flatMap spell),
        isPrintable character = true := by
    intro character isMember
    rcases member character isMember with rfl | ⟨item, inside⟩
    · exact quoteShown.1
    · exact (units item).printable character inside
  exact {
    reads := by
      rw [read?_enclose, unescape?_flatMap units]
    guarded := by
      rw [interior_enclose, hasBareQuote_flatMap units]
    printable
    visible := fun character isMember =>
      visible_of_isPrintable (printable character isMember)
    ascii := by
      intro isAscii character isMember
      rcases member character isMember with rfl | ⟨item, inside⟩
      · exact quoteShown.2
      · exact (units item).ascii isAscii character inside }

theorem quotes_text (asciiOnly : Bool) (characters : List Char) :
    Quotes '\x22' asciiOnly (Utf8.encode characters)
      (text asciiOnly characters) :=
  quotes_of_units (Or.inl rfl) (isUnit_escape (Or.inl rfl)) characters

theorem quotes_bytes (asciiOnly : Bool) (content : List UInt8) :
    Quotes '\x22' asciiOnly content (bytes asciiOnly content) := by
  have quotes :
      Quotes '\x22' asciiOnly ((Utf8.pieces content).flatMap Utf8.Piece.bytes)
        (bytes asciiOnly content) :=
    quotes_of_units (Or.inl rfl) isUnit_escapePiece (Utf8.pieces content)
  rwa [Utf8.flatMap_bytes_pieces] at quotes

theorem quotes_character (asciiOnly : Bool) (single : Char) :
    Quotes '\x27' asciiOnly (String.utf8EncodeChar single)
      (character asciiOnly single) := by
  have quotes :
      Quotes '\x27' asciiOnly ([single].flatMap String.utf8EncodeChar)
        (enclose '\x27' ([single].flatMap (escape '\x27' asciiOnly))) :=
    quotes_of_units (Or.inr rfl) (isUnit_escape (Or.inr rfl)) [single]
  rwa [List.flatMap_singleton, List.flatMap_singleton] at quotes

/-- What quoted texts that are equal read back as is equal. -/
theorem Quotes.inj
    {first second : List UInt8}
    {text : List Char}
    (quotesFirst : Quotes quote asciiOnly first text)
    (quotesSecond : Quotes quote asciiOnly second text) :
    first = second :=
  Option.some_inj.mp (quotesFirst.reads.symm.trans quotesSecond.reads)

end Whole

theorem text_injective (asciiOnly : Bool) :
    Function.Injective (text asciiOnly) := by
  intro first second same
  apply Utf8.encode_injective
  have quotes := quotes_text asciiOnly first
  rw [same] at quotes
  exact quotes.inj (quotes_text asciiOnly second)

theorem bytes_injective (asciiOnly : Bool) :
    Function.Injective (bytes asciiOnly) := by
  intro first second same
  have quotes := quotes_bytes asciiOnly first
  rw [same] at quotes
  exact quotes.inj (quotes_bytes asciiOnly second)

theorem character_injective (asciiOnly : Bool) :
    Function.Injective (character asciiOnly) := by
  intro first second same
  have quotes := quotes_character asciiOnly first
  rw [same] at quotes
  have bytes := quotes.inj (quotes_character asciiOnly second)
  exact (Utf8.utf8EncodeChar_append_inj (congrArg (· ++ []) bytes)).1

/-- Bytes of a text are quoted as the text is. -/
theorem bytes_encode (asciiOnly : Bool) (characters : List Char) :
    bytes asciiOnly (Utf8.encode characters) =
      text asciiOnly characters := by
  rw [bytes, pieces, Utf8.pieces_encode, List.flatMap_map]
  rfl

/-- What stands between the quotes begins with what would stand there for the first pieces. -/
theorem interior_front_prefix
    (asciiOnly : Bool)
    (count : Nat)
    (content : List UInt8) :
    interior (bytes asciiOnly (Utf8.front count content)) <+:
      interior (bytes asciiOnly content) := by
  rw [bytes, pieces, bytes, pieces, interior_enclose, interior_enclose,
    Utf8.pieces_front]
  conv => rhs; rw [← List.take_append_drop count (Utf8.pieces content)]
  rw [List.flatMap_append]
  exact List.prefix_append _ _

/-- Text fits between raw quotes if each of its characters may stand there. -/
theorem fitsRaw_iff {characters : List Char} :
    fitsRaw characters = true ↔
      ∀ single ∈ characters,
        single ≠ '\x60' ∧
          single ≠ '\uFEFF' ∧
          (isControl single = true → single = '\t') := by
  rw [fitsRaw, List.all_eq_true]
  refine forall_congr' fun single => imp_congr_right fun _ => ?_
  simp only [rawQuote, Bool.and_eq_true, Bool.or_eq_true, bne_iff_ne,
    beq_iff_eq, Bool.not_eq_true', and_assoc, and_congr_right_iff]
  intro _ _
  cases isControl single <;> simp

end CaptureFormat.Quoted
