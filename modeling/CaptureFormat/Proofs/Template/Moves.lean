import CaptureFormat.Proofs.Template.ByteReader
import CaptureFormat.Proofs.Template.Place

namespace CaptureFormat

/-!
# Any sequence of moves

A place may be moved, kept, and taken back up in any order.  As an offset it
then runs through the same places as between characters: it never gets inside a
character or past the end, and only taking up a kept place brings it back.  So
a text can be cut between any two offsets that were seen, and what is cut out is
what stands between their places.
-/

/-- A move of a place; what is searched is an ASCII character. -/
inductive Move where
  | pass
  | passIf (expected : Char)
  | passNumber (cap : UInt64)
  | passTo (target : UInt8) (ascii : target.toNat < 0x80)

/-- What a move says. -/
inductive Answer where
  | nothing
  | found (isFound : Bool)
  | number (value : Option UInt64)
  deriving Repr, DecidableEq

/-- Make a move between characters. -/
def Place.make (place : Place) : Move → Answer × Place
  | .pass => (.nothing, place.pass)
  | .passIf expected => (place.passIf expected).map .found id
  | .passNumber cap => (place.passNumber cap).map .number id
  | .passTo target _ =>
      (place.passTo (Char.ofNat target.toNat)).map .found id

/-- Make a move by offsets. -/
def BytePlace.make? (place : BytePlace) : Move → Option (Answer × BytePlace)
  | .pass => place.pass?.map fun after => (.nothing, after)
  | .passIf expected => (place.passIf? expected).map (Prod.map .found id)
  | .passNumber cap => (place.passNumber? cap).map (Prod.map .number id)
  | .passTo target _ => (place.passTo? target).map (Prod.map .found id)

/-- A place with the places that are kept, the last one first. -/
structure Scan (π : Type) where
  place : π
  kept : List π := []

/-- What can be done with a place: move it, keep it, or take a kept one up again. -/
inductive Command where
  | move (move : Move)
  | keep
  | takeUp (age : Nat)

namespace Scan

variable {m : Type → Type} [Monad m]
variable {π : Type}

/-- Do one command; without a kept place of that age, the place stays. -/
def step
    (make : π → Move → m (Answer × π))
    (scan : Scan π) :
    Command → m (Scan π)
  | .move move => do
      let (_, place) ← make scan.place move
      return { scan with place }
  | .keep => return { scan with kept := scan.place :: scan.kept }
  | .takeUp age => return { scan with place := scan.kept.getD age scan.place }

/-- Do commands one after the other. -/
def run
    (make : π → Move → m (Answer × π))
    (scan : Scan π)
    (commands : List Command) :
    m (Scan π) :=
  commands.foldlM (step make) scan

/-- The same scan with other places. -/
def map
    (view : π → σ)
    (scan : Scan π) :
    Scan σ where
  place := view scan.place
  kept := scan.kept.map view

end Scan

/-- Commands from the start of a text, between characters. -/
def Place.run
    (text : String)
    (commands : List Command) :
    Scan Place :=
  Id.run (Scan.run (m := Id) make { place := start text } commands)

/-- Commands from the start of a text, by offsets. -/
def BytePlace.run?
    (text : String)
    (commands : List Command) :
    Option (Scan BytePlace) :=
  Scan.run make? { place := { text } } commands

/-- What a move passes of the characters in front of it, what it says, and what it leaves. -/
inductive Move.Passes : Move → List Char → Answer → List Char → List Char → Prop where
  | pass
      {next : Char}
      {rest : List Char} :
      Passes .pass (next :: rest) .nothing [next] rest
  | passNothing :
      Passes .pass [] .nothing [] []
  | passIf
      {expected : Char}
      {rest : List Char} :
      Passes (.passIf expected) (expected :: rest) (.found true) [expected] rest
  | passIfOther
      {expected : Char}
      {text : List Char} :
      text.head? ≠ some expected →
      Passes (.passIf expected) text (.found false) [] text
  | passNumber
      {cap value : UInt64}
      {digits rest : List Char} :
      digits ≠ [] →
      MaximalRun (fun character => character.isDigit = true) digits rest →
      value.toNat = min (Nat.ofDigitChars 10 digits 0) cap.toNat →
      Passes (.passNumber cap) (digits ++ rest) (.number (some value)) digits rest
  | passNoNumber
      {cap : UInt64}
      {text : List Char} :
      (∀ next ∈ text.head?, next.isDigit = false) →
      Passes (.passNumber cap) text (.number none) [] text
  | passTo
      {target : UInt8}
      {ascii : target.toNat < 0x80}
      {taken rest : List Char} :
      Char.ofNat target.toNat ∉ taken →
      Passes (.passTo target ascii)
        (taken ++ Char.ofNat target.toNat :: rest) (.found true)
        taken (Char.ofNat target.toNat :: rest)
  | passToEnd
      {target : UInt8}
      {ascii : target.toNat < 0x80}
      {text : List Char} :
      Char.ofNat target.toNat ∉ text →
      Passes (.passTo target ascii) text (.found false) text []

namespace Place

/-- Every move passes what it should of the characters in front of it. -/
theorem passes_make
    (place : Place)
    (move : Move) :
    ∃ taken,
      move.Passes place.rest (place.make move).1 taken (place.make move).2.rest ∧
        (place.make move).2.passed = taken.reverse ++ place.passed := by
  rcases place with ⟨passed, text⟩
  cases move with
  | pass =>
      cases text with
      | nil =>
          exact ⟨[], .passNothing, rfl⟩
      | cons next rest =>
          exact ⟨[next], .pass, rfl⟩
  | passIf expected =>
      by_cases isNext : text.head? = some expected
      · obtain ⟨rest, rfl⟩ := List.head?_eq_some_iff.mp isNext
        have passedNext :
            passIf ⟨passed, expected :: rest⟩ expected =
              (true, ⟨expected :: passed, rest⟩) :=
          if_pos rfl
        simp only [make, passedNext]
        exact ⟨[expected], .passIf, rfl⟩
      · have stays : passIf ⟨passed, text⟩ expected = (false, ⟨passed, text⟩) :=
          if_neg isNext
        simp only [make, stays]
        exact ⟨[], .passIfOther isNext, rfl⟩
  | passNumber cap =>
      obtain ⟨digits, rest, rfl, isRun⟩ :=
        MaximalRun.exists_split Char.isDigit text
      simp only [make, passNumber_of_run passed cap isRun]
      by_cases nothing : digits = []
      · subst nothing
        refine ⟨[], .passNoNumber ?_, rfl⟩
        intro next isNext
        exact Bool.eq_false_of_not_eq_true (isRun.stops next isNext)
      · simp only [if_neg nothing]
        exact
          ⟨digits,
            .passNumber nothing isRun (Count.toNat_ofDigits cap digits), rfl⟩
  | passTo target ascii =>
      obtain ⟨run, rest, rfl, isRun⟩ :=
        MaximalRun.exists_split (· != Char.ofNat target.toNat) text
      have absent : Char.ofNat target.toNat ∉ run := by
        intro member
        simpa using isRun.passes _ member
      simp only [make, passTo_of_run passed isRun]
      cases rest with
      | nil =>
          rw [List.append_nil]
          exact ⟨run, .passToEnd absent, rfl⟩
      | cons next others =>
          obtain rfl : next = Char.ofNat target.toNat := by
            simpa using isRun.stops next rfl
          exact ⟨run, .passTo absent, rfl⟩

/-- The same move is made by an offset. -/
theorem make?_inBytes
    (place : Place)
    (move : Move) :
    place.inBytes.make? move =
      some ((place.make move).map id inBytes) := by
  cases move with
  | pass =>
      rw [BytePlace.make?, pass?_inBytes]
      rfl
  | passIf expected =>
      rw [BytePlace.make?, passIf?_inBytes]
      rfl
  | passNumber cap =>
      rw [BytePlace.make?, passNumber?_inBytes]
      rfl
  | passTo target ascii =>
      rw [BytePlace.make?, passTo?_inBytes _ ascii]
      rfl

end Place

/-- What a move passes and what it leaves are the characters in front of it. -/
theorem Move.Passes.append_eq
    {move : Move}
    {answer : Answer}
    {text taken rest : List Char}
    (passes : move.Passes text answer taken rest) :
    taken ++ rest = text := by
  cases passes <;> simp

/-- A place is in a text if it keeps its characters. -/
def Place.IsIn
    (text : String)
    (place : Place) : Prop :=
  place.passed.reverse ++ place.rest = text.toList

namespace Place

theorem isIn_start (text : String) :
    (start text).IsIn text :=
  rfl

/-- A move stays in the text. -/
theorem IsIn.make
    {text : String}
    {place : Place}
    (isIn : place.IsIn text)
    (move : Move) :
    (place.make move).2.IsIn text := by
  obtain ⟨taken, passes, passed⟩ := place.passes_make move
  rw [IsIn, passed, List.reverse_append, List.reverse_reverse,
    List.append_assoc, passes.append_eq]
  exact isIn

/-- A move goes no way back. -/
theorem offset_le_make
    (place : Place)
    (move : Move) :
    place.offset ≤ (place.make move).2.offset := by
  obtain ⟨taken, passes, passed⟩ := place.passes_make move
  rw [offset, offset, passed, Utf8.size_append]
  exact Nat.le_add_left _ _

end Place

namespace Scan

/-- A scan is in a text if its place and all kept places are. -/
def IsIn
    (text : String)
    (scan : Scan Place) : Prop :=
  ∀ place ∈ scan.place :: scan.kept, place.IsIn text

/-- A command stays in the text. -/
theorem IsIn.step
    {text : String}
    {scan : Scan Place}
    (isIn : scan.IsIn text)
    (command : Command) :
    (Id.run (scan.step (m := Id) Place.make command)).IsIn text := by
  obtain ⟨placeIn, keptIn⟩ := List.forall_mem_cons.mp isIn
  cases command with
  | move move =>
      exact List.forall_mem_cons.mpr ⟨placeIn.make move, keptIn⟩
  | keep =>
      exact List.forall_mem_cons.mpr ⟨placeIn, isIn⟩
  | takeUp age =>
      refine List.forall_mem_cons.mpr ⟨?_, keptIn⟩
      change (scan.kept.getD age scan.place).IsIn text
      rw [List.getD_eq_getElem?_getD]
      cases found : scan.kept[age]? with
      | none =>
          exact placeIn
      | some place =>
          exact keptIn place (List.mem_of_getElem? found)

/-- The same command is done by offsets. -/
theorem step_inBytes
    (scan : Scan Place)
    (command : Command) :
    (scan.map Place.inBytes).step BytePlace.make? command =
      some ((Id.run (scan.step (m := Id) Place.make command)).map Place.inBytes) := by
  cases command with
  | move move =>
      have made := scan.place.make?_inBytes move
      simp only [step, map, made]
      rfl
  | keep =>
      rfl
  | takeUp age =>
      simp [step, map, List.getD_eq_getElem?_getD]

/-- Whatever is done stays in the text. -/
theorem IsIn.run
    {text : String}
    {scan : Scan Place}
    (isIn : scan.IsIn text)
    (commands : List Command) :
    (Id.run (scan.run (m := Id) Place.make commands)).IsIn text := by
  induction commands generalizing scan with
  | nil =>
      exact isIn
  | cons command rest inductionHypothesis =>
      exact inductionHypothesis (isIn.step command)

/-- The same commands are done by offsets, and none of them fails. -/
theorem run_inBytes
    (scan : Scan Place)
    (commands : List Command) :
    (scan.map Place.inBytes).run BytePlace.make? commands =
      some ((Id.run (scan.run (m := Id) Place.make commands)).map Place.inBytes) := by
  induction commands generalizing scan with
  | nil =>
      rfl
  | cons command rest inductionHypothesis =>
      have first := scan.step_inBytes command
      have behind :=
        inductionHypothesis (Id.run (scan.step (m := Id) Place.make command))
      rw [run, List.foldlM_cons, first]
      exact behind

end Scan

/-- An offset between two characters of a text, with all that is seen from there. -/
structure BytePlace.Splits
    (place : BytePlace)
    (text : String)
    (front rest : List Char) : Prop where
  whole : front ++ rest = text.toList
  source : place.text = text
  offset : place.offset = (String.ofList front).utf8ByteSize
  boundary : Utf8.isBoundary (Utf8.encode text.toList) place.offset = true
  inside : place.offset ≤ text.utf8ByteSize
  next : place.next? = some rest.head?
  second : place.second? = some rest.tail.head?
  atEnd : place.atEnd = rest.isEmpty
  remainder : place.remainder? = some (String.ofList rest)

namespace Place

/-- A place in a text is between characters. -/
theorem IsIn.splits
    {text : String}
    {place : Place}
    (isIn : place.IsIn text) :
    place.inBytes.Splits text place.passed.reverse place.rest where
  whole := isIn
  source := by
    rw [inBytes, BytePlace.between, isIn, String.ofList_toList]
  offset := by
    rw [Utf8.utf8ByteSize_eq_size, String.toList_ofList]
    rfl
  boundary :=
    Utf8.isBoundary_encode_iff.mpr ⟨place.passed.reverse, place.rest, isIn, rfl⟩
  inside := by
    rw [Utf8.utf8ByteSize_eq_size, ← isIn, Utf8.size_append]
    exact Nat.le_add_right _ _
  next := place.next?_inBytes
  second := place.second?_inBytes
  atEnd := place.atEnd_inBytes
  remainder := place.remainder?_inBytes

/-- Between two places of a text stands what only the later one has passed. -/
theorem IsIn.textSince?
    {text : String}
    {earlier later : Place}
    (earlierIn : earlier.IsIn text)
    (laterIn : later.IsIn text)
    (ordered : earlier.offset ≤ later.offset) :
    ∃ middle,
      earlier.passed.reverse ++ middle = later.passed.reverse ∧
        later.textSince? earlier.offset = some (String.ofList middle) := by
  rw [offset, offset, ← Utf8.size_reverse, ← Utf8.size_reverse later.passed]
    at ordered
  obtain ⟨middle, passed⟩ :=
    Utf8.exists_append_of_size_le (earlierIn.trans laterIn.symm) ordered
  refine ⟨middle, passed, ?_⟩
  have dropped :
      dropBytes? earlier.offset later.passed.reverse = some middle :=
    dropBytes?_eq_some_iff.mpr
      ⟨earlier.passed.reverse, passed, Utf8.size_reverse earlier.passed⟩
  rw [Place.textSince?, dropped]
  rfl

/-- Commands from the start of a text stay in it. -/
theorem isIn_run
    (text : String)
    (commands : List Command) :
    (run text commands).place.IsIn text := by
  have isIn : Scan.IsIn text { place := start text } := by
    simpa [Scan.IsIn] using isIn_start text
  exact (isIn.run commands) _ List.mem_cons_self

/-- One more command is done behind the others. -/
theorem run_concat
    (text : String)
    (commands : List Command)
    (command : Command) :
    run text (commands ++ [command]) =
      Id.run ((run text commands).step (m := Id) make command) := by
  rw [run, Scan.run, List.foldlM_append]
  rfl

/-- Only taking up a kept place goes a way back. -/
theorem offset_le_run_concat
    (text : String)
    (commands : List Command)
    (command : Command) :
    (∃ age, command = .takeUp age) ∨
      (run text commands).place.offset ≤
        (run text (commands ++ [command])).place.offset := by
  rw [run_concat]
  cases command with
  | move move =>
      exact .inr (offset_le_make _ move)
  | keep =>
      exact .inr (Nat.le_refl _)
  | takeUp age =>
      exact .inl ⟨age, rfl⟩

/--
Whatever is done with an offset in a text, it stays between two characters and
sees those behind it.  A move passes what it should, only taking up a kept place
goes a way back, and what is cut out between two offsets is what stands between
their places.  So no template is cut inside a character when it is read.
-/
theorem run_between_characters
    (text : String)
    (commands : List Command) :
    BytePlace.run? text commands = some ((run text commands).map inBytes) ∧
      (run text commands).place.inBytes.Splits text
        (run text commands).place.passed.reverse
        (run text commands).place.rest ∧
      (∀ move,
        let place := (run text commands).place
        let after := place.make move
        place.inBytes.make? move = some (after.map id inBytes) ∧
          ∃ taken,
            move.Passes place.rest after.1 taken after.2.rest ∧
              after.2.passed.reverse = place.passed.reverse ++ taken) ∧
      (∀ command,
        (∃ age, command = .takeUp age) ∨
          (run text commands).place.inBytes.offset ≤
            (run text (commands ++ [command])).place.inBytes.offset) ∧
      (∀ earlier,
        let start := (run text earlier).place
        let place := (run text commands).place
        start.inBytes.offset ≤ place.inBytes.offset →
        ∃ middle,
          start.passed.reverse ++ middle = place.passed.reverse ∧
            place.textSince? start.offset = some (String.ofList middle) ∧
            place.inBytes.textSince? start.inBytes.offset =
              some (String.ofList middle)) ∧
      ∀ (grammar : Grammar) (events : List Event),
        grammar.Gives { place := { text } } events ↔
          events = grammar.events text := by
  refine ⟨?_, (isIn_run text commands).splits, ?_, ?_, ?_,
    fun grammar => grammar.gives_iff text⟩
  · have reached := Scan.run_inBytes { place := start text } commands
    rwa [Scan.map, inBytes_start] at reached
  · intro move place after
    obtain ⟨taken, passes, passed⟩ := place.passes_make move
    refine ⟨place.make?_inBytes move, taken, passes, ?_⟩
    rw [passed, List.reverse_append, List.reverse_reverse]
  · intro command
    rw [offset_inBytes, offset_inBytes]
    exact offset_le_run_concat text commands command
  · intro earlier start place ordered
    rw [offset_inBytes, offset_inBytes] at ordered
    obtain ⟨middle, between, found⟩ :=
      (isIn_run text earlier).textSince? (isIn_run text commands) ordered
    refine ⟨middle, between, found, ?_⟩
    rw [textSince?_inBytes, offset_inBytes, found]

/-- A character of three bytes is cut out whole. -/
theorem run_between_characters_multibyte :
    (run "a日b" [.move .pass]).place.inBytes.offset = 1 ∧
      (run "a日b" [.move .pass, .move .pass]).place.inBytes.offset = 4 ∧
      (run "a日b" [.move .pass, .move .pass]).place.inBytes.textSince? 1 =
        some "日" := by
  obtain ⟨_, _, _, _, slices, _⟩ :=
    run_between_characters "a日b" [.move .pass, .move .pass]
  obtain ⟨middle, between, _, found⟩ := slices [.move .pass] (by decide)
  refine ⟨by decide, by decide, ?_⟩
  obtain rfl : middle = ['日'] := (List.cons.inj between).2
  exact found

end Place

end CaptureFormat
