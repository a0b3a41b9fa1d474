import CaptureFormat.Proofs.Text.Encoding
import CaptureFormat.Proofs.VerbMask.Membership
import Mathlib.Data.Set.Insert

namespace CaptureFormat.VerbMask

/-!
# Verb sets as sets of characters

A set of verbs stands for a set of characters.  A `Recipe` is a way to put one
together: `Recipe.build` does so with bits, and `Recipe.named` with sets of any
characters.  The bits hold the named characters that can be verbs and nothing
else, so it makes no difference whether the others are left out at every step or
at the end.

Two sets with the same members have the same bits.  So a set is what its list of
members is, and a text can be scanned for verbs byte by byte: no byte of a
longer character can be taken for one.
-/

/-- The characters that can be verbs: those of ASCII but the digits and the opening brace. -/
def possible : Set Char :=
  { verb | verb.toNat < 128 ∧ ¬('0' ≤ verb ∧ verb ≤ '9') ∧ verb ≠ '{' }

theorem admits_iff {verb : Char} :
    admits verb = true ↔ verb ∈ possible := by
  have digit : verb.isDigit = true ↔ '0' ≤ verb ∧ verb ≤ '9' := by
    simp [Char.isDigit, Char.le_def]
  rw [admits, Bool.and_eq_true, Bool.and_eq_true, decide_eq_true_eq,
    Bool.not_eq_true', bne_iff_ne, ← Bool.not_eq_true, digit, and_assoc]
  rfl

theorem toNat_ofNat_of_lt
    {index : Nat}
    (small : index < 128) :
    (Char.ofNat index).toNat = index :=
  Utf8.toNat_ofNat (Or.inl (by omega))

/-- Sets with the same members are the same set. -/
theorem eq_iff {left right : VerbMask} :
    left = right ↔ ∀ verb, verb ∈ left ↔ verb ∈ right := by
  constructor
  · rintro rfl verb
    exact Iff.rfl
  · intro sameMembers
    have sameBits : left.bits = right.bits := by
      apply BitVec.eq_of_getLsbD_eq
      intro index small
      have same := sameMembers (Char.ofNat index)
      rw [mem_iff, mem_iff, contains, contains, toNat_ofNat_of_lt small] at same
      exact Bool.eq_iff_iff.mpr same
    cases left
    cases right
    exact congrArg VerbMask.mk sameBits

/-- A set is empty exactly if it has no member. -/
theorem isEmpty_iff {verbs : VerbMask} :
    verbs.isEmpty = true ↔ ∀ verb, ¬verb ∈ verbs := by
  have isEmpty : verbs.isEmpty = true ↔ verbs = empty := by
    cases verbs
    simp [VerbMask.isEmpty, empty]
  rw [isEmpty, eq_iff]
  exact forall_congr' fun verb => iff_false_right mem_empty

/-- The list of a set holds its members. -/
theorem mem_toList {verbs : VerbMask} {verb : Char} :
    verb ∈ verbs.toList ↔ verb ∈ verbs := by
  simp only [toList, List.mem_map, List.mem_filter, List.mem_range]
  constructor
  · rintro ⟨index, ⟨small, isSet⟩, rfl⟩
    rw [mem_iff, contains, toNat_ofNat_of_lt small]
    exact isSet
  · intro member
    exact
      ⟨verb.toNat, ⟨BitVec.lt_of_getLsbD member, member⟩,
        Char.ofNat_toNat verb⟩

/-- The list of a set is in ASCII order, so no member stands in it twice. -/
theorem pairwise_toList (verbs : VerbMask) :
    verbs.toList.Pairwise (·.toNat < ·.toNat) := by
  have increasing :
      ((List.range 128).filter verbs.bits.getLsbD).Pairwise (· < ·) :=
    List.pairwise_lt_range.filter _
  rw [toList, List.pairwise_map]
  apply increasing.imp_of_mem
  intro earlier later earlierMember laterMember before
  have earlierSmall := List.mem_range.mp (List.mem_filter.mp earlierMember).1
  have laterSmall := List.mem_range.mp (List.mem_filter.mp laterMember).1
  rwa [toNat_ofNat_of_lt earlierSmall, toNat_ofNat_of_lt laterSmall]

theorem mem_ofList {characters : List Char} {verb : Char} :
    verb ∈ ofList characters ↔ verb ∈ characters ∧ verb ∈ possible := by
  have inserted :
      ∀ (characters : List Char) (verbs : VerbMask),
        verb ∈ characters.foldl insert verbs ↔
          verb ∈ verbs ∨ verb ∈ characters ∧ verb ∈ possible := by
    intro characters
    induction characters with
    | nil =>
        simp
    | cons first rest inductionHypothesis =>
        intro verbs
        rw [List.foldl_cons, inductionHypothesis, mem_insert, admits_iff,
          List.mem_cons]
        constructor
        · rintro ((earlier | ⟨canBe, rfl⟩) | ⟨later, canBe⟩)
          · exact Or.inl earlier
          · exact Or.inr ⟨Or.inl rfl, canBe⟩
          · exact Or.inr ⟨Or.inr later, canBe⟩
        · rintro (earlier | ⟨rfl | later, canBe⟩)
          · exact Or.inl (Or.inl earlier)
          · exact Or.inl (Or.inr ⟨canBe, rfl⟩)
          · exact Or.inr ⟨later, canBe⟩
  rw [ofList, inserted]
  exact or_iff_right mem_empty

/-- The set of the bytes that are verbs, as a scan of the bytes of a text finds them. -/
def ofBytes (bytes : List UInt8) : VerbMask :=
  ofList (bytes.map fun byte => Char.ofNat byte.toNat)

/-- A text has the same verbs for a scan of its bytes as for one of its characters. -/
theorem ofBytes_encode (characters : List Char) :
    ofBytes (Utf8.encode characters) = ofList characters := by
  rw [eq_iff]
  intro verb
  rw [ofBytes, mem_ofList, mem_ofList]
  refine and_congr_left fun canBe => ?_
  obtain ⟨ascii, _⟩ := canBe
  simp only [List.mem_map, Utf8.encode, List.mem_flatMap]
  constructor
  · rintro ⟨byte, ⟨letter, isLetter, member⟩, rfl⟩
    have small : byte.toNat < 0x80 := by
      have bound := byte.toNat_lt
      rwa [Utf8.toNat_ofNat (Or.inl (by omega))] at ascii
    rwa [(Utf8.mem_utf8EncodeChar_iff small).mp member] at isLetter
  · intro member
    have isByte : (UInt8.ofNat verb.toNat).toNat = verb.toNat := by
      rw [UInt8.toNat_ofNat']
      omega
    have small : (UInt8.ofNat verb.toNat).toNat < 0x80 := by omega
    refine ⟨UInt8.ofNat verb.toNat, ⟨verb, member, ?_⟩, ?_⟩
    · rw [Utf8.mem_utf8EncodeChar_iff small, isByte, Char.ofNat_toNat]
    · rw [isByte, Char.ofNat_toNat]

/-- A way to put a set of verbs together. -/
inductive Recipe where
  /-- No verbs. -/
  | empty
  /-- The verbs of the standard rendering. -/
  | standard
  /-- The characters of a text. -/
  | ofString (characters : String)
  | insert (recipe : Recipe) (verb : Char)
  | erase (recipe : Recipe) (verb : Char)
  | union (left right : Recipe)
  deriving Repr, DecidableEq

namespace Recipe

/-- The set of verbs that a recipe makes. -/
def build : Recipe → VerbMask
  | .empty => .empty
  | .standard => .standard
  | .ofString characters => .ofString characters
  | .insert recipe verb => recipe.build.insert verb
  | .erase recipe verb => recipe.build.erase verb
  | .union left right => left.build.union right.build

/-- The set of characters that a recipe names, whether they can be verbs or not. -/
def named : Recipe → Set Char
  | .empty => ∅
  | .standard => { verb | verb ∈ "vTtbcdoOqxXUeEfFgGsp".toList }
  | .ofString characters => { verb | verb ∈ characters.toList }
  | .insert recipe verb => Insert.insert verb recipe.named
  | .erase recipe verb => recipe.named \ {verb}
  | .union left right => left.named ∪ right.named

/-- The members of a set are the named characters that can be verbs. -/
theorem mem_build {recipe : Recipe} {verb : Char} :
    verb ∈ recipe.build ↔ verb ∈ recipe.named ∩ possible := by
  induction recipe with
  | empty =>
      simp [build, named]
  | standard =>
      exact mem_ofList
  | ofString characters =>
      exact mem_ofList
  | insert recipe other inductionHypothesis =>
      rw [build, mem_insert, inductionHypothesis, admits_iff, named,
        Set.mem_inter_iff, Set.mem_inter_iff, Set.mem_insert_iff]
      constructor
      · rintro (⟨isNamed, canBe⟩ | ⟨canBe, rfl⟩)
        · exact ⟨Or.inr isNamed, canBe⟩
        · exact ⟨Or.inl rfl, canBe⟩
      · rintro ⟨rfl | isNamed, canBe⟩
        · exact Or.inr ⟨canBe, rfl⟩
        · exact Or.inl ⟨isNamed, canBe⟩
  | erase recipe other inductionHypothesis =>
      rw [build, mem_erase, inductionHypothesis, named, Set.mem_inter_iff,
        Set.mem_inter_iff, Set.mem_sdiff, Set.mem_singleton_iff,
        and_right_comm, ne_comm]
  | union left right leftHypothesis rightHypothesis =>
      rw [build, mem_union, leftHypothesis, rightHypothesis, named,
        Set.union_inter_distrib_right]
      exact Iff.rfl

theorem built_build (recipe : Recipe) : Built recipe.build := by
  induction recipe with
  | empty => exact .empty
  | standard => exact .standard
  | ofString characters => exact .ofString characters
  | insert _ verb inductionHypothesis => exact inductionHypothesis.insert verb
  | erase _ verb inductionHypothesis => exact inductionHypothesis.erase verb
  | union _ _ leftHypothesis rightHypothesis =>
      exact leftHypothesis.union rightHypothesis

end Recipe

/-- A set of verbs put together again from the list of its members. -/
theorem ofString_toList
    {verbs : VerbMask}
    (built : Built verbs) :
    ofString (String.ofList verbs.toList) = verbs := by
  rw [eq_iff]
  intro verb
  rw [ofString, String.toList_ofList, mem_ofList, mem_toList]
  exact
    and_iff_left_of_imp fun member =>
      admits_iff.mp (built.admits_of_mem member)

/-- What it is for a set of verbs to stand for a set of characters. -/
structure Represents
    (verbs : VerbMask)
    (members : Set Char) : Prop where
  contains : ∀ verb, verbs.contains verb = true ↔ verb ∈ members
  isEmpty : verbs.isEmpty = true ↔ members = ∅
  /-- The list holds the members once each, in ASCII order. -/
  increasing : verbs.toList.Pairwise (·.toNat < ·.toNat)
  listed : ∀ verb, verb ∈ verbs.toList ↔ verb ∈ members
  /-- The text of the list makes the same set. -/
  again : ofString (String.ofList verbs.toList) = verbs

/--
Sets of verbs are sets of characters.

Whatever recipe a set is made by, it stands for the characters that the recipe
names and that can be verbs, and it is equal to another one exactly if both
contain the same characters.  The verbs of a text are the same whether its
characters are looked at or its bytes.
-/
theorem build_represents (recipe : Recipe) :
    recipe.build.Represents (recipe.named ∩ possible) ∧
      (∀ other : Recipe,
        recipe.build = other.build ↔
          ∀ verb,
            recipe.build.contains verb = other.build.contains verb) ∧
      ∀ characters : String,
        ofBytes (Utf8.encode characters.toList) = ofString characters := by
  refine ⟨⟨?_, ?_, ?_, ?_, ?_⟩, ?_, ?_⟩
  · intro verb
    exact Recipe.mem_build
  · rw [isEmpty_iff, Set.eq_empty_iff_forall_notMem]
    exact forall_congr' fun verb => not_congr Recipe.mem_build
  · exact pairwise_toList recipe.build
  · intro verb
    rw [mem_toList, Recipe.mem_build]
  · exact ofString_toList recipe.built_build
  · intro other
    rw [eq_iff]
    exact forall_congr' fun verb => Bool.eq_iff_iff.symm
  · intro characters
    exact ofBytes_encode characters.toList

end CaptureFormat.VerbMask
