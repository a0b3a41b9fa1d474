import CaptureFormat.VerbMask
import Mathlib.Data.BitVec

namespace CaptureFormat.VerbMask

/-!
# Members of verb sets

Every operation on sets of verbs does to the members what its name says.  A set
is built by these operations, so all of its members are characters that can be
verbs: no set accepts a digit or an opening brace, which the grammar of
directives needs for itself.
-/

@[simp] theorem mem_empty {verb : Char} :
    ¬verb ∈ empty := by
  simp [mem_iff, empty, contains]

@[simp] theorem mem_insert
    {verbs : VerbMask}
    {verb other : Char} :
    verb ∈ verbs.insert other ↔
      verb ∈ verbs ∨ admits other = true ∧ other = verb := by
  unfold insert
  split
  · next admitted =>
      have small : other.toNat < 128 := by
        simp only [admits, Bool.and_eq_true, decide_eq_true_eq] at admitted
        exact admitted.1.1
      simp [mem_iff, contains, BitVec.getLsbD_twoPow, small, admitted,
        Char.toNat_inj]
  · next refused =>
      simp [refused]

@[simp] theorem mem_erase
    {verbs : VerbMask}
    {verb other : Char} :
    verb ∈ verbs.erase other ↔ verb ∈ verbs ∧ other ≠ verb := by
  unfold erase
  split
  · next small =>
      have inRange :
          verbs.bits.getLsbD verb.toNat = true → verb.toNat < 128 :=
        BitVec.lt_of_getLsbD
      by_cases same : other = verb <;>
        simp_all [mem_iff, contains, BitVec.getLsbD_twoPow, Char.toNat_inj]
  · next large =>
      have distinct : verb ∈ verbs → other ≠ verb := by
        rintro member rfl
        exact large (BitVec.lt_of_getLsbD member)
      exact ⟨fun member => ⟨member, distinct member⟩, And.left⟩

@[simp] theorem mem_union
    {left right : VerbMask}
    {verb : Char} :
    verb ∈ left.union right ↔ verb ∈ left ∨ verb ∈ right := by
  simp [mem_iff, contains, union]

/-- The sets that operations build, from the empty one on. -/
inductive Built : VerbMask → Prop where
  | empty :
      Built empty
  | insert
      {verbs : VerbMask}
      (verb : Char) :
      Built verbs →
      Built (verbs.insert verb)
  | erase
      {verbs : VerbMask}
      (verb : Char) :
      Built verbs →
      Built (verbs.erase verb)
  | union
      {left right : VerbMask} :
      Built left →
      Built right →
      Built (left.union right)

namespace Built

theorem ofString (characters : String) :
    Built (.ofString characters) := by
  have inserted :
      ∀ (characters : List Char) (verbs : VerbMask),
        Built verbs →
        Built (characters.foldl VerbMask.insert verbs) := by
    intro characters
    induction characters with
    | nil =>
        exact fun _ built => built
    | cons first rest inductionHypothesis =>
        exact fun _ built => inductionHypothesis _ (built.insert first)
  exact inserted characters.toList _ .empty

theorem standard : Built .standard :=
  ofString _

/-- All members of a set can be verbs. -/
theorem admits_of_mem
    {verbs : VerbMask}
    (built : Built verbs)
    {verb : Char}
    (member : verb ∈ verbs) :
    admits verb = true := by
  induction built with
  | empty =>
      exact absurd member mem_empty
  | insert other _ inductionHypothesis =>
      rcases mem_insert.mp member with earlier | ⟨admitted, rfl⟩
      · exact inductionHypothesis earlier
      · exact admitted
  | erase other _ inductionHypothesis =>
      exact inductionHypothesis (mem_erase.mp member).1
  | union _ _ leftHypothesis rightHypothesis =>
      rcases mem_union.mp member with inLeft | inRight
      · exact leftHypothesis inLeft
      · exact rightHypothesis inRight

end Built

end CaptureFormat.VerbMask
