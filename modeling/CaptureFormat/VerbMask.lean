namespace CaptureFormat

/-!
# Sets of verbs

A verb is the ASCII letter or sign that ends a directive.  A set of verbs is a
mask of 128 bits, one for each ASCII character.  Digits and the opening brace
never enter a set, because in a template they stand for a number and for the
start of a field name.
-/

/-- A set of ASCII verbs; bit `n` stands for the character with code `n`. -/
structure VerbMask where
  bits : BitVec 128
  deriving Repr, DecidableEq

namespace VerbMask

/-- Whether a character can be a verb at all. -/
def admits (verb : Char) : Bool :=
  verb.toNat < 128 && !verb.isDigit && verb != '{'

/-- The set without members. -/
def empty : VerbMask :=
  ⟨0#128⟩

/-- Add a verb; a character that cannot be one is ignored. -/
def insert (verbs : VerbMask) (verb : Char) : VerbMask :=
  if admits verb then ⟨verbs.bits ||| BitVec.twoPow 128 verb.toNat⟩ else verbs

/-- Remove a verb. -/
def erase (verbs : VerbMask) (verb : Char) : VerbMask :=
  if verb.toNat < 128 then ⟨verbs.bits &&& ~~~BitVec.twoPow 128 verb.toNat⟩ else verbs

/-- The members of either set. -/
def union (left right : VerbMask) : VerbMask :=
  ⟨left.bits ||| right.bits⟩

/-- Whether a verb is a member. -/
def contains (verbs : VerbMask) (verb : Char) : Bool :=
  verbs.bits.getLsbD verb.toNat

/-- Whether the set has no member. -/
def isEmpty (verbs : VerbMask) : Bool :=
  verbs.bits == 0#128

/-- The members in ASCII order. -/
def toList (verbs : VerbMask) : List Char :=
  ((List.range 128).filter verbs.bits.getLsbD).map Char.ofNat

/-- The set of the characters in a list that can be verbs. -/
def ofList (characters : List Char) : VerbMask :=
  characters.foldl insert empty

/-- The set of the characters in a text that can be verbs. -/
def ofString (characters : String) : VerbMask :=
  ofList characters.toList

/-- The verbs of the standard rendering. -/
def standard : VerbMask :=
  ofString "vTtbcdoOqxXUeEfFgGsp"

instance : Membership Char VerbMask where
  mem verbs verb := verbs.contains verb = true

instance (verbs : VerbMask) (verb : Char) : Decidable (verb ∈ verbs) :=
  inferInstanceAs (Decidable (verbs.contains verb = true))

instance : EmptyCollection VerbMask where
  emptyCollection := empty

instance : Union VerbMask where
  union := union

instance : Inhabited VerbMask where
  default := standard

/-- Membership is what `contains` says. -/
theorem mem_iff {verbs : VerbMask} {verb : Char} :
    verb ∈ verbs ↔ verbs.contains verb = true :=
  Iff.rfl

end VerbMask

end CaptureFormat
