import CaptureFormat.Proofs.Numeral.Reading
import CaptureFormat.Text.HexDump
import Mathlib.Data.List.Basic

namespace CaptureFormat.HexDump

/-!
# Hex dumps read back

A dump is read by taking its groups apart, without the spaces and the marks
between them, and reading each group as a byte.  The groups that come out are
those of the bytes that were dumped, in every layout.
-/

open Numeral

/-- The byte that a group of two digits stands for. -/
def readGroup? (letters : LetterCase) (digits : List Char) : Option UInt8 :=
  if digits.length = 2 then
    (Numeral.read? 16 letters digits).map UInt8.ofNat
  else
    none

/-- Digits that run together, two by two. -/
def pairs : List Char → List (List Char)
  | [] => []
  | [single] => [[single]]
  | first :: second :: rest => [first, second] :: pairs rest

/-- The groups of a dump, without what stands in front of them and between them. -/
def groups? (layout : Layout) (text : List Char) : Option (List (List Char)) :=
  if text = [] then
    some []
  else if layout.spaced then
    (text.splitOn ' ').mapM fun item => item.dropPrefix? layout.mark
  else
    (text.dropPrefix? layout.mark).map pairs

/-- The bytes that a dump stands for. -/
def read? (layout : Layout) (text : List Char) : Option (List UInt8) :=
  (groups? layout text).bind (·.mapM (readGroup? layout.letters))

section

variable (letters : LetterCase)

theorem length_group (byte : UInt8) : (group letters byte).length = 2 :=
  length_padded_of_lt (by decide) (by decide) byte.toNat_lt

theorem mem_alphabet_of_mem_group
    {byte : UInt8}
    {digit : Char}
    (member : digit ∈ group letters byte) :
    digit ∈ alphabet letters :=
  mem_alphabet_of_mem_padded (by decide) (by decide) member

theorem readGroup?_group (byte : UInt8) :
    readGroup? letters (group letters byte) = some byte := by
  rw [readGroup?, if_pos (length_group letters byte), group,
    read?_padded (by decide) (by decide), Option.map_some,
    UInt8.ofNat_toNat]

/-- Groups that run together come apart again. -/
theorem pairs_flatMap_group (bytes : List UInt8) :
    pairs (bytes.flatMap (group letters)) = bytes.map (group letters) := by
  induction bytes with
  | nil =>
      rfl
  | cons byte rest inductionHypothesis =>
      obtain ⟨first, second, shape⟩ :=
        List.length_eq_two.mp (length_group letters byte)
      rw [List.flatMap_cons, List.map_cons, shape, List.cons_append,
        List.cons_append, List.nil_append, pairs, inductionHypothesis]

theorem mapM_readGroup? (bytes : List UInt8) :
    (bytes.map (group letters)).mapM (readGroup? letters) =
      some bytes := by
  induction bytes with
  | nil =>
      rfl
  | cons byte rest inductionHypothesis =>
      rw [List.map_cons, List.mapM_cons, readGroup?_group,
        inductionHypothesis]
      rfl

end

variable (layout : Layout)

theorem space_notMem_mark : ' ' ∉ layout.mark := by
  unfold Layout.mark
  split
  · cases layout.letters <;> decide
  · exact List.not_mem_nil

theorem space_notMem_group (byte : UInt8) :
    ' ' ∉ group layout.letters byte := by
  intro member
  have isDigit := mem_alphabet_of_mem_group layout.letters member
  revert isDigit
  cases layout.letters <;> decide

/-- A mark in front of a group is taken away again. -/
theorem mapM_dropMark (groups : List (List Char)) :
    ((groups.map (layout.mark ++ ·)).mapM fun item =>
        item.dropPrefix? layout.mark) =
      some groups := by
  induction groups with
  | nil =>
      rfl
  | cons group rest inductionHypothesis =>
      rw [List.map_cons, List.mapM_cons,
        List.dropPrefix?_append_of_beq group (beq_self_eq_true _),
        inductionHypothesis]
      rfl

/-- The groups of the bytes, in their layout. -/
theorem dump_eq (bytes : List UInt8) :
    dump layout bytes =
      if layout.spaced then
        List.intercalate [' ']
          ((bytes.map (group layout.letters)).map (layout.mark ++ ·))
      else if bytes = [] then
        []
      else
        layout.mark ++ (bytes.map (group layout.letters)).flatten := by
  cases bytes with
  | nil =>
      rw [if_pos rfl, List.map_nil, List.map_nil, List.intercalate_nil,
        ite_self]
      rfl
  | cons first rest =>
      rw [dump, List.map_map, List.flatMap_def,
        if_neg (List.cons_ne_nil _ _)]
      rfl

theorem dump_ne_nil {bytes : List UInt8} (nonempty : bytes ≠ []) :
    dump layout bytes ≠ [] := by
  obtain ⟨first, rest, rfl⟩ := List.exists_cons_of_ne_nil nonempty
  obtain ⟨high, low, shape⟩ :=
    List.length_eq_two.mp (length_group layout.letters first)
  rw [dump]
  split
  · cases rest <;> simp [shape]
  · simp [shape]

/-- The groups of a dump are those of the bytes. -/
theorem groups?_dump (bytes : List UInt8) :
    groups? layout (dump layout bytes) =
      some (bytes.map (group layout.letters)) := by
  by_cases empty : bytes = []
  · rw [empty]
    rfl
  rw [groups?, if_neg (dump_ne_nil layout empty), dump_eq]
  cases spaced : layout.spaced with
  | true =>
      have spaceless :
          ∀ item ∈ (bytes.map (group layout.letters)).map
              (layout.mark ++ ·),
            ' ' ∉ item := by
        intro item member
        obtain ⟨_, inGroups, rfl⟩ := List.mem_map.mp member
        obtain ⟨byte, _, rfl⟩ := List.mem_map.mp inGroups
        rw [List.mem_append, not_or]
        exact
          ⟨space_notMem_mark layout, space_notMem_group layout byte⟩
      rw [if_pos rfl, if_pos rfl,
        List.splitOn_intercalate ' ' spaceless (by simpa using empty),
        mapM_dropMark]
  | false =>
      rw [if_neg Bool.false_ne_true, if_neg Bool.false_ne_true,
        if_neg empty,
        List.dropPrefix?_append_of_beq _ (beq_self_eq_true _),
        Option.map_some, ← List.flatMap_def, pairs_flatMap_group]

/-- A dump reads back as the bytes. -/
theorem read?_dump (bytes : List UInt8) :
    read? layout (dump layout bytes) = some bytes := by
  rw [read?, groups?_dump, Option.bind_some, mapM_readGroup?]

/-- No two byte sequences have one dump. -/
theorem dump_injective : Function.Injective (dump layout) := by
  intro left right same
  have reads := read?_dump layout left
  rw [same, read?_dump] at reads
  exact (Option.some_inj.mp reads).symm

end CaptureFormat.HexDump
