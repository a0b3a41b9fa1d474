import CaptureFormat.Proofs.Template.Block
import CaptureFormat.Proofs.Template.Segmentation

namespace CaptureFormat

/-!
# Names as a template spells them

A segment of a template spells a name if it is a closed block with a name.
Nothing else does: not literal text, not a bare directive, and not a block that
has no name or no end.  The name that an event gives its argument is the one
that its segment spells, whether or not the rest of the block is in order.
-/

/-- Segments of a template, one for each event, each of which has that event alone. -/
structure Grammar.Segmented
    (grammar : Grammar)
    (template : String)
    (segments : List String) : Prop where
  join : String.join segments = template
  alone :
    List.Forall₂ (fun segment event => grammar.events segment = [event])
      segments (grammar.events template)

/-- Every template has such segments. -/
theorem Grammar.exists_segmented
    (grammar : Grammar)
    (template : String) :
    ∃ segments, grammar.Segmented template segments := by
  obtain ⟨segments, split, areSegments⟩ :=
    exists_segments_of_reads (grammar.reads_eventsFrom template.toList)
  refine ⟨segments.map String.ofList, ?_, ?_⟩
  · rw [← String.toList_inj, String.toList_join, List.flatMap_map]
    simp only [String.toList_ofList, List.flatMap_id', split]
  · rw [List.forall₂_map_left_iff]
    refine areSegments.imp fun segment event isSegment => ?_
    rw [events, String.toList_ofList]
    exact isSegment.alone.eventsFrom_eq

/-- The name that a segment spells, if it is a closed block with a name. -/
def spelledName? (segment : List Char) : Option String :=
  match segment with
  | '%' :: '{' :: inside =>
      let name :=
        (inside.dropWhile Grammar.isBlockMark).takeWhile Grammar.isNameChar
      if inside.dropWhile (· != '}') = ['}'] ∧ name ≠ [] then
        some (String.ofList name)
      else
        none
  | _ => none

theorem spelledName?_of_not_block
    {segment : List Char}
    (notBlock : ∀ inside, segment ≠ '%' :: '{' :: inside) :
    spelledName? segment = none := by
  unfold spelledName?
  split
  · exact absurd rfl (notBlock _)
  · rfl

theorem spelledName?_unclosed
    {inside : List Char}
    (braceless : '}' ∉ inside) :
    spelledName? ('%' :: '{' :: inside) = none := by
  have unclosed : inside.dropWhile (· != '}') ≠ ['}'] := by
    intro closed
    have suffix := List.dropWhile_suffix (· != '}') (l := inside)
    rw [closed] at suffix
    exact braceless (suffix.subset (List.mem_singleton_self _))
  simp [spelledName?, unclosed]

namespace Block

/-- The name of a block, unless it is empty. -/
def name? (block : Block) : Option String :=
  if block.name = [] then none else some (String.ofList block.name)

theorem filter_name (block : Block) :
    (some (String.ofList block.name)).filter (· != "") = block.name? := by
  by_cases nameless : block.name = [] <;>
    simp [name?, Option.filter, nameless]

theorem spelledName?_closed
    (block : Block)
    (braceless : '}' ∉ block.text) :
    spelledName? ('%' :: '{' :: (block.text ++ ['}'])) = block.name? := by
  obtain ⟨_, name, _⟩ := Grammar.scan_block block braceless []
  simp only [spelledName?, name,
    Grammar.dropWhile_ne_brace_append braceless, true_and]
  by_cases nameless : block.name = [] <;> simp [name?, nameless]

end Block

/-- The name under which the argument of an event is captured; text has none. -/
def Event.name? (event : Event) : Option String :=
  event.request?.bind Request.name?

namespace Grammar

variable {grammar : Grammar}

theorem name?_bodyEvent
    (grammar : Grammar)
    (block : Block)
    (modifiers : Modifiers) :
    (grammar.bodyEvent block modifiers).name? =
      some (String.ofList block.name) := by
  unfold bodyEvent
  rcases modifiers.rest with _ | ⟨verb, _ | ⟨extra, more⟩⟩
  · rfl
  · by_cases supported : verb ∈ grammar.verbs <;> simp only [supported] <;> rfl
  · by_cases supported : verb ∈ grammar.verbs <;> simp only [supported] <;> rfl

/-- A closed block gives its argument its own name, or none if it has none. -/
theorem readBlock_name?
    (grammar : Grammar)
    (block : Block)
    (braceless : '}' ∉ block.text)
    (rest : List Char) :
    ((grammar.readBlock (block.text ++ '}' :: rest)).1.name?.filter
        (· != "")) = block.name? ∧
      (grammar.readBlock (block.text ++ '}' :: rest)).2 = rest := by
  by_cases nameless : grammar.requireName = true ∧ block.name = []
  · rw [grammar.readBlock_nameless block braceless nameless]
    simp [Event.name?, Event.request?, Request.name?, Block.name?,
      nameless.2]
  · cases body : block.body with
    | none =>
        rw [grammar.readBlock_bodiless block braceless nameless body]
        exact ⟨block.filter_name, rfl⟩
    | some modifiers =>
        rw [grammar.readBlock_body block braceless nameless body]
        simp only [grammar.name?_bodyEvent]
        exact ⟨block.filter_name, trivial⟩

/-- A bare directive gives its argument no name. -/
theorem name?_readBare (grammar : Grammar) (text : List Char) :
    (grammar.readBare text).1.name? = none := by
  obtain ⟨modifiers, rfl, _⟩ := Modifiers.existsUnique_text text
  rw [readBare_text]
  cases modifiers.rest with
  | nil =>
      rfl
  | cons verb behind =>
      by_cases supported : verb ∈ grammar.verbs <;>
        simp only [supported] <;> rfl

/-- A directive that is read to the end of a segment has the name that the segment spells. -/
theorem spelledName?_readDirective
    (grammar : Grammar)
    {afterPercent : List Char}
    (exhausted : (grammar.readDirective afterPercent).2 = []) :
    spelledName? ('%' :: afterPercent) =
      (grammar.readDirective afterPercent).1.name?.filter (· != "") := by
  by_cases brace : ∃ inside, afterPercent = '{' :: inside
  · obtain ⟨inside, rfl⟩ := brace
    change (grammar.readBlock inside).2 = [] at exhausted
    change _ = (grammar.readBlock inside).1.name?.filter (· != "")
    rcases Block.braceless_or_closed inside with
      braceless | ⟨block, rest, braceless, rfl⟩
    · obtain ⟨asked, read⟩ := grammar.readBlock_of_braceless braceless
      rw [spelledName?_unclosed braceless, read]
      rfl
    · obtain ⟨name, behind⟩ := grammar.readBlock_name? block braceless rest
      obtain rfl : rest = [] := behind.symm.trans exhausted
      rw [name, block.spelledName?_closed braceless]
  · rw [readDirective_of_ne_brace (not_exists.mp brace), name?_readBare,
      spelledName?_of_not_block]
    · rfl
    · intro inside shape
      exact brace ⟨inside, (List.cons.inj shape).2⟩

/-- The only event of a segment gives its argument the name that the segment spells. -/
theorem Reads.spelledName?_eq
    {segment : List Char}
    {event : Event}
    (reads : grammar.Reads segment [event]) :
    spelledName? segment = event.name?.filter (· != "") := by
  generalize found : [event] = events at reads
  cases reads with
  | literal literal =>
      unfold Event.ofLiteral at found
      split at found
      · cases found
      · cases found
        rw [spelledName?_of_not_block]
        · rfl
        · rintro inside rfl
          exact literal List.mem_cons_self
  | @escaped run rest events literal reads =>
      cases found
      rw [spelledName?_of_not_block]
      · rfl
      · intro inside shape
        cases run with
        | nil =>
            cases shape
        | cons first others =>
            obtain rfl := (List.cons.inj shape).1
            exact literal List.mem_cons_self
  | @directive run afterPercent events literal single reads =>
      by_cases empty : run = []
      · subst run
        obtain ⟨rfl, rfl⟩ := List.cons.inj found
        apply spelledName?_readDirective
        by_contra unread
        obtain ⟨first, rest, shape⟩ := List.exists_cons_of_ne_nil unread
        rw [shape] at reads
        exact grammar.eventsFrom_cons_ne_nil first rest reads.eventsFrom_eq
      · rw [Event.ofLiteral_of_ne_nil empty] at found
        simp at found

end Grammar

end CaptureFormat
