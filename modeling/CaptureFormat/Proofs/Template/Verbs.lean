import CaptureFormat.Proofs.Template.Block

namespace CaptureFormat

/-!
# Verbs of directives

A verb that is read from a template is looked up among the supported ones.  A
block without a body has no verb to be read: it stands for a value, and the
verb of values is not looked up.  So this verb is the only one that a template
can ask for where it is not supported, and only blocks without a body do so.
-/

namespace Grammar

/-- What a directive in a template can be: its verb is supported, or its block has no body. -/
def Grants (grammar : Grammar) (asked : Directive) : Prop :=
  asked.verb ∈ grammar.verbs ∨
    ∃ block : Block, block.body = none ∧ asked = block.value

/-- An event asks for no directive but a granted one. -/
def Admits (grammar : Grammar) : Event → Prop
  | .directive asked => grammar.Grants asked
  | _ => True

variable (grammar : Grammar)

theorem admits_conclude
    (directive : Directive)
    (verb : Char) :
    grammar.Admits (grammar.conclude directive verb) := by
  unfold conclude
  split
  · next supported =>
      have sameVerb : (directive.accept verb).verb = verb := by
        unfold Directive.accept Directive.adaptToVerb
        split <;> rfl
      exact Or.inl (sameVerb.symm ▸ supported)
  · trivial

theorem admits_readBare (text : List Char) :
    grammar.Admits (grammar.readBare text).1 := by
  simp only [readBare]
  split
  · trivial
  · exact grammar.admits_conclude _ _

theorem admits_closeBlock
    (directive : Directive)
    (fault : Fault)
    (text : List Char) :
    grammar.Admits (closeBlock directive fault text).1 := by
  simp only [closeBlock]
  split <;> trivial

theorem admits_readBlockEnd
    (directive : Directive)
    (verb : Char)
    (text : List Char) :
    grammar.Admits (grammar.readBlockEnd directive verb text).1 := by
  unfold readBlockEnd
  split
  · exact grammar.admits_conclude _ _
  · split <;> exact grammar.admits_closeBlock _ _ _

theorem admits_readBlockBody
    (directive : Directive)
    (text : List Char) :
    grammar.Admits (grammar.readBlockBody directive text).1 := by
  simp only [readBlockBody]
  split
  · trivial
  · trivial
  · exact grammar.admits_readBlockEnd _ _ _

/-- What stands behind the name decides; without a body, the block is a value. -/
theorem admits_readBehindName
    (block : Block)
    (bodiless : block.body = none)
    (text : List Char) :
    grammar.Admits
      (grammar.readBehindName block.marks block.name text).1 := by
  unfold readBehindName
  split
  · trivial
  · split
    · exact grammar.admits_closeBlock _ _ _
    · exact grammar.admits_readBlockBody _ _
  · split
    · trivial
    · refine Or.inr ⟨block, bodiless, ?_⟩
      rw [← Block.accept_head, Block.head_eq]

theorem admits_readBlock (text : List Char) :
    grammar.Admits (grammar.readBlock text).1 := by
  obtain ⟨block, behindName, bodiless, _, read⟩ :=
    grammar.exists_readBehindName text
  rw [read]
  exact grammar.admits_readBehindName block bodiless behindName

theorem admits_readDirective (text : List Char) :
    grammar.Admits (grammar.readDirective text).1 := by
  unfold readDirective
  split
  · exact grammar.admits_readBlock _
  · exact grammar.admits_readBare _

/-- A template asks for no directive but a granted one. -/
theorem grants_of_mem_events
    {template : String}
    {asked : Directive}
    (member : .directive asked ∈ grammar.events template) :
    grammar.Grants asked :=
  (grammar.reads_eventsFrom template.toList).forall_mem
    (fun _ => trivial) grammar.admits_readDirective _ member

/-- A block without a body is a value, whether values are supported or not. -/
theorem events_bodiless
    (block : Block)
    (braceless : '}' ∉ block.text)
    (named : ¬(grammar.requireName = true ∧ block.name = []))
    (bodiless : block.body = none)
    (rest : String) :
    grammar.events
        ("%\x7b" ++ String.ofList block.text ++ "\x7d" ++ rest) =
      .directive block.value :: grammar.events rest := by
  apply events_of_readBlock
  rw [String.toList_ofList]
  exact grammar.readBlock_bodiless block braceless named bodiless rest.toList

/-- A field name alone stands for a value, whichever verbs are supported. -/
theorem events_name :
    grammar.events "%\x7ba\x7d" = [.directive (.named "a" 'v')] := by
  let block : Block := {
    marks := []
    name := ['a']
    body := none
    marks_maximal := by decide
    colonless := by decide }
  have read :=
    grammar.events_bodiless block (by decide) (by simp [block]) rfl ""
  have spelled :
      "%\x7b" ++ String.ofList block.text ++ "\x7d" ++ "" = "%\x7ba\x7d" := by
    decide
  have nothing : grammar.events "" = [] := eventsFrom_nil grammar
  rwa [spelled, nothing] at read

/-- Only if values are supported, all directives of all templates have supported verbs. -/
theorem forall_verb_mem_iff :
    (∀ template asked,
        .directive asked ∈ grammar.events template →
        asked.verb ∈ grammar.verbs) ↔
      'v' ∈ grammar.verbs := by
  constructor
  · intro supported
    apply supported _ (.named "a" 'v')
    rw [events_name]
    exact List.mem_singleton_self _
  · intro values template asked member
    rcases grammar.grants_of_mem_events member with
      supported | ⟨block, _, rfl⟩
    · exact supported
    · exact values

/-- With the verb `d` alone, a field name still asks for the verb `v`. -/
theorem events_name_unsupported :
    .directive (.named "a" 'v') ∈
        events { verbs := .ofString "d" } "%\x7ba\x7d" ∧
      'v' ∉ VerbMask.ofString "d" := by
  rw [events_name]
  exact ⟨List.mem_singleton_self _, by decide⟩

end Grammar

end CaptureFormat
