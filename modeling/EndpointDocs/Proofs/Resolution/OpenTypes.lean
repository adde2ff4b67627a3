import Mathlib.Data.List.Perm.Subperm
import EndpointDocs.Proofs.Catalog.Search
import EndpointDocs.Proofs.Resolution.Calls
import EndpointDocs.Proofs.Shape.Records

namespace EndpointDocs

open Shape

variable {p : Project} {c d : Call}

/-- A call made on the way from `start`, inside the properties of that many types. -/
inductive Call.Within (p : Project) (start : Call) : Nat → Call → Prop
  | start : Within p start 0 start
  | same {n : Nat} {c d : Call} {next : String} (way : Within p start n c)
      (made : d ∈ c.nested p) (step : (step p c.text).next? = some next) : Within p start n d
  | opened {n : Nat} {c d : Call} {name : String} {t : TypeDecl} {arguments : List String}
      (way : Within p start n c) (made : d ∈ c.nested p)
      (step : step p c.text = .settled (.members name t arguments)) : Within p start (n + 1) d

/-- What a type itself says of its elements: the component of an array, or what is bound to them
in its hierarchy. -/
def TypeDecl.HasElement (p : Project) (t : TypeDecl) (items : String) : Prop :=
  t.component = some items ∨ t.component = none ∧ boundElement? p t = some items

namespace Schema

/-- The open types differ from each other and belong to the catalog, and there are as many of them
as types whose properties are being collected. -/
theorem within_open {text : String} {n : Nat} (h : Call.Within p ⟨[], text⟩ n c) :
    c.chain.length = n ∧ c.chain.Nodup ∧
      ∀ name ∈ c.chain, ∃ t ∈ p.catalog.types, t.name = name := by
  induction h with
  | start => simp
  | same _ made step ih =>
    rcases nested_cases made with ⟨_, _, rfl⟩ | ⟨t, _, _, hstep, _⟩
    · exact ih
    · simp [hstep, Step.next?] at step
  | opened _ made step ih =>
    rcases nested_cases made with ⟨_, hnext, _⟩ | ⟨t, ht, hc, _, _, _, rfl⟩
    · simp [step, Step.next?] at hnext
    obtain ⟨hlength, hnodup, htypes⟩ := ih
    rw [Chain.has, decide_eq_false_iff_not] at hc
    refine ⟨by simp [Chain.push, hlength], List.nodup_cons.mpr ⟨hc, hnodup⟩, ?_⟩
    intro name hname
    rcases List.mem_cons.mp hname with rfl | hname
    · exact ⟨t, Catalog.mem_of_find? ht, rfl⟩
    · exact htypes name hname

private theorem length_le_of_open {chain : Chain} (hn : chain.Nodup)
    (ht : ∀ name ∈ chain, ∃ t ∈ p.catalog.types, t.name = name) :
    chain.length ≤ p.catalog.types.length := by
  have hsub : chain ⊆ p.catalog.types.map (·.name) :=
    fun name hname => List.mem_map.mpr (ht name hname)
  simpa using (List.subperm_of_subset hn hsub).length_le

private theorem length_pos_of_elements {text owner items : String}
    (h : step p text = .elements owner items) : 0 < text.length := by
  rcases Nat.eq_zero_or_pos text.length with hz | hpos
  · have hempty : text = "" := String.length_eq_zero_iff.mp hz
    subst hempty
    rw [step, if_pos (by decide)] at h
    cases h
  · exact hpos

private theorem ownElement_cases (p : Project) (t : TypeDecl) :
    ownElement p t = "" ∨ t.HasElement p (ownElement p t) := by
  unfold ownElement TypeDecl.HasElement
  cases hc : t.component with
  | some items => exact .inr (.inl rfl)
  | none =>
    rw [Option.getD_none, inheritedElement_eq]
    cases helement : boundElement? p t with
    | none => exact .inl rfl
    | some element =>
      rw [Option.map_some, Option.getD_some]
      split
      · exact .inl rfl
      · exact .inr (.inr ⟨rfl, rfl⟩)

private theorem next_shorter {text next : String} (h : (step p text).next? = some next) :
    next.length < text.length ∨
      ∃ t, p.catalog.find? text = some t ∧ t.HasElement p next := by
  cases hstep : step p text with
  | settled s => simp [hstep, Step.next?] at h
  | list items shorter | map items shorter =>
    obtain rfl : items = next := by simpa [hstep, Step.next?] using h
    exact .inl shorter
  | elements owner items =>
    obtain rfl : items = next := by simpa [hstep, Step.next?] using h
    obtain ⟨t, ht, _, rfl⟩ := step_elements hstep
    rcases ownElement_cases p t with hempty | helement
    · rw [hempty]
      exact .inl (length_pos_of_elements hstep)
    · exact .inr ⟨t, ht, helement⟩

private theorem exists_within {start : Call} (h : Call.Reaches p start c) :
    ∃ n, Call.Within p start n c := by
  induction h with
  | refl => exact ⟨0, .start⟩
  | @tail c d _ made ih =>
    obtain ⟨n, way⟩ := ih
    rcases nested_cases made with ⟨next, hnext, _⟩ | ⟨t, _, _, hstep, _⟩
    · exact ⟨n, .same way made hnext⟩
    · exact ⟨n + 1, .opened way made hstep⟩

/-- A further call opens one type more, reads a shorter reference, or reads the element that a type
itself says it has. -/
theorem nested_closer (hd : d ∈ c.nested p) :
    (∃ t ∈ p.catalog.types, t.name ∉ c.chain ∧ d.chain = c.chain.push t.name) ∨
      d.chain = c.chain ∧ (d.text.length < c.text.length ∨
        ∃ t, p.catalog.find? c.text = some t ∧ t.HasElement p d.text) := by
  rcases nested_cases hd with ⟨next, hnext, rfl⟩ | ⟨t, ht, hc, _, _, _, rfl⟩
  · exact .inr ⟨rfl, next_shorter hnext⟩
  · exact .inl ⟨t, Catalog.mem_of_find? ht, by simpa [Chain.has] using hc, rfl⟩

/-- In every call on the way from a reference that is resolved by itself the open types are distinct
types of the catalog, as many as types whose properties are being collected, and each further call
opens one type more, reads a shorter reference, or reads the element that a type itself says it
has. The further calls are just those that one step of resolving asks for. -/
theorem reaches_chain (p : Project) (text : String) {c : Call}
    (h : Call.Reaches p ⟨[], text⟩ c) :
    c.chain.Nodup ∧ (∀ name ∈ c.chain, ∃ t ∈ p.catalog.types, t.name = name) ∧
      (∀ n, Call.Within p ⟨[], text⟩ n c ↔ c.chain.length = n) ∧
      c.chain.length ≤ p.catalog.types.length ∧
      (∀ d ∈ c.nested p,
        (∃ t ∈ p.catalog.types, t.name ∉ c.chain ∧ d.chain = c.chain.push t.name) ∨
        d.chain = c.chain ∧ (d.text.length < c.text.length ∨
          ∃ t, p.catalog.find? c.text = some t ∧ t.HasElement p d.text)) ∧
      ∀ u d, Asks p u c d ↔ d ∈ c.nested p := by
  obtain ⟨n, way⟩ := exists_within h
  obtain ⟨hlength, hnodup, htypes⟩ := within_open way
  refine ⟨hnodup, htypes, ?_, length_le_of_open hnodup htypes, fun d hd => nested_closer hd,
    fun u d => asks_iff⟩
  intro m
  constructor
  · exact fun hm => (within_open hm).1
  · intro hm
    rw [← hm, hlength]
    exact way

/-- A type with a list of its own kind. -/
def treeNode : TypeDecl :=
  { name := "Node", shortName := "Node", kind := .record
    fields := [{ name := "children", typeText := "Node[]" }] }

def treeProject : Project :=
  Project.of (({} : Catalog).insert treeNode) {}

private theorem isRecord_treeNode : treeProject.IsRecord treeNode := by
  have hcatalog : treeProject.catalog = ({} : Catalog).insert treeNode := rfl
  have hfound : ∀ v ∈ [treeNode], treeProject.catalog.find? v.name = some v := by
    rw [hcatalog]
    intro v hv
    rw [List.mem_singleton.mp hv]
    decide
  exact Project.isRecord_of_closed hfound (by decide) (by decide) (by decide)
    (List.mem_singleton_self treeNode)

theorem step_treeNode : step treeProject "Node" = .settled (.members "Node" treeNode []) :=
  isRecord_treeNode.step

theorem members_treeNode :
    Member.ofType treeProject treeNode = [⟨"children", "Node[]", [], {}, none⟩] :=
  isRecord_treeNode.own_members rfl rfl

theorem step_treeList : ∃ h, step treeProject "Node[]" = .list "Node" h :=
  ⟨_, step_of_component? (by decide) (by decide)⟩

private theorem nested_treeNode :
    Call.nested treeProject ⟨[], "Node"⟩ = [⟨["Node"], "Node[]"⟩] ∧
      Call.nested treeProject ⟨["Node"], "Node"⟩ = [] := by
  have hreferences : references treeProject "Node" treeNode [] = ["Node[]"] := by
    have hoverride : treeProject.settings.typeOverride? "Node" (some treeNode) = none := rfl
    have hseen : seenTypes treeProject treeNode = [] := rfl
    have hbindings : TypeText.bind treeNode.parameters [] = [] := rfl
    have hshown : Member.isShown ⟨"children", "Node[]", [], {}, none⟩ none = true := by decide
    rw [references, memberTexts, members_treeNode, hoverride, hseen, hbindings]
    simp [hshown, TypeText.substitute_nil]
  have hclosed : Chain.has [] treeNode.name = false := by decide
  have hopen : Chain.has ["Node"] treeNode.name = true := by decide
  constructor
  · rw [nested_of_members (c := ⟨[], "Node"⟩) step_treeNode hclosed, hreferences]
    rfl
  · rw [Call.nested]
    simp only [step_treeNode, hopen]
    rfl

private theorem nested_treeList (chain : Chain) :
    Call.nested treeProject ⟨chain, "Node[]"⟩ = [⟨chain, "Node"⟩] := by
  obtain ⟨_, h⟩ := step_treeList
  simp [Call.nested, h]

/-- The elements of its children are reached inside the properties of the type. -/
private theorem reaches_treeNode : Call.Reaches treeProject ⟨[], "Node"⟩ ⟨["Node"], "Node"⟩ := by
  have hopened : Call.Reaches treeProject ⟨[], "Node"⟩ ⟨["Node"], "Node[]"⟩ :=
    .single (by simp [nested_treeNode.1])
  exact hopened.tail (by simp [nested_treeList])

theorem ends_treeList : Call.Ends treeProject ⟨[], "Node[]"⟩ := by
  have hinner : Call.Ends treeProject ⟨["Node"], "Node"⟩ := .intro (by simp [nested_treeNode.2])
  have hlist : Call.Ends treeProject ⟨["Node"], "Node[]"⟩ :=
    .intro (by simpa [nested_treeList] using hinner)
  have houter : Call.Ends treeProject ⟨[], "Node"⟩ :=
    .intro (by simpa [nested_treeNode.1] using hlist)
  exact .intro (by simpa [nested_treeList] using houter)

/-- Below itself a type is reached once, and nothing is resolved for it there. -/
theorem reaches_chain_treeNode :
    Call.Reaches treeProject ⟨[], "Node"⟩ ⟨["Node"], "Node"⟩ ∧
      Call.Within treeProject ⟨[], "Node"⟩ 1 ⟨["Node"], "Node"⟩ ∧
      ∀ u d, ¬ Asks treeProject u ⟨["Node"], "Node"⟩ d := by
  obtain ⟨-, -, hwithin, -, -, hasks⟩ := reaches_chain treeProject "Node" reaches_treeNode
  refine ⟨reaches_treeNode, (hwithin 1).mpr rfl, fun u d h => ?_⟩
  have hd := (hasks u d).mp h
  rw [nested_treeNode.2] at hd
  exact absurd hd List.not_mem_nil

end Schema

end EndpointDocs
