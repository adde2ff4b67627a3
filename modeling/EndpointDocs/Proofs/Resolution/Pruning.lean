import EndpointDocs.Proofs.Resolution.OpenTypes
import EndpointDocs.Proofs.Resolution.Properties
import EndpointDocs.Proofs.Schema.Pruned

namespace EndpointDocs.Schema

open Shape Noting OrderedMap

variable {p : Project} {u : Usage} {c d : Chain} {t : TypeDecl}

section

variable {f g : String → Noting (Option Schema)}
  (hfg : ∀ text, Related PrunesFound (f text) (g text))

include hfg

private theorem related_addMember (override : Option TypeOverride) (bindings : TypeText.Bindings)
    (member : Member) {m n : OrderedMap Schema} (hmn : EntryWise Prunes m n) :
    Related (EntryWise Prunes) (addMember p u f override bindings m member)
      (addMember p u g override bindings n member) := by
  unfold addMember
  split
  · refine (hfg _).bind fun a b hfound => ?_
    cases hfound with
    | none => exact related_pure hmn
    | some hpruned =>
      have hsaid := hpruned.describe member p u (TypeText.substitute bindings member.typeText)
      have hcorrected := hsaid.correct member override
      refine related_pure ?_
      rw [hcorrected.name]
      exact hmn.put hcorrected _
  · exact related_pure hmn

/-- A type without `see` tags has the properties of its members on both sides. -/
theorem related_propertiesOf (hsee : seeTexts t = []) (name : String) (arguments : List String) :
    Related (EntryWise Prunes) (propertiesOf p u f name t arguments)
      (propertiesOf p u g name t arguments) := by
  have hseen (h : String → Noting (Option Schema)) : seen p h name t = pure [] := by
    rw [seen_eq, hsee]
    rfl
  unfold propertiesOf
  rw [hseen, hseen, pure_bind, pure_bind]
  exact comparison_related.foldlM
    (fun m n hmn member _ => related_addMember hfg _ _ member hmn) .nil

end

/-- A type that is open on one side only is cut there. -/
theorem related_openType {f g : Chain → String → Noting (Option Schema)} (hsee : seeTexts t = [])
    (h : c ⊆ d)
    (hfg : ∀ text, Related PrunesFound (f (c.push t.name) text) (g (d.push t.name) text))
    (name : String) (arguments : List String) :
    Related Prunes (openType f p u c name t arguments) (openType g p u d name t arguments) := by
  have hopen : c.has t.name = true → d.has t.name = true := by
    simpa [Chain.has] using fun hname => h hname
  unfold openType
  cases hc : c.has t.name with
  | true =>
    rw [if_pos rfl, if_pos (hopen hc)]
    exact related_pure (prunes_self object)
  | false =>
    rw [if_neg Bool.false_ne_true]
    cases d.has t.name with
    | true =>
      intro v v' w w' a b ha hb
      obtain ⟨m, _, _, hm⟩ := map_eq_some.mp ha
      cases hm
      cases hb
      exact prunes_object m
    | false =>
      rw [if_neg Bool.false_ne_true]
      exact comparison_related.map (related_propertiesOf hfg hsee name arguments) fun _ _ hmn =>
        prunes_withProperties hmn

private theorem related_resolveBy {f g : Chain → String → Noting (Option Schema)}
    (hsee : ∀ t ∈ p.catalog.types, seeTexts t = []) (h : c ⊆ d)
    (hfg : ∀ name text, Related PrunesFound (f (c.push name) text) (g (d.push name) text))
    (text : String) : Related PrunesFound (resolveBy f p u c text) (resolveBy g p u d text) := by
  unfold resolveBy
  cases hshape : ofText? p text with
  | none => exact related_endless_left _ _
  | some s =>
    refine related_ofShape prunes_self (fun _ _ => prunes_array) (fun _ _ => prunes_mapOf)
      (ofText?_eq_some_iff.mp hshape) fun text name t arguments hstep => ?_
    have ht := Catalog.mem_of_find? (step_members hstep).1
    exact related_openType (hsee t ht) h (hfg t.name) name arguments

/-- One step below chains of the same names asks for the same answers. -/
theorem resolveBy_of_same_names {f g : Chain → String → Noting (Option Schema)}
    (h : ∀ name, name ∈ c ↔ name ∈ d) (hfg : ∀ name, f (c.push name) = g (d.push name))
    (text : String) : resolveBy f p u c text = resolveBy g p u d text := by
  have hopened : openType f p u c = openType g p u d := by
    funext name t arguments
    have hhas : c.has t.name = d.has t.name := decide_eq_decide.mpr (h t.name)
    rw [openType, openType, hhas, hfg]
  unfold resolveBy
  rw [hopened]

theorem related_resolve (hsee : ∀ t ∈ p.catalog.types, seeTexts t = []) (h : c ⊆ d)
    (text : String) : Related PrunesFound (resolve p u c text) (resolve p u d text) := by
  rw [resolve_eq_resolveWithin, resolve_eq_resolveWithin]
  generalize p.catalog.types.length = room
  induction room generalizing c d text with
  | zero => exact related_resolveBy hsee h (fun _ _ => related_endless_left _ _) text
  | succ room ih =>
    exact related_resolveBy hsee h (fun name text => ih (List.cons_subset_cons name h) text) text

/-- The order of the open types, and how often they are named, makes no difference. -/
theorem resolve_of_same_names (h : ∀ name, name ∈ c ↔ name ∈ d) (text : String) :
    resolve p u c text = resolve p u d text := by
  rw [resolve_eq_resolveWithin, resolve_eq_resolveWithin]
  generalize p.catalog.types.length = room
  induction room generalizing c d text with
  | zero => exact resolveBy_of_same_names h (fun _ => rfl) text
  | succ room ih =>
    refine resolveBy_of_same_names h (fun name => funext fun text => ih ?_ text) text
    intro other
    exact List.mem_cons.trans ((or_congr_right (h other)).trans List.mem_cons.symm)

/-- Without `see` tags, opening more types on the way can only take away the properties of some
objects. The names of the open types alone count, and what a type is documented with below other
types has no field that the type does not have at the root. -/
theorem resolve_longer (hsee : ∀ t ∈ p.catalog.types, seeTexts t = []) (u : Usage)
    (text : String) :
    (∀ c d : Chain, c ⊆ d → Related PrunesFound (resolve p u c text) (resolve p u d text)) ∧
      (∀ c d : Chain, (∀ name, name ∈ c ↔ name ∈ d) → resolve p u c text = resolve p u d text) ∧
      ∀ c : Chain, Related
        (fun root met => ∀ t ∈ met, ∀ path, t.HasField path → ∃ s ∈ root, s.HasField path)
        (resolve p u [] text) (resolve p u c text) := by
  refine ⟨fun c d h => related_resolve hsee h text,
    fun c d h => resolve_of_same_names h text, fun c => ?_⟩
  intro v v' w w' root met hroot hmet t ht path hfield
  have hfound := related_resolve hsee (List.nil_subset c) text hroot hmet
  cases ht
  cases hfound with
  | some hpruned => exact ⟨_, rfl, hpruned.hasField hfield⟩

private theorem resolve_openNode (u : Usage) (w : List Warning) :
    resolve treeProject u ["Node"] "Node" w = some (some object, w) := by
  rw [resolve_eq_resolveOnce, resolveOnce, step_treeNode]
  rfl

private theorem resolve_treeNode (u : Usage) (w : List Warning) :
    ∃ s, resolve treeProject u [] "Node" w = some (some (withProperties [("children", s)]), w) := by
  let m : Member := ⟨"children", "Node[]", [], {}, none⟩
  let s := m.correct none (m.describe treeProject u "Node[]" (array object))
  have hshown : m.isShown none = true := by decide
  have hname : s.name = "children" :=
    (m.name_correct_describe none _ u _ _).trans (by decide)
  have hlist : resolve treeProject u ["Node"] "Node[]" w = some (some (array object), w) :=
    resolve_of_list (by decide) (by decide) (resolve_openNode u w)
  have hadded : addedBy treeProject u (resolve treeProject u ["Node"]) none
      (TypeText.bind treeNode.parameters []) m w = some ([("children", s)], w) := by
    rw [addedBy, if_pos hshown, ← hname]
    have hbindings : TypeText.bind treeNode.parameters [] = [] := rfl
    rw [hbindings, TypeText.substitute_nil]
    exact bind_eq_some.mpr ⟨_, w, hlist, rfl⟩
  have hown : memberEntries treeProject u (resolve treeProject u ["Node"]) "Node" treeNode [] w =
      some ([[("children", s)]], w) := by
    rw [memberEntries, members_treeNode]
    exact bind_eq_some.mpr ⟨_, w, hadded, rfl⟩
  exact ⟨s, (resolve_members step_treeNode rfl).mpr ⟨[], _, w, rfl, hown, rfl⟩⟩

/-- Below itself the type is the same object without its list. -/
theorem resolve_longer_treeNode :
    (∀ t ∈ treeProject.catalog.types, seeTexts t = []) ∧
      ∃ s, resolve treeProject ⟨.response, .body⟩ [] "Node" [] = some (some s, []) ∧
        resolve treeProject ⟨.response, .body⟩ ["Node"] "Node" [] = some (some object, []) ∧
        s.Prunes object ∧ s.HasField ["children"] ∧ ¬ object.HasField ["children"] := by
  have hsee : ∀ t ∈ treeProject.catalog.types, seeTexts t = [] := by
    have htypes : treeProject.catalog.types = [treeNode] := rfl
    rw [htypes]
    exact List.forall_mem_singleton.mpr rfl
  obtain ⟨s, hs⟩ := resolve_treeNode ⟨.response, .body⟩ []
  have hopen := resolve_openNode ⟨.response, .body⟩ []
  have hfound := (resolve_longer hsee _ "Node").1 [] ["Node"] (List.nil_subset _) hs hopen
  refine ⟨hsee, _, hs, hopen, ?_, .own rfl List.mem_cons_self,
    not_hasField_object _⟩
  cases hfound with
  | some hpruned => exact hpruned

end EndpointDocs.Schema
