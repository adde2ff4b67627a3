import EndpointDocs.Documentation
import EndpointDocs.Proofs.Noting

namespace EndpointDocs

open Noting

variable {p : Project} {u : Usage}

namespace Schema

theorem steady_ofShape {members : String → TypeDecl → List String → Noting Schema}
    (h : ∀ name t arguments, Steady (members name t arguments)) (s : Shape) :
    Steady (ofShape members s) := by
  induction s with
  | nothing | plain | known => exact alike_pure _
  | list items ih => exact ih.bind fun found => alike_pure _
  | map value ih => exact ih.bind fun found => alike_pure _
  | members name t arguments => exact (h name t arguments).bind fun s => alike_pure _

section

variable {resolve : String → Noting (Option Schema)} (h : ∀ text, Steady (resolve text))
include h

/-- The name that a type is referred to by shows in warnings only. -/
theorem alike_seen (name name' : String) (t : TypeDecl) :
    Alike (seen p resolve name t) (seen p resolve name' t) := by
  apply alike_foldlM
  intro properties reference _
  cases related? p t reference with
  | none => exact (alike_warn _ _ _).bind fun _ => alike_pure properties
  | some target => exact (h target.name).bind fun found => alike_pure _

private theorem steady_addMember (override : Option TypeOverride) (bindings : TypeText.Bindings)
    (properties : OrderedMap Schema) (m : Member) :
    Steady (addMember p u resolve override bindings properties m) := by
  unfold addMember
  split
  · refine (h _).bind fun found => ?_
    cases found with
    | none => exact alike_pure properties
    | some s => exact alike_pure _
  · exact alike_pure properties

private theorem alike_propertiesOf {name name' : String} {t : TypeDecl}
    (hname : p.settings.typeOverride? name (some t) = p.settings.typeOverride? name' (some t))
    (arguments : List String) :
    Alike (propertiesOf p u resolve name t arguments)
      (propertiesOf p u resolve name' t arguments) := by
  unfold propertiesOf
  rw [hname]
  refine (alike_seen h name name' t).bind fun taken => ?_
  exact alike_foldlM (fun properties m _ => steady_addMember h _ _ properties m) taken

end

section

variable {deeper : Chain → String → Noting (Option Schema)}
  (h : ∀ chain text, Steady (deeper chain text))
include h

/-- The name in front of the arguments decides about nothing but the correction of the type. -/
theorem alike_openType {name name' : String} {t : TypeDecl}
    (hname : p.settings.typeOverride? name (some t) = p.settings.typeOverride? name' (some t))
    (chain : Chain) (arguments : List String) :
    Alike (openType deeper p u chain name t arguments)
      (openType deeper p u chain name' t arguments) := by
  unfold openType
  split
  · exact alike_pure object
  · exact (alike_propertiesOf (h _) hname arguments).map withProperties

private theorem steady_resolveBy (chain : Chain) (text : String) :
    Steady (resolveBy deeper p u chain text) := by
  unfold resolveBy
  split
  · exact fun _ _ => rfl
  · exact steady_ofShape (fun name t arguments => alike_openType h rfl chain arguments) _

end

/-- What a reference is resolved to does not depend on the warnings given before. -/
theorem steady_resolve (chain : Chain) (text : String) : Steady (resolve p u chain text) := by
  unfold resolve
  generalize room p chain = n
  induction n generalizing chain text with
  | zero => exact steady_resolveBy (fun _ _ _ _ => rfl) chain text
  | succ n ih => exact steady_resolveBy ih chain text

end Schema

namespace Request

private theorem steady_ofParameter (doc : DocComment) (method : HttpMethod)
    (placed : Option (Location × Annotation)) (param : ParameterDecl) :
    Steady (ofParameter p doc method placed param) := by
  refine (Schema.steady_resolve [] _).bind fun found => ?_
  cases found with
  | none => exact alike_pure []
  | some s =>
    simp only
    split <;> exact alike_pure _

theorem steady_addParameter (doc : DocComment) (method : HttpMethod) (r : Request)
    (param : ParameterDecl) : Steady (addParameter p doc method r param) := by
  unfold addParameter
  split
  · split
    · exact alike_pure r
    · have hbody : Steady (ofBody p doc param) :=
        (Schema.steady_resolve [] _).bind fun found => alike_pure _
      exact hbody.bind fun body => alike_pure _
  · split
    · exact alike_pure r
    · exact (steady_ofParameter doc method _ param).bind fun found => alike_pure _

theorem steady_ofMethod (m : MethodDecl) (method : HttpMethod) : Steady (ofMethod p m method) := by
  have hparameters : Steady (m.parameters.foldlM (addParameter p m.doc method) {}) :=
    alike_foldlM (fun r param _ => steady_addParameter m.doc method r param) {}
  exact hparameters.bind fun r => alike_pure _

end Request

theorem Response.steady_ofMethod (m : MethodDecl) : Steady (ofMethod p m) := by
  unfold ofMethod
  split
  · exact alike_pure none
  · exact (Schema.steady_resolve [] _).bind fun found => alike_pure _

namespace Documentation

theorem steady_ofMethod (t : TypeDecl) (base : String) (m : MethodDecl) :
    Steady (ofMethod p t base m) := by
  unfold ofMethod
  split
  · exact alike_pure []
  · next route _ =>
    have hcommon : Steady (common p t m route.method) :=
      (Request.steady_ofMethod m route.method).bind fun request =>
        (Response.steady_ofMethod m).bind fun response => alike_pure _
    exact hcommon.bind fun e => alike_pure _

theorem steady_ofMethods (t : TypeDecl) (methods : List MethodDecl) :
    Steady (ofMethods p t methods) :=
  (steady_mapM fun m _ => steady_ofMethod t _ m).bind fun found => alike_pure found.flatten

end Documentation

end EndpointDocs
