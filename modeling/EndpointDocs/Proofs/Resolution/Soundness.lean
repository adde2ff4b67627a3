import EndpointDocs.Proofs.Resolution.Unfolding
import EndpointDocs.Proofs.Schema.Nodes

namespace EndpointDocs

namespace Schema

open Shape Noting

variable {p : Project} {u : Usage} {s : Schema}

/-- What was found is sound, if anything was. -/
def SoundFound (found : Option Schema) : Prop :=
  ∀ s, found = some s → s.Sound

theorem soundFound_none : SoundFound none := by
  intro s h
  cases h

theorem soundFound_some (hs : s.Sound) : SoundFound (some s) := by
  intro t h
  cases h
  exact hs

theorem SoundFound.map {found : Option Schema} {f : Schema → Schema} (h : SoundFound found)
    (hf : ∀ s, s.Sound → (f s).Sound) : SoundFound (found.map f) := by
  cases found with
  | none => exact soundFound_none
  | some s => exact soundFound_some (hf s (h s rfl))

theorem SoundFound.getD_object {found : Option Schema} (h : SoundFound found) :
    (found.getD object).Sound := by
  cases found with
  | none => exact sound_object
  | some s => exact h s rfl

theorem sound_withProperties {m : OrderedMap Schema} (hm : SoundProperties m) :
    (withProperties m).Sound := by
  refine sound_iff.mpr ⟨rfl, by simp [withProperties, object], ?_⟩
  intro m' hm'
  obtain rfl : m = m' := by simpa [withProperties] using hm'
  exact hm

private theorem sound_mapOf (hs : s.Sound) : (mapOf s).Sound :=
  sound_withProperties
    (soundProperties_nil.put (s := { s with name := mapKey }) (hs.edit rfl rfl rfl))

theorem Sound.withMock (hs : s.Sound) (said : Option String) : (p.withMock s said).Sound :=
  hs.edit rfl rfl rfl

theorem Sound.stampDate (hs : s.Sound) (text : String) (annotations : List Annotation)
    (carrier : Carrier) : (s.stampDate p text annotations carrier).Sound := by
  unfold Schema.stampDate
  split
  · exact hs
  · exact hs.edit rfl rfl rfl

theorem Sound.describe (hs : s.Sound) (m : Member) (text : String) :
    (m.describe p u text s).Sound := by
  refine Sound.withMock ?_ _
  refine Sound.stampDate ?_ _ _ _
  exact hs.edit rfl rfl rfl

theorem Sound.correct (hs : s.Sound) (m : Member) (override : Option TypeOverride) :
    (m.correct override s).Sound := by
  unfold Member.correct
  split
  · exact hs
  · exact hs.overlay _

section

variable {resolve : String → Noting (Option Schema)}

private theorem seen_sound (h : ∀ text, Yields (resolve text) SoundFound) (name : String)
    (t : TypeDecl) : Yields (seen p resolve name t) SoundProperties := by
  apply yields_foldlM soundProperties_nil
  intro properties hproperties reference _
  split
  · refine (yields_true _).bind fun _ _ => yields_pure hproperties
  · next target _ =>
    refine (h target.name).bind fun found hfound => yields_pure ?_
    cases found with
    | none => exact hproperties
    | some s =>
      have hs := (hfound s rfl).properties
      exact hproperties.putAll hs.names hs.sound

private theorem addMember_sound (h : ∀ text, Yields (resolve text) SoundFound)
    (override : Option TypeOverride) (bindings : TypeText.Bindings) {properties : OrderedMap Schema}
    (hproperties : SoundProperties properties) (m : Member) :
    Yields (addMember p u resolve override bindings properties m) SoundProperties := by
  unfold addMember
  split
  · refine (h _).bind fun found hfound => ?_
    cases found with
    | none => exact yields_pure hproperties
    | some s => exact yields_pure (hproperties.put (((hfound s rfl).describe m _).correct m _))
  · exact yields_pure hproperties

private theorem propertiesOf_sound (h : ∀ text, Yields (resolve text) SoundFound) (name : String)
    (t : TypeDecl) (arguments : List String) :
    Yields (propertiesOf p u resolve name t arguments) SoundProperties := by
  refine (seen_sound h name t).bind fun taken htaken => ?_
  apply yields_foldlM htaken
  intro properties hproperties m _
  exact addMember_sound h _ _ hproperties m

end

variable {deeper : Chain → String → Noting (Option Schema)}

private theorem openType_sound (h : ∀ chain text, Yields (deeper chain text) SoundFound)
    (chain : Chain) (name : String) (t : TypeDecl) (arguments : List String) :
    Yields (openType deeper p u chain name t arguments) Sound := by
  unfold openType
  split
  · exact yields_pure sound_object
  · exact (propertiesOf_sound (h _) name t arguments).map fun _ => sound_withProperties

private theorem resolveBy_sound (h : ∀ chain text, Yields (deeper chain text) SoundFound)
    (chain : Chain) (text : String) : Yields (resolveBy deeper p u chain text) SoundFound := by
  unfold resolveBy
  split
  · exact yields_endless _
  · next shape hshape =>
    have hmeans := ofText?_eq_some_iff.mp hshape
    clear hshape
    -- A shape is made from the inside to the outside.
    induction hmeans with
    | settled step =>
      rcases step_settled step with rfl | ⟨d, rfl⟩ | ⟨d, values, hd, rfl⟩ | ⟨t, _, rfl⟩
      · exact yields_pure soundFound_none
      · exact yields_pure (soundFound_some (sound_ofType d))
      · exact yields_pure (soundFound_some ((sound_scalar hd).edit rfl rfl rfl))
      · exact (openType_sound h _ _ _ _).bind fun _ hs => yields_pure (soundFound_some hs)
    | list _ _ ih | elements _ _ ih =>
      refine ih.bind fun found hfound => yields_pure (soundFound_some ?_)
      exact sound_array hfound.getD_object
    | map _ _ ih =>
      refine ih.bind fun found hfound => yields_pure (soundFound_some ?_)
      exact (hfound.map fun _ => sound_mapOf).getD_object

private theorem resolveWithin_sound (n : Nat) (chain : Chain) (text : String) :
    Yields (resolveWithin p u n chain text) SoundFound := by
  induction n generalizing chain text with
  | zero => exact resolveBy_sound (fun _ _ => yields_endless _) chain text
  | succ n ih => exact resolveBy_sound ih chain text

/-- Schemas are sound, whatever the types and the settings say. -/
theorem resolve_sound (p : Project) (u : Usage) (chain : Chain) (text : String) :
    Yields (resolve p u chain text) SoundFound :=
  resolveWithin_sound _ chain text

end Schema

end EndpointDocs
