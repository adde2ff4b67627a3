import EndpointDocs.Catalog

namespace EndpointDocs.Catalog

variable {c : Catalog} {t : TypeDecl}

theorem name_of_byName? {name : String} (h : c.byName? name = some t) : t.name = name := by
  simpa using List.find?_some h

theorem byName?_of_find? {text : String} (h : c.find? text = some t) :
    c.byName? t.name = some t := by
  have found (name : String) (hn : c.byName? name = some t) : c.byName? t.name = some t := by
    rw [name_of_byName? hn]
    exact hn
  unfold find? at h
  split at h
  · cases h
  · rcases Option.or_eq_some_iff.mp h with h | ⟨_, h⟩
    · exact found _ h
    · obtain ⟨name, _, hn⟩ := Option.bind_eq_some_iff.mp h
      exact found name hn

/-- Types that their full names find are the same if they have one full name. -/
theorem eq_of_byName? {u : TypeDecl} (ht : c.byName? t.name = some t)
    (hu : c.byName? u.name = some u) (hname : t.name = u.name) : t = u :=
  Option.some.inj <| calc
    some t = c.byName? t.name := ht.symm
    _ = c.byName? u.name := by rw [hname]
    _ = some u := hu

theorem eq_of_find? {u : TypeDecl} {a b : String} (ht : c.find? a = some t)
    (hu : c.find? b = some u) (hname : t.name = u.name) : t = u :=
  eq_of_byName? (byName?_of_find? ht) (byName?_of_find? hu) hname

end EndpointDocs.Catalog
