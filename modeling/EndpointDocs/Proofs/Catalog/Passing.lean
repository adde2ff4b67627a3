import EndpointDocs.Proofs.Catalog.Finding
import EndpointDocs.Proofs.Catalog.Search

namespace EndpointDocs.Catalog

open TypeText

variable {find? find'? : String → Option TypeDecl} {left : List String}
  {queue queue' earlier : List (String × Bindings)} {t u : TypeDecl}

/-- The reference leads to a type, with the values that come with it. -/
def known (find? : String → Option TypeDecl) (e : String × Bindings) : Bool :=
  (find? (substitute e.2 e.1)).isSome

private theorem known_eq_false {e : String × Bindings} :
    known find? e = false ↔ find? (substitute e.2 e.1) = none := by
  simp [known]

private theorem above_skip (h : ∀ e ∈ earlier, find? (substitute e.2 e.1) = none) :
    above find? left (earlier ++ queue) = above find? left queue := by
  induction earlier with
  | nil => rfl
  | cons e earlier ih =>
    obtain ⟨he, hrest⟩ := List.forall_mem_cons.mp h
    rw [List.cons_append, above_of_none he, ih hrest]

/-- Two queues with one reference next that leads to a type: the second one may hold references in
front of it that lead nowhere. -/
theorem exists_next {e : String × Bindings} (he : known find? e = true)
    (h : queue'.filter (known find?) = (e :: queue).filter (known find?)) :
    ∃ earlier later, queue' = earlier ++ e :: later ∧
      (∀ x ∈ earlier, find? (substitute x.2 x.1) = none) ∧
      later.filter (known find?) = queue.filter (known find?) := by
  rw [List.filter_cons_of_pos he] at h
  obtain ⟨earlier, later, rfl, hearlier, -, hlater⟩ := List.filter_eq_cons_iff.mp h
  refine ⟨earlier, later, rfl, fun x hx => ?_, hlater⟩
  exact known_eq_false.mp (by simpa using hearlier x hx)

/-- A search finds the same types under other declarations if these go by their names, have their
parameters, and lead to the same types above. -/
theorem above_of_known {g : TypeDecl → TypeDecl} (hname : ∀ t, (g t).name = t.name)
    (hparameters : ∀ t, (g t).parameters = t.parameters)
    (hfind : ∀ s, find'? s = (find? s).map g)
    (habove : ∀ e ∈ above find? left queue,
      ((g e.1).supertypes.map fun s => (s, e.2)).filter (known find?) =
        (e.1.supertypes.map fun s => (s, e.2)).filter (known find?))
    (hqueue : queue'.filter (known find?) = queue.filter (known find?)) :
    above find'? left queue' = (above find? left queue).map fun e => (g e.1, e.2) := by
  have hskip {earlier later : List (String × Bindings)}
      (h : ∀ e ∈ earlier, find? (substitute e.2 e.1) = none) (left : List String) :
      above find'? left (earlier ++ later) = above find'? left later :=
    above_skip fun e he => by rw [hfind, h e he, Option.map_none]
  induction left, queue using above_induction find? generalizing queue' with
  | nil left =>
    have hnone : ∀ e ∈ queue', find? (substitute e.2 e.1) = none := by
      intro e he
      exact known_eq_false.mp (by simpa using List.filter_eq_nil_iff.mp hqueue e he)
    have hrest := @hskip queue' [] hnone left
    rw [List.append_nil] at hrest
    rw [hrest, above, above, List.map_nil]
  | unknown left r b queue hunknown ih =>
    rw [List.filter_cons_of_neg (by simp [known, hunknown])] at hqueue
    rw [above_of_none hunknown] at habove ⊢
    exact ih habove hqueue
  | enter left r b queue t hfound hmem ih =>
    obtain ⟨earlier, later, rfl, hearlier, hlater⟩ := exists_next (by simp [known, hfound]) hqueue
    have hfound' : find'? (substitute b r) = some (g t) := by rw [hfind, hfound, Option.map_some]
    rw [above_of_some hfound, if_pos hmem] at habove ⊢
    obtain ⟨ht, habove⟩ := List.forall_mem_cons.mp habove
    have hmem' : (g t).name ∈ left := (hname t).symm ▸ hmem
    have hqueues : (later ++ (g t).supertypes.map fun s =>
          (s, bind t.parameters (arguments (substitute b r)))).filter (known find?) =
        (queue ++ t.supertypes.map fun s =>
          (s, bind t.parameters (arguments (substitute b r)))).filter (known find?) := by
      rw [List.filter_append, List.filter_append, hlater, ht]
    rw [hskip hearlier, above_of_some hfound', if_pos hmem', hname, hparameters,
      ih habove hqueues, List.map_cons]
  | read left r b queue t hfound hmem ih =>
    obtain ⟨earlier, later, rfl, hearlier, hlater⟩ := exists_next (by simp [known, hfound]) hqueue
    have hfound' : find'? (substitute b r) = some (g t) := by rw [hfind, hfound, Option.map_some]
    have hmem' : (g t).name ∉ left := (hname t).symm ▸ hmem
    rw [above_of_some hfound, if_neg hmem] at habove ⊢
    rw [hskip hearlier, above_of_some hfound', if_neg hmem']
    exact ih habove hlater

private theorem above_of_filter_known
    (h : queue'.filter (known find?) = queue.filter (known find?)) :
    above find? left queue' = above find? left queue := by
  have hsame : above find? left queue' = (above find? left queue).map fun e => (id e.1, e.2) :=
    above_of_known (fun _ => rfl) (fun _ => rfl) (fun _ => Option.map_id'.symm) (fun _ _ => rfl) h
  exact hsame.trans (List.map_id' _)

/-- Every type that a search finds is found by a reference, to whose arguments its parameters are
bound. -/
theorem find?_of_mem_above {e : TypeDecl × Bindings} (he : e ∈ above find? left queue) :
    ∃ w, find? w = some e.1 ∧ e.2 = bind e.1.parameters (arguments w) := by
  induction left, queue using above_induction find? with
  | nil left => simp [above] at he
  | unknown left r b queue hfind ih =>
    rw [above_of_none hfind] at he
    exact ih he
  | enter left r b queue t hfind hmem ih =>
    rw [above_of_some hfind, if_pos hmem] at he
    rcases List.mem_cons.mp he with rfl | he
    · exact ⟨_, hfind, rfl⟩
    · exact ih he
  | read left r b queue t hfind hmem ih =>
    rw [above_of_some hfind, if_neg hmem] at he
    exact ih he

/-- What a reference leads to unless that is set aside. -/
def passing (find? : String → Option TypeDecl) (aside : TypeDecl → Bool) (text : String) :
    Option TypeDecl :=
  (find? text).filter fun t => !aside t

variable {aside : TypeDecl → Bool} {text : String}

private theorem passing_of_none (h : find? text = none) : passing find? aside text = none := by
  rw [passing, h, Option.filter_none]

theorem passing_of_aside (h : ∀ t, find? text = some t → aside t = true) :
    passing find? aside text = none := by
  cases hfind : find? text with
  | none => exact passing_of_none hfind
  | some t =>
    rw [passing, hfind, Option.filter_some, h t hfind, Bool.not_true, if_neg Bool.false_ne_true]

private theorem passing_of_set_aside (hfind : find? text = some t) (h : aside t = true) :
    passing find? aside text = none := by
  refine passing_of_aside fun u hu => ?_
  obtain rfl := Option.some.inj (hfind.symm.trans hu)
  exact h

private theorem passing_of_kept (hfind : find? text = some t) (h : aside t = false) :
    passing find? aside text = some t := by
  rw [passing, hfind, Option.filter_some, h, Bool.not_false, if_pos rfl]

/-- References that lead to nothing else but what is set aside lead nowhere. -/
theorem filter_known_passing {references : List String} {b : Bindings}
    (h : ∀ s ∈ references, ∀ u, find? (substitute b s) = some u → aside u = true) :
    (references.map fun s => (s, b)).filter (known (passing find? aside)) = [] := by
  apply List.filter_eq_nil_iff.mpr
  intro e he
  obtain ⟨s, hs, rfl⟩ := List.mem_map.mp he
  rw [known, passing_of_aside (h s hs)]
  exact Bool.false_ne_true

private theorem name_not_mem_passing
    (hname : ∀ a b t u, find? a = some t → find? b = some u → t.name = u.name → t = u)
    (hfind : find? text = some t) (haside : aside t = true) :
    t.name ∉ (above (passing find? aside) left queue).map (·.1.name) := by
  intro hagain
  obtain ⟨e, he, heq⟩ := List.mem_map.mp hagain
  obtain ⟨w, hw, -⟩ := find?_of_mem_above he
  obtain ⟨hfound, hkept⟩ := Option.filter_eq_some_iff.mp hw
  rw [hname _ _ _ _ hfound hfind heq, haside] at hkept
  cases hkept

/-- The types that are not set aside are found, with the same values and in the same order, by a
search that passes over those set aside, as long as nothing leads back from these. -/
theorem above_aside
    (hname : ∀ a b t u, find? a = some t → find? b = some u → t.name = u.name → t = u)
    (hclosed : ∀ e ∈ above find? left queue, aside e.1 = true → ∀ s ∈ e.1.supertypes, ∀ u,
      find? (substitute e.2 s) = some u → aside u = true) :
    (above find? left queue).filter (fun e => !aside e.1) =
      above (passing find? aside) left queue := by
  induction left, queue using above_induction find? with
  | nil left => rw [above, above, List.filter_nil]
  | unknown left r b queue hfind ih =>
    rw [above_of_none hfind] at hclosed ⊢
    rw [above_of_none (passing_of_none hfind), ih hclosed]
  | enter left r b queue t hfind hmem ih =>
    rw [above_of_some hfind, if_pos hmem] at hclosed ⊢
    obtain ⟨ht, hclosed⟩ := List.forall_mem_cons.mp hclosed
    cases haside : aside t with
    | false =>
      rw [List.filter_cons_of_pos (by simp [haside]), above_of_some (passing_of_kept hfind haside),
        if_pos hmem, ih hclosed]
    | true =>
      -- Nothing above `t` is kept, and no type that is kept has its name.
      have hqueues : (queue ++ t.supertypes.map fun s =>
          (s, bind t.parameters (arguments (substitute b r)))).filter
            (known (passing find? aside)) = queue.filter (known (passing find? aside)) := by
        rw [List.filter_append, filter_known_passing (ht haside), List.append_nil]
      rw [List.filter_cons_of_neg (by simp [haside]),
        above_of_none (passing_of_set_aside hfind haside), ih hclosed,
        above_of_filter_known hqueues, above_without (name_not_mem_passing hname hfind haside)]
  | read left r b queue t hfind hmem ih =>
    rw [above_of_some hfind, if_neg hmem] at hclosed ⊢
    cases haside : aside t with
    | false => rw [above_of_some (passing_of_kept hfind haside), if_neg hmem, ih hclosed]
    | true => rw [above_of_none (passing_of_set_aside hfind haside), ih hclosed]

/-- All types above one that is set aside are set aside, and none of them has parameters. -/
structure SetsAside (c : Catalog) (aside : TypeDecl → Bool) : Prop where
  parameters : ∀ s t, c.find? s = some t → aside t = true → t.parameters = []
  supertypes : ∀ s t, c.find? s = some t → aside t = true → ∀ r ∈ t.supertypes, ∀ u,
    c.find? r = some u → aside u = true

private theorem findSome?_filter {α β : Type} {f : α → Option β} {k : α → Bool} {l : List α}
    (h : ∀ a ∈ l, k a = false → f a = none) : (l.filter k).findSome? f = l.findSome? f := by
  induction l with
  | nil => rfl
  | cons a l ih =>
    obtain ⟨ha, hl⟩ := List.forall_mem_cons.mp h
    cases hk : k a with
    | false => rw [List.filter_cons_of_neg (by simp [hk]), List.findSome?_cons, ha hk, ih hl]
    | true => rw [List.filter_cons_of_pos hk, List.findSome?_cons, List.findSome?_cons, ih hl]

/-- What is bound first above a type is bound by one that is not set aside. -/
theorem SetsAside.findSome?_ancestors {c : Catalog} (h : c.SetsAside aside) (t : TypeDecl) :
    (c.ancestors t).findSome? (fun e => e.2.values.head?) =
      (above (passing c.find? aside) (without t.name (c.types.map (·.name)))
        (t.supertypes.map fun s => (s, []))).findSome? fun e => e.2.values.head? := by
  have hbound : ∀ e ∈ c.ancestors t, aside e.1 = true → e.2 = [] := by
    intro e he haside
    obtain ⟨w, hw, hbind⟩ := find?_of_mem_above he
    rw [hbind, h.parameters w e.1 hw haside]
    rfl
  have hclosed : ∀ e ∈ c.ancestors t, aside e.1 = true → ∀ s ∈ e.1.supertypes, ∀ u,
      c.find? (substitute e.2 s) = some u → aside u = true := by
    intro e he haside s hs u hu
    obtain ⟨w, hw, -⟩ := find?_of_mem_above he
    rw [hbound e he haside, substitute_nil] at hu
    exact h.supertypes w e.1 hw haside s hs u hu
  rw [← above_aside (fun _ _ _ _ => eq_of_find?) hclosed]
  refine (findSome?_filter fun e he hkept => ?_).symm
  rw [hbound e he (by simpa using hkept)]
  rfl

end EndpointDocs.Catalog
