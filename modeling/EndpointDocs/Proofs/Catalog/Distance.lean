import Mathlib.Order.Lattice.Nat
import EndpointDocs.Proofs.Catalog.Roots
import EndpointDocs.Proofs.TypeText.Binding
import EndpointDocs.Proofs.TypeText.Renaming

namespace EndpointDocs.Catalog

open TypeText Relation

/-- `u` is reached from `t` by `n` supertypes, one after the other. -/
def Steps (c : Catalog) (t : TypeDecl) : Nat → TypeDecl → Prop
  | 0, u => u = t
  | n + 1, u => ∃ v, c.Steps t n v ∧ ∃ s ∈ v.supertypes, c.find? s = some u

/-- The least number of supertypes that lead from `t` to `u`. -/
noncomputable def distance (c : Catalog) (t u : TypeDecl) : Nat :=
  sInf {n | c.Steps t n u}

variable {c : Catalog} {t u v : TypeDecl} {n d : Nat} {s r : String}

theorem above_iff_steps : c.Above t u ↔ ∃ n, c.Steps t n u := by
  constructor
  · intro h
    induction h with
    | refl => exact ⟨0, rfl⟩
    | tail _ hstep ih =>
      obtain ⟨n, hn⟩ := ih
      exact ⟨n + 1, _, hn, hstep⟩
  · rintro ⟨n, hn⟩
    induction n generalizing u with
    | zero => exact hn ▸ .refl
    | succ n ih =>
      obtain ⟨v, hv, hstep⟩ := hn
      exact (ih hv).tail hstep

private theorem steps_distance (h : c.Above t u) : c.Steps t (c.distance t u) u :=
  Nat.sInf_mem (above_iff_steps.mp h)

theorem distance_le (h : c.Steps t n u) : c.distance t u ≤ n :=
  Nat.sInf_le h

theorem distance_self (c : Catalog) (t : TypeDecl) : c.distance t t = 0 :=
  Nat.le_zero.mp (distance_le (n := 0) rfl)

private theorem eq_of_distance_eq_zero (h : c.Above t u) (hzero : c.distance t u = 0) : u = t := by
  have hsteps := steps_distance h
  rwa [hzero] at hsteps

/-- A supertype is at most one step further away. -/
theorem distance_le_succ (h : c.Above t u) (hs : s ∈ u.supertypes) (hfind : c.find? s = some v) :
    c.distance t v ≤ c.distance t u + 1 :=
  distance_le ⟨u, steps_distance h, s, hs, hfind⟩

/-- What is not `t` itself is found by a supertype of something one step nearer. -/
theorem exists_nearer (h : c.Above t v) (hd : c.distance t v = d + 1) :
    ∃ u, c.Above t u ∧ c.distance t u = d ∧ ∃ s ∈ u.supertypes, c.find? s = some v := by
  have hsteps := steps_distance h
  rw [hd] at hsteps
  obtain ⟨u, hu, s, hs, hfind⟩ := hsteps
  have habove : c.Above t u := above_iff_steps.mpr ⟨d, hu⟩
  have hle : c.distance t u ≤ d := distance_le hu
  have hge := distance_le_succ habove hs hfind
  exact ⟨u, habove, by omega, s, hs, hfind⟩

theorem mem_types_of_above (h : c.Above t u) (hne : u ≠ t) : u ∈ c.types := by
  rcases ReflTransGen.cases_tail h with rfl | ⟨v, _, s, _, hfind⟩
  · exact absurd rfl hne
  · exact mem_of_find? hfind

variable {find? : String → Option TypeDecl} {left : List String}
  {queue near far : List (String × Bindings)}

theorem name_mem_of_mem_above {e : TypeDecl × Bindings} (he : e ∈ above find? left queue) :
    e.1.name ∈ left := by
  induction left, queue using above_induction find? with
  | nil left => simp [above] at he
  | unknown left r b queue hfind ih =>
    rw [above_of_none hfind] at he
    exact ih he
  | enter left r b queue t hfind hmem ih =>
    rw [above_of_some hfind, if_pos hmem] at he
    rcases List.mem_cons.mp he with rfl | he
    · exact hmem
    · exact mem_of_mem_without (ih he)
  | read left r b queue t hfind hmem ih =>
    rw [above_of_some hfind, if_neg hmem] at he
    exact ih he

theorem nodup_names_above : ((above find? left queue).map (·.1.name)).Nodup := by
  induction left, queue using above_induction find? with
  | nil left => simp [above]
  | unknown left r b queue hfind ih => rwa [above_of_none hfind]
  | enter left r b queue t hfind hmem ih =>
    rw [above_of_some hfind, if_pos hmem, List.map_cons, List.nodup_cons]
    refine ⟨fun hagain => ?_, ih⟩
    obtain ⟨e, he, hname⟩ := List.mem_map.mp hagain
    exact not_mem_without_self (hname ▸ name_mem_of_mem_above he)
  | read left r b queue t hfind hmem ih => rwa [above_of_some hfind, if_neg hmem]

/-- The reference is a supertype of a type at distance `d`, and it means the same with the
parameters of that type bound. -/
def WrittenAt (c : Catalog) (t : TypeDecl) (d : Nat) (e : String × Bindings) : Prop :=
  c.find? (substitute e.2 e.1) = c.find? e.1 ∧
    ∃ u, c.Above t u ∧ c.distance t u = d ∧ e.1 ∈ u.supertypes

/-- What a search knows that reads the supertypes of the types at distance `d`, those in `near`:
everything up to this distance has been read, what lies one step further is read or to be found by
`near`, and where it is read its supertypes are in `far`. -/
structure Frontier (c : Catalog) (t : TypeDecl) (d : Nat) (left : List String)
    (near far : List (String × Bindings)) : Prop where
  next : ∀ e ∈ near, c.WrittenAt t d e
  later : ∀ e ∈ far, c.WrittenAt t (d + 1) e
  inside : ∀ u, c.Above t u → c.distance t u ≤ d → u.name ∉ left
  rim : ∀ u, c.Above t u → c.distance t u = d + 1 → u.name ∈ left →
    ∃ e ∈ near, c.find? e.1 = some u
  crossed : ∀ u, c.Above t u → c.distance t u = d + 1 → u.name ∉ left →
    ∀ s ∈ u.supertypes, ∃ e ∈ far, e.1 = s
  outside : ∀ u, c.Above t u → d + 1 < c.distance t u → u.name ∈ left

/-- Once `near` has been read the search goes on one step further out. -/
theorem Frontier.move (h : Frontier c t d left [] far) : Frontier c t (d + 1) left far [] := by
  have hread (u : TypeDecl) (hu : c.Above t u) (hd : c.distance t u = d + 1) : u.name ∉ left := by
    intro hmem
    obtain ⟨e, he, _⟩ := h.rim u hu hd hmem
    cases he
  refine ⟨h.later, List.forall_mem_nil _, ?_, ?_, ?_, ?_⟩
  · intro u hu hd
    rcases Nat.le_or_eq_of_le_succ hd with hd | hd
    · exact h.inside u hu hd
    · exact hread u hu hd
  · intro u hu hd _
    obtain ⟨v, hv, hdv, s, hs, hfind⟩ := exists_nearer hu hd
    obtain ⟨e, he, rfl⟩ := h.crossed v hv hdv (hread v hv hdv) s hs
    exact ⟨e, he, hfind⟩
  · intro u hu hd hmem
    exact absurd (h.outside u hu (by omega)) hmem
  · exact fun u hu hd => h.outside u hu (by omega)

/-- A search with nothing to read has read everything. -/
theorem Frontier.read_all (h : Frontier c t d left [] []) (hu : c.Above t u) : u.name ∉ left := by
  have hfar (k : Nat) : Frontier c t (d + k) left [] [] := by
    induction k with
    | zero => exact h
    | succ k ih => exact ih.move
  exact (hfar (c.distance t u)).inside u hu (Nat.le_add_left _ _)

/-- The reference to be read next is one of `near`, at this distance or at the next one. -/
theorem Frontier.exists_cons {e : String × Bindings} (h : Frontier c t d left near far)
    (hqueue : near ++ far = e :: queue) :
    ∃ d' near' far', d ≤ d' ∧ queue = near' ++ far' ∧ Frontier c t d' left (e :: near') far' := by
  cases near with
  | nil =>
    rw [List.nil_append] at hqueue
    exact ⟨d + 1, queue, [], Nat.le_succ d, (List.append_nil queue).symm, hqueue ▸ h.move⟩
  | cons x near =>
    obtain ⟨rfl, rfl⟩ := List.cons.inj hqueue
    exact ⟨d, near, far, Nat.le_refl d, rfl, h⟩

/-- A reference that leads to nothing new is passed over. -/
theorem Frontier.pass {e : String × Bindings} (h : Frontier c t d left (e :: near) far)
    (hold : ∀ u, c.find? e.1 = some u → u.name ∉ left) : Frontier c t d left near far where
  next e he := h.next e (List.mem_cons_of_mem _ he)
  later := h.later
  inside := h.inside
  rim u hu hd hmem := by
    obtain ⟨x, hx, hfind⟩ := h.rim u hu hd hmem
    rcases List.mem_cons.mp hx with rfl | hx
    · exact absurd hmem (hold u hfind)
    · exact ⟨x, hx, hfind⟩
  crossed := h.crossed
  outside := h.outside

/-- No supertype above `t` mentions a parameter of its type in its name. -/
def PlainNames (c : Catalog) : Prop :=
  ∀ u ∈ c.types, ∀ s ∈ u.supertypes, ∀ k ∈ u.parameters, ¬ Mentions (rawName s) k

theorem find?_of_rawName (h : rawName s = rawName r) : c.find? s = c.find? r := by
  rw [← c.find?_rawName s, h, c.find?_rawName]

/-- With plain names a supertype means the same with parameters bound. -/
theorem PlainNames.find?_substitute (h : c.PlainNames) (hu : u ∈ c.types) (hs : s ∈ u.supertypes)
    (args : List String) : c.find? (substitute (bind u.parameters args) s) = c.find? s := by
  apply find?_of_rawName
  apply rawName_substitute_of_not_mentions
  intro k hk
  exact h u hu s hs k (mem_keys_bind hk)

/-- A type that is found for the first time lies one step further out, and its supertypes are read
after those that are waiting. -/
theorem Frontier.enter {b : Bindings}
    (h : Frontier c t d left ((r, b) :: near) far) (hown : c.byName? t.name = some t)
    (hplain : c.PlainNames) (hfind : c.find? r = some v) (hmem : v.name ∈ left)
    (args : List String) :
    c.Above t v ∧ c.distance t v = d + 1 ∧
      Frontier c t d (without v.name left) near
        (far ++ v.supertypes.map fun s => (s, bind v.parameters args)) := by
  obtain ⟨_, u, hu, hdu, hr⟩ := h.next _ List.mem_cons_self
  have hv : c.Above t v := hu.tail ⟨r, hr, hfind⟩
  have hdv : c.distance t v = d + 1 := by
    have hle := distance_le_succ hu hr hfind
    have hgt : ¬ c.distance t v ≤ d := fun hd => h.inside v hv hd hmem
    omega
  have hsame (w : TypeDecl) (hw : c.Above t w) (hname : w.name = v.name) : w = v :=
    eq_of_byName? (hw.own hown) (hv.own hown) hname
  refine ⟨hv, hdv, ⟨?_, ?_, ?_, ?_, ?_, ?_⟩⟩
  · exact fun e he => h.next e (List.mem_cons_of_mem _ he)
  · intro e he
    rcases List.mem_append.mp he with he | he
    · exact h.later e he
    · obtain ⟨s, hs, rfl⟩ := List.mem_map.mp he
      exact ⟨hplain.find?_substitute (mem_of_find? hfind) hs args, v, hv, hdv, hs⟩
  · exact fun w hw hd hleft => h.inside w hw hd (mem_of_mem_without hleft)
  · intro w hw hd hleft
    obtain ⟨hleft, hne⟩ := mem_without.mp hleft
    obtain ⟨e, he, hfound⟩ := h.rim w hw hd hleft
    rcases List.mem_cons.mp he with rfl | he
    · rw [hfind] at hfound
      exact absurd (Option.some.inj hfound ▸ rfl) hne
    · exact ⟨e, he, hfound⟩
  · intro w hw hd hleft s hs
    by_cases hread : w.name ∈ left
    · obtain rfl : w = v := by
        apply hsame w hw
        by_contra hne
        exact hleft (mem_without.mpr ⟨hread, hne⟩)
      exact ⟨_, List.mem_append_right _ (List.mem_map_of_mem hs), rfl⟩
    · obtain ⟨e, he, heq⟩ := h.crossed w hw hd hread s hs
      exact ⟨e, List.mem_append_left _ he, heq⟩
  · intro w hw hd
    refine mem_without.mpr ⟨h.outside w hw hd, fun hname => ?_⟩
    rw [hsame w hw hname, hdv] at hd
    exact Nat.lt_irrefl _ hd

/-- Found are types above `t` further away than `d`, nearest first, and among them all that have not
been read. -/
structure Finds (c : Catalog) (t : TypeDecl) (d : Nat) (left : List String)
    (found : List (TypeDecl × Bindings)) : Prop where
  sound : ∀ e ∈ found, c.Above t e.1 ∧ d < c.distance t e.1
  sorted : found.Pairwise fun e f => c.distance t e.1 ≤ c.distance t f.1
  complete : ∀ u, c.Above t u → u.name ∈ left → ∃ e ∈ found, e.1 = u

theorem Finds.mono {d' : Nat} {found : List (TypeDecl × Bindings)} (h : Finds c t d' left found)
    (hle : d ≤ d') : Finds c t d left found where
  sound e he := ⟨(h.sound e he).1, hle.trans_lt (h.sound e he).2⟩
  sorted := h.sorted
  complete := h.complete

/-- What is found with the type that was entered next in front. -/
theorem Finds.cons {found : List (TypeDecl × Bindings)} {b : Bindings}
    (h : Finds c t d (without v.name left) found) (hown : c.byName? t.name = some t)
    (hv : c.Above t v) (hdv : c.distance t v = d + 1) : Finds c t d left ((v, b) :: found) where
  sound e he := by
    rcases List.mem_cons.mp he with rfl | he
    · exact ⟨hv, show d < c.distance t v by omega⟩
    · exact h.sound e he
  sorted := by
    refine List.pairwise_cons.mpr ⟨fun e he => ?_, h.sorted⟩
    have hfurther := (h.sound e he).2
    show c.distance t v ≤ c.distance t e.1
    omega
  complete u hu hleft := by
    by_cases hname : u.name = v.name
    · have hsame : u = v := eq_of_byName? (hu.own hown) (hv.own hown) hname
      exact ⟨_, List.mem_cons_self, hsame.symm⟩
    · obtain ⟨e, he, heq⟩ := h.complete u hu (mem_without.mpr ⟨hleft, hname⟩)
      exact ⟨e, List.mem_cons_of_mem _ he, heq⟩

/-- A search finds what lies above `t` and has not been read, nearest types first. -/
theorem Frontier.explore (h : Frontier c t d left near far) (hown : c.byName? t.name = some t)
    (hplain : c.PlainNames) : Finds c t d left (above c.find? left (near ++ far)) := by
  generalize hqueue : near ++ far = queue
  induction left, queue using above_induction c.find? generalizing d near far with
  | nil left =>
    obtain ⟨rfl, rfl⟩ := List.append_eq_nil_iff.mp hqueue
    rw [above]
    exact ⟨List.forall_mem_nil _, .nil, fun u hu hmem => absurd hmem (h.read_all hu)⟩
  | unknown left r b queue hfind ih =>
    obtain ⟨d', near', far', hle, hrest, h'⟩ := h.exists_cons hqueue
    obtain ⟨hmeans, _⟩ := h'.next _ List.mem_cons_self
    have hnone : c.find? r = none := hmeans.symm.trans hfind
    have hnext : Frontier c t d' left near' far' := by
      refine h'.pass fun u hu => ?_
      rw [hnone] at hu
      cases hu
    rw [above_of_none hfind]
    exact (ih hnext hrest.symm).mono hle
  | enter left r b queue v hfind hmem ih =>
    obtain ⟨d', near', far', hle, hrest, h'⟩ := h.exists_cons hqueue
    obtain ⟨hmeans, _⟩ := h'.next _ List.mem_cons_self
    obtain ⟨hv, hdv, hnext⟩ := h'.enter hown hplain (hmeans.symm.trans hfind) hmem
      (arguments (substitute b r))
    have hfound := ih hnext (by rw [hrest, List.append_assoc])
    rw [above_of_some hfind, if_pos hmem]
    exact (hfound.cons hown hv hdv).mono hle
  | read left r b queue v hfind hmem ih =>
    obtain ⟨d', near', far', hle, hrest, h'⟩ := h.exists_cons hqueue
    obtain ⟨hmeans, _⟩ := h'.next _ List.mem_cons_self
    have hfound : c.find? r = some v := hmeans.symm.trans hfind
    have hnext : Frontier c t d' left near' far' :=
      h'.pass fun u hu => Option.some.inj (hfound.symm.trans hu) ▸ hmem
    rw [above_of_some hfind, if_neg hmem]
    exact (ih hnext hrest.symm).mono hle

/-- Where a search starts: `t` has been read, and its supertypes are to come. -/
theorem frontier_start (hown : c.byName? t.name = some t) :
    Frontier c t 0 (without t.name (c.types.map (·.name)))
      (t.supertypes.map fun s => (s, [])) [] := by
  have hleft (u : TypeDecl) (hu : c.Above t u) (hd : c.distance t u ≠ 0) :
      u.name ∈ without t.name (c.types.map (·.name)) := by
    have hne : u ≠ t := fun heq => hd (heq ▸ distance_self c t)
    refine mem_without.mpr ⟨List.mem_map_of_mem (mem_types_of_above hu hne), fun hname => hne ?_⟩
    exact eq_of_byName? (hu.own hown) hown hname
  refine ⟨?_, List.forall_mem_nil _, ?_, ?_, ?_, ?_⟩
  · intro e he
    obtain ⟨s, hs, rfl⟩ := List.mem_map.mp he
    exact ⟨by rw [substitute_nil], t, .refl, distance_self c t, hs⟩
  · intro u hu hd
    rw [eq_of_distance_eq_zero hu (Nat.le_zero.mp hd)]
    exact not_mem_without_self
  · intro u hu hd _
    obtain ⟨v, hv, hdv, s, hs, hfind⟩ := exists_nearer hu hd
    obtain rfl := eq_of_distance_eq_zero hv hdv
    exact ⟨_, List.mem_map_of_mem hs, hfind⟩
  · intro u hu hd hmem
    exact absurd (hleft u hu (by omega)) hmem
  · exact fun u hu hd => hleft u hu (by omega)

end EndpointDocs.Catalog
