import EndpointDocs.Project
import EndpointDocs.Proofs.TypeText.Names

namespace EndpointDocs.Catalog

open TypeText

/-- The name is the one that is looked for, in full or by its last segment. -/
def Hits (base name : String) : Prop :=
  name = base ∨ shortName name = base

instance (base name : String) : Decidable (Hits base name) :=
  inferInstanceAs (Decidable (_ ∨ _))

/-- Each of the references has a name that is not looked at any more, or one that comes earlier. -/
def Covered (left earlier references : List String) : Prop :=
  ∀ s ∈ references, rawName s ∉ left ∨ rawName s ∈ earlier.map rawName

/-- The name is not what the search looks for, and where it leads to is covered already. -/
structure Spent (find? : String → Option TypeDecl) (base : String) (left queue : List String)
    (name : String) : Prop where
  missed : ¬ Hits base name
  parent : ∀ t, find? name = some t →
    t.isNamed base = false ∧ t.name ∉ left ∧ Covered left queue t.supertypes

variable {find? : String → Option TypeDecl} {base reference name : String}
  {left rest queue extra : List String}
  {t : TypeDecl}

theorem mem_without {n : String} : n ∈ without name left ↔ n ∈ left ∧ n ≠ name := by
  simp [without]

theorem without_comm (m n : String) (names : List String) :
    without m (without n names) = without n (without m names) := by
  rw [without, without, without, without, List.filter_comm]

theorem without_of_not_mem (h : name ∉ left) : without name left = left := by
  apply List.filter_eq_self.mpr
  intro n hn
  simpa using fun heq : n = name => h (heq ▸ hn)

theorem hits_iff :
    Hits base name ↔ (decide (name = base) || decide (shortName name = base)) = true := by
  simp [Hits]

theorem meets_of_not_mem (h : rawName reference ∉ left) :
    meets find? base left (reference :: queue) = meets find? base left queue := by
  rw [meets]
  simp only [if_neg h]

theorem meets_of_hits (h : rawName reference ∈ left) (hhit : Hits base (rawName reference)) :
    meets find? base left (reference :: queue) = true := by
  rw [meets]
  simp only [if_pos h, if_pos (hits_iff.mp hhit)]

theorem meets_of_none (h : rawName reference ∈ left) (hmiss : ¬ Hits base (rawName reference))
    (hfind : find? (rawName reference) = none) :
    meets find? base left (reference :: queue) =
      meets find? base (without (rawName reference) left) queue := by
  rw [meets]
  simp only [if_pos h, if_neg (mt hits_iff.mpr hmiss), hfind]

theorem meets_of_some (h : rawName reference ∈ left) (hmiss : ¬ Hits base (rawName reference))
    (hfind : find? (rawName reference) = some t) :
    meets find? base left (reference :: queue) =
      (t.isNamed base || meets find? base (without t.name (without (rawName reference) left))
        (queue ++ t.supertypes)) := by
  rw [meets]
  simp only [if_pos h, if_neg (mt hits_iff.mpr hmiss), hfind]

theorem inherits_of_supertypes_eq_nil (c : Catalog) (h : t.supertypes = []) (base : String) :
    c.inherits t base = t.isNamed (rawName base) := by
  rw [inherits, h, meets, Bool.or_false]

theorem inheritsAny_of_supertypes_eq_nil (p : Project) (h : t.supertypes = [])
    {bases : List String} (hnames : ∀ b ∈ bases, ¬ t.isNamed (rawName b) = true) :
    p.inheritsAny t bases = false := by
  apply List.any_eq_false.mpr
  intro b hb
  rw [inherits_of_supertypes_eq_nil _ h]
  exact hnames b hb

/-- Induction along the steps of a search. -/
theorem meets_induction (find? : String → Option TypeDecl) (base : String)
    {motive : List String → List String → Prop} (nil : ∀ left, motive left [])
    (hits : ∀ left r queue, rawName r ∈ left → Hits base (rawName r) → motive left (r :: queue))
    (unknown : ∀ left r queue, rawName r ∈ left → ¬ Hits base (rawName r) →
      find? (rawName r) = none → motive (without (rawName r) left) queue → motive left (r :: queue))
    (enter : ∀ left r queue t, rawName r ∈ left → ¬ Hits base (rawName r) →
      find? (rawName r) = some t →
      motive (without t.name (without (rawName r) left)) (queue ++ t.supertypes) →
      motive left (r :: queue))
    (read : ∀ left r queue, rawName r ∉ left → motive left queue → motive left (r :: queue))
    (left queue : List String) : motive left queue := by
  refine meets.induct find? base motive nil ?_ ?_ ?_ read left queue
  · exact fun left r queue hmem hhit => hits left r queue hmem (hits_iff.mpr hhit)
  · exact fun left r queue hmem hmiss => unknown left r queue hmem (mt hits_iff.mp hmiss)
  · exact fun left r queue hmem hmiss t => enter left r queue t hmem (mt hits_iff.mp hmiss)

/-- A search depends on the names that it may look at, not on their order. -/
theorem meets_congr (h : ∀ n, n ∈ left ↔ n ∈ rest) :
    meets find? base left queue = meets find? base rest queue := by
  induction left, queue using meets_induction find? base generalizing rest with
  | nil left => rw [meets, meets]
  | hits left r queue hmem hhit => rw [meets_of_hits hmem hhit, meets_of_hits ((h _).mp hmem) hhit]
  | unknown left r queue hmem hmiss hfind ih =>
    rw [meets_of_none hmem hmiss hfind, meets_of_none ((h _).mp hmem) hmiss hfind]
    apply ih
    simp [mem_without, h]
  | enter left r queue t hmem hmiss hfind ih =>
    rw [meets_of_some hmem hmiss hfind, meets_of_some ((h _).mp hmem) hmiss hfind]
    congr 1
    apply ih
    simp [mem_without, h]
  | read left r queue hmem ih =>
    rw [meets_of_not_mem hmem, meets_of_not_mem (mt (h _).mpr hmem), ih h]

theorem Covered.read (h : Covered left (reference :: queue) extra)
    (hsub : ∀ n ∈ rest, n ∈ left) (hread : rawName reference ∉ rest) :
    Covered rest queue extra := by
  intro s hs
  rcases h s hs with hleft | hqueue
  · exact .inl fun hrest => hleft (hsub _ hrest)
  · rcases List.mem_cons.mp hqueue with heq | hqueue
    · exact .inl (heq ▸ hread)
    · exact .inr hqueue

theorem Covered.append (h : Covered left queue extra) (more : List String) :
    Covered left (queue ++ more) extra := by
  intro s hs
  rw [List.map_append]
  exact (h s hs).imp_right (List.mem_append_left _)

/-- What is spent stays so while the search goes on. -/
theorem Spent.read (h : Spent find? base left (reference :: queue) name)
    (hsub : ∀ n ∈ rest, n ∈ left) (hread : rawName reference ∉ rest) :
    Spent find? base rest queue name where
  missed := h.missed
  parent t ht := by
    obtain ⟨hnamed, hleft, hcovered⟩ := h.parent t ht
    exact ⟨hnamed, fun hrest => hleft (hsub _ hrest), hcovered.read hsub hread⟩

theorem Spent.append (h : Spent find? base left queue name) (more : List String) :
    Spent find? base left (queue ++ more) name where
  missed := h.missed
  parent t ht := by
    obtain ⟨hnamed, hleft, hcovered⟩ := h.parent t ht
    exact ⟨hnamed, hleft, hcovered.append more⟩

theorem mem_of_mem_without {n : String} (h : n ∈ without name left) : n ∈ left :=
  (mem_without.mp h).1

theorem not_mem_without_self : name ∉ without name left :=
  fun h => (mem_without.mp h).2 rfl

theorem meets_skip (h : Covered left [] extra) :
    meets find? base left (extra ++ queue) = meets find? base left queue := by
  induction extra with
  | nil => rfl
  | cons s extra ih =>
    obtain ⟨hs, hextra⟩ := List.forall_mem_cons.mp h
    rw [List.cons_append, meets_of_not_mem (hs.resolve_right (by simp)), ih hextra]

/-- References that are covered by what comes before them change nothing. -/
theorem meets_covered {earlier later : List String} (h : Covered left earlier extra) :
    meets find? base left (earlier ++ (extra ++ later)) =
      meets find? base left (earlier ++ later) := by
  generalize hqueue : earlier ++ later = queue
  -- Along the search that does without `extra`: what covers it is read before it is come to.
  induction left, queue using meets_induction find? base generalizing earlier later with
  | nil left =>
    obtain ⟨rfl, rfl⟩ := List.append_eq_nil_iff.mp hqueue
    exact meets_skip h
  | hits left r queue hmem hhit =>
    cases earlier with
    | nil => exact hqueue ▸ meets_skip h
    | cons s earlier =>
      obtain ⟨rfl, rfl⟩ := List.cons.inj hqueue
      rw [List.cons_append, meets_of_hits hmem hhit, meets_of_hits hmem hhit]
  | unknown left r queue hmem hmiss hfind ih =>
    cases earlier with
    | nil => exact hqueue ▸ meets_skip h
    | cons s earlier =>
      obtain ⟨rfl, rfl⟩ := List.cons.inj hqueue
      rw [List.cons_append, meets_of_none hmem hmiss hfind, meets_of_none hmem hmiss hfind]
      exact ih (h.read (fun _ => mem_of_mem_without) not_mem_without_self) rfl
  | enter left r queue t hmem hmiss hfind ih =>
    cases earlier with
    | nil => exact hqueue ▸ meets_skip h
    | cons s earlier =>
      obtain ⟨rfl, rfl⟩ := List.cons.inj hqueue
      have hrest : Covered (without t.name (without (rawName s) left)) earlier extra :=
        h.read (fun _ hn => mem_of_mem_without (mem_of_mem_without hn))
          (fun hn => not_mem_without_self (mem_of_mem_without hn))
      have hlater := @ih earlier (later ++ t.supertypes) hrest (List.append_assoc _ _ _).symm
      rw [List.cons_append, meets_of_some hmem hmiss hfind, meets_of_some hmem hmiss hfind,
        ← hlater]
      simp only [List.append_assoc]
  | read left r queue hmem ih =>
    cases earlier with
    | nil => exact hqueue ▸ meets_skip h
    | cons s earlier =>
      obtain ⟨rfl, rfl⟩ := List.cons.inj hqueue
      rw [List.cons_append, meets_of_not_mem hmem, meets_of_not_mem hmem]
      exact ih (h.read (fun _ => id) hmem) rfl

/-- A reference that is read already or leads to what is covered is passed over. -/
theorem meets_of_spent
    (h : rawName reference ∈ left →
      Spent find? base left (reference :: queue) (rawName reference)) :
    meets find? base left (reference :: queue) =
      meets find? base (without (rawName reference) left) queue := by
  by_cases hmem : rawName reference ∈ left
  · have hspent := (h hmem).read (fun _ => mem_of_mem_without) not_mem_without_self
    cases hfind : find? (rawName reference) with
    | none => exact meets_of_none hmem hspent.missed hfind
    | some t =>
      obtain ⟨hnamed, hname, hcovered⟩ := hspent.parent t hfind
      have hpassed : meets find? base (without (rawName reference) left) (queue ++ t.supertypes) =
          meets find? base (without (rawName reference) left) queue := by
        simpa using @meets_covered find? base _ _ queue [] hcovered
      rw [meets_of_some hmem hspent.missed hfind, hnamed, without_of_not_mem hname, Bool.false_or,
        hpassed]
  · rw [meets_of_not_mem hmem, without_of_not_mem hmem]

theorem above_of_none {outer : Bindings} {queue : List (String × Bindings)}
    (h : find? (substitute outer reference) = none) :
    above find? left ((reference, outer) :: queue) = above find? left queue := by
  rw [above]
  simp only [h]

theorem above_of_some {outer : Bindings} {queue : List (String × Bindings)}
    (h : find? (substitute outer reference) = some t) :
    above find? left ((reference, outer) :: queue) =
      if t.name ∈ left then
        (t, bind t.parameters (arguments (substitute outer reference))) ::
          above find? (without t.name left) (queue ++ t.supertypes.map fun s =>
            (s, bind t.parameters (arguments (substitute outer reference))))
      else above find? left queue := by
  rw [above]
  simp only [h]

/-- Nothing is above a type that extends nothing. -/
theorem ancestors_of_supertypes_eq_nil (c : Catalog) (h : t.supertypes = []) :
    c.ancestors t = [] := by
  rw [ancestors, h, List.map_nil, above]

theorem allFields_of_supertypes_eq_nil (c : Catalog) (h : t.supertypes = []) :
    c.allFields t = t.fields := by
  rw [allFields, ancestors_of_supertypes_eq_nil c h]
  rfl

theorem allMethods_of_supertypes_eq_nil (c : Catalog) (h : t.supertypes = []) :
    c.allMethods t = t.methods := by
  rw [allMethods, ancestors_of_supertypes_eq_nil c h]
  rfl

theorem above_eq_nil {queue : List (String × Bindings)}
    (h : ∀ e ∈ queue, find? (substitute e.2 e.1) = none) : above find? left queue = [] := by
  induction queue with
  | nil => rw [above]
  | cons e queue ih =>
    rw [List.forall_mem_cons] at h
    rw [above_of_none h.1, ih h.2]

/-- Above a type is its only supertype, and no more if nothing is known of what that extends. -/
theorem ancestors_of_top_supertype {c : Catalog} {u : TypeDecl} {s : String}
    (hsupertypes : t.supertypes = [s]) (hfind : c.find? s = some u) (hne : u.name ≠ t.name)
    (htop : ∀ r ∈ u.supertypes,
      c.find? (substitute (bind u.parameters (arguments s)) r) = none) :
    c.ancestors t = [(u, bind u.parameters (arguments s))] := by
  have hfind' : c.find? (substitute [] s) = some u := by rw [substitute_nil, hfind]
  have hleft : u.name ∈ without t.name (c.types.map (·.name)) :=
    mem_without.mpr ⟨List.mem_map_of_mem (mem_of_find? hfind), hne⟩
  rw [ancestors, hsupertypes, List.map_cons, List.map_nil, above_of_some hfind', if_pos hleft,
    substitute_nil, List.nil_append, above_eq_nil]
  rw [List.forall_mem_map]
  exact htop

/-- Induction along the steps of a search for everything above a type. -/
theorem above_induction (find? : String → Option TypeDecl)
    {motive : List String → List (String × Bindings) → Prop} (nil : ∀ left, motive left [])
    (unknown : ∀ left r b queue, find? (substitute b r) = none → motive left queue →
      motive left ((r, b) :: queue))
    (enter : ∀ left r b queue t, find? (substitute b r) = some t → t.name ∈ left →
      motive (without t.name left) (queue ++ t.supertypes.map fun s =>
        (s, bind t.parameters (arguments (substitute b r)))) →
      motive left ((r, b) :: queue))
    (read : ∀ left r b queue t, find? (substitute b r) = some t → t.name ∉ left →
      motive left queue → motive left ((r, b) :: queue))
    (left : List String) (queue : List (String × Bindings)) : motive left queue :=
  above.induct find? motive nil unknown enter read left queue

theorem above_congr {queue : List (String × Bindings)} (h : ∀ n, n ∈ left ↔ n ∈ rest) :
    above find? left queue = above find? rest queue := by
  induction left, queue using above_induction find? generalizing rest with
  | nil left => rw [above, above]
  | unknown left r b queue hfind ih => rw [above_of_none hfind, above_of_none hfind, ih h]
  | enter left r b queue t hfind hmem ih =>
    have hrest : ∀ n, n ∈ without t.name left ↔ n ∈ without t.name rest := by
      simp [mem_without, h]
    rw [above_of_some hfind, above_of_some hfind, if_pos hmem, if_pos ((h _).mp hmem), ih hrest]
  | read left r b queue t hfind hmem ih =>
    rw [above_of_some hfind, above_of_some hfind, if_neg hmem, if_neg (mt (h _).mpr hmem), ih h]

/-- A name that a search does not come across makes no difference to it. -/
theorem above_without {n : String} {queue : List (String × Bindings)}
    (h : n ∉ (above find? left queue).map (·.1.name)) :
    above find? (without n left) queue = above find? left queue := by
  induction left, queue using above_induction find? with
  | nil left => rw [above, above]
  | unknown left r b queue hfind ih =>
    rw [above_of_none hfind] at h ⊢
    rw [above_of_none hfind, ih h]
  | enter left r b queue u hfind hmem ih =>
    rw [above_of_some hfind, if_pos hmem, List.map_cons, List.mem_cons, not_or] at h
    have hother : u.name ∈ without n left := mem_without.mpr ⟨hmem, Ne.symm h.1⟩
    rw [above_of_some hfind, above_of_some hfind, if_pos hmem, if_pos hother, without_comm,
      ih h.2]
  | read left r b queue u hfind hmem ih =>
    have hneither : u.name ∉ without n left := fun hu => hmem (mem_of_mem_without hu)
    rw [above_of_some hfind, if_neg hmem] at h
    rw [above_of_some hfind, above_of_some hfind, if_neg hmem, if_neg hneither, ih h]

/-- A reference that a type is found above `t` by: one of its own supertypes, or one of a type above
it with the parameters of that type bound. -/
inductive Written (c : Catalog) (t : TypeDecl) : String → Prop
  | own {s : String} (supertype : s ∈ t.supertypes) : Written c t s
  | above {w s : String} {a : TypeDecl} (below : Written c t w) (found : c.find? w = some a)
      (supertype : s ∈ a.supertypes) : Written c t (substitute (bind a.parameters (arguments w)) s)

theorem mem_above {c : Catalog} {u : TypeDecl} {queue : List (String × Bindings)}
    (hqueue : ∀ e ∈ queue, Written c u (substitute e.2 e.1)) {e : TypeDecl × Bindings}
    (he : e ∈ above c.find? left queue) :
    ∃ w, Written c u w ∧ c.find? w = some e.1 ∧ e.2 = bind e.1.parameters (arguments w) := by
  induction left, queue using above_induction c.find? with
  | nil left => simp [above] at he
  | unknown left r b queue hfind ih =>
    rw [above_of_none hfind] at he
    exact ih (fun e he => hqueue e (List.mem_cons_of_mem _ he)) he
  | enter left r b queue t hfind hmem ih =>
    have hw := hqueue (r, b) List.mem_cons_self
    rw [above_of_some hfind, if_pos hmem] at he
    rcases List.mem_cons.mp he with rfl | he
    · exact ⟨_, hw, hfind, rfl⟩
    · refine ih ?_ he
      intro e he
      rcases List.mem_append.mp he with he | he
      · exact hqueue e (List.mem_cons_of_mem _ he)
      · obtain ⟨s, hs, rfl⟩ := List.mem_map.mp he
        exact .above hw hfind hs
  | read left r b queue t hfind hmem ih =>
    rw [above_of_some hfind, if_neg hmem] at he
    exact ih (fun e he => hqueue e (List.mem_cons_of_mem _ he)) he

/-- An ancestor is found by a reference, and its parameters are bound to the arguments of it. -/
theorem mem_ancestors {c : Catalog} {u : TypeDecl} {e : TypeDecl × Bindings}
    (he : e ∈ c.ancestors u) :
    ∃ w, Written c u w ∧ c.find? w = some e.1 ∧ e.2 = bind e.1.parameters (arguments w) := by
  refine mem_above ?_ he
  intro e he
  obtain ⟨s, hs, rfl⟩ := List.mem_map.mp he
  rw [substitute_nil]
  exact .own hs

end EndpointDocs.Catalog
