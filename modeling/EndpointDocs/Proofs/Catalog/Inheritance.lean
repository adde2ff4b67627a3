import EndpointDocs.Proofs.Route.Overriding

namespace EndpointDocs

namespace Annotations

variable {own offers more extra as bs : Annotations} {a b : Annotation} {name : String}

/-- What a declaration with the annotations `own` takes over: the first offer of each name that it
has not got. -/
structure Fills (own offers more : Annotations) : Prop where
  missing : ∀ a ∈ more, has own a.name = false
  first : ∀ a ∈ more, find? offers a.name = some a
  once : more.Pairwise fun a b => a.is b.name = false
  complete : ∀ a ∈ offers, has (own ++ more) a.name = true

theorem is_self (a : Annotation) : a.is a.name = true :=
  decide_eq_true rfl

theorem find?_eq_none_of_has_eq_false (h : has as name = false) : find? as name = none := by
  rwa [has, Option.isSome_eq_false_iff, Option.isNone_iff_eq_none] at h

theorem has_append (as bs : Annotations) (name : String) :
    has (as ++ bs) name = (has as name || has bs name) := by
  rw [has, find?_append, Option.isSome_or, has, has]

theorem has_of_mem (h : a ∈ as) : has as a.name = true :=
  List.find?_isSome.mpr ⟨a, h, is_self a⟩

private theorem find?_append_of_not_has (h : ∀ b ∈ extra, has own b.name = true)
    (hname : has own name = false) : find? (extra ++ offers) name = find? offers name := by
  have hnone : find? extra name = none := by
    rw [find?, List.find?_eq_none]
    intro b hb
    rw [not_is_of_has (h b hb) (find?_eq_none_of_has_eq_false hname)]
    exact Bool.false_ne_true
  rw [find?_append, hnone, Option.none_or]

/-- Offers of names that are there already make no difference. -/
theorem Fills.append_own (h : Fills own offers more) (hextra : ∀ b ∈ extra, has own b.name = true) :
    Fills own (extra ++ offers) more where
  missing := h.missing
  first a ha := (find?_append_of_not_has hextra (h.missing a ha)).trans (h.first a ha)
  once := h.once
  complete a ha := by
    rcases List.mem_append.mp ha with ha | ha
    · rw [has_append, hextra a ha, Bool.true_or]
    · exact h.complete a ha

/-- An offer of a new name is taken over. -/
theorem Fills.cons (h : Fills (own ++ [b]) offers more) (hb : has own b.name = false) :
    Fills own (b :: offers) (b :: more) where
  missing := by
    refine List.forall_mem_cons.mpr ⟨hb, fun a ha => ?_⟩
    exact (Bool.or_eq_false_iff.mp (has_append own [b] a.name ▸ h.missing a ha)).1
  first := by
    refine List.forall_mem_cons.mpr ⟨List.find?_cons_of_pos (is_self b), fun a ha => ?_⟩
    have hother : has [b] a.name = false :=
      (Bool.or_eq_false_iff.mp (has_append own [b] a.name ▸ h.missing a ha)).2
    rw [← List.singleton_append, find?_append, find?_eq_none_of_has_eq_false hother,
      Option.none_or]
    exact h.first a ha
  once := by
    refine List.pairwise_cons.mpr ⟨fun a ha => ?_, h.once⟩
    have hother : has [b] a.name = false :=
      (Bool.or_eq_false_iff.mp (has_append own [b] a.name ▸ h.missing a ha)).2
    have hnot := List.find?_eq_none.mp (find?_eq_none_of_has_eq_false hother) b List.mem_cons_self
    exact Bool.eq_false_iff.mpr hnot
  complete := by
    refine List.forall_mem_cons.mpr ⟨?_, fun a ha => ?_⟩
    · rw [has_append, has_of_mem List.mem_cons_self, Bool.or_true]
    · have hthere := h.complete a ha
      rwa [List.append_assoc] at hthere

private theorem exists_fills (own offers : Annotations) :
    ∃ more, mergeMissing own offers = own ++ more ∧ Fills own offers more := by
  induction offers generalizing own with
  | nil =>
    have hnothing : Fills own [] [] :=
      ⟨List.forall_mem_nil _, List.forall_mem_nil _, .nil, List.forall_mem_nil _⟩
    exact ⟨[], (List.append_nil own).symm, hnothing⟩
  | cons b offers ih =>
    have hstep : mergeMissing own (b :: offers) =
        mergeMissing (if has own b.name then own else own ++ [b]) offers := rfl
    cases hb : has own b.name with
    | true =>
      obtain ⟨more, heq, hfills⟩ := ih own
      rw [hstep, hb, if_pos rfl, heq]
      exact ⟨more, rfl, hfills.append_own (List.forall_mem_singleton.mpr hb)⟩
    | false =>
      obtain ⟨more, heq, hfills⟩ := ih (own ++ [b])
      rw [hstep, hb, if_neg Bool.false_ne_true, heq, List.append_assoc]
      exact ⟨b :: more, rfl, hfills.cons hb⟩

theorem mergeMissing_append (as bs cs : Annotations) :
    mergeMissing as (bs ++ cs) = mergeMissing (mergeMissing as bs) cs :=
  List.foldl_append

end Annotations

namespace Catalog

open Annotations

variable {c : Catalog} {t : TypeDecl} {m e f i : MethodDecl} {ms is es above : List MethodDecl}

/-- The annotations of the parameters with the number `i`. -/
def annotationsAt (i : Nat) (ms : List MethodDecl) : Annotations :=
  ms.flatMap fun m => (m.parameters[i]?).elim [] (·.annotations)

/-- `e` is `m` with the annotations that it has not got, of the method and of each parameter, taken
from the methods in `above`, the first ones first. -/
structure Completes (above : List MethodDecl) (m e : MethodDecl) : Prop where
  name : e.name = m.name
  returnType : e.returnType = m.returnType
  modifiers : e.modifiers = m.modifiers
  signature : e.signature = m.signature
  annotations : ∃ more, e.annotations = m.annotations ++ more ∧
    Fills m.annotations (above.flatMap (·.annotations)) more
  arity : e.parameters.length = m.parameters.length
  parameters : ∀ (i : Nat) (p q : ParameterDecl),
    m.parameters[i]? = some p → e.parameters[i]? = some q →
      q.name = p.name ∧ q.typeText = p.typeText ∧ ∃ more, q.annotations = p.annotations ++ more ∧
        Fills p.annotations (annotationsAt i above) more

private theorem getElem?_mergeParameters (ps qs : List ParameterDecl) (k : Nat) :
    (mergeParameters ps qs)[k]? = ps[k]?.map fun p =>
      { p with annotations := mergeMissing p.annotations ((qs[k]?).elim [] (·.annotations)) } := by
  fun_induction mergeParameters ps qs generalizing k with
  | case1 p ps q qs ih =>
    cases k with
    | zero => rfl
    | succ k => exact ih k
  | case2 ps qs hshort =>
    cases qs with
    | nil => simp [mergeMissing]
    | cons q qs =>
      cases ps with
      | nil => rfl
      | cons p ps => exact absurd rfl (hshort p ps q qs rfl)

private theorem annotations_foldl_mergeInherited (m : MethodDecl) (is : List MethodDecl) :
    (is.foldl mergeInherited m).annotations =
      mergeMissing m.annotations (is.flatMap (·.annotations)) := by
  induction is generalizing m with
  | nil => rfl
  | cons i is ih => rw [List.foldl_cons, ih, List.flatMap_cons, mergeMissing_append, mergeInherited]

private theorem parameters_foldl_mergeInherited (m : MethodDecl) (is : List MethodDecl) (k : Nat) :
    (is.foldl mergeInherited m).parameters[k]? = m.parameters[k]?.map fun p =>
      { p with annotations := mergeMissing p.annotations (annotationsAt k is) } := by
  induction is generalizing m with
  | nil => simp [annotationsAt, mergeMissing]
  | cons i is ih =>
    rw [List.foldl_cons, ih, mergeInherited, getElem?_mergeParameters, Option.map_map]
    congr 1
    funext p
    simp only [Function.comp_apply, annotationsAt, List.flatMap_cons, mergeMissing_append]

/-- Nothing but annotations and documentation is merged. -/
theorem foldl_mergeInherited_congr {α : Type} (g : MethodDecl → α)
    (hg : ∀ m i, g (mergeInherited m i) = g m) (m : MethodDecl) (is : List MethodDecl) :
    g (is.foldl mergeInherited m) = g m := by
  induction is generalizing m with
  | nil => rfl
  | cons i is ih => rw [List.foldl_cons, ih, hg]

private theorem completes_foldl (m : MethodDecl) (is : List MethodDecl) :
    Completes is m (is.foldl mergeInherited m) where
  name := foldl_mergeInherited_congr (·.name) (fun _ _ => rfl) m is
  returnType := foldl_mergeInherited_congr (·.returnType) (fun _ _ => rfl) m is
  modifiers := foldl_mergeInherited_congr (·.modifiers) (fun _ _ => rfl) m is
  signature := foldl_mergeInherited_congr (·.signature) (fun _ _ => rfl) m is
  annotations := by
    rw [annotations_foldl_mergeInherited]
    exact exists_fills _ _
  arity := foldl_mergeInherited_congr (·.parameters.length)
    (fun m i => length_mergeParameters m.parameters i.parameters) m is
  parameters k p q hp hq := by
    rw [parameters_foldl_mergeInherited, hp, Option.map_some, Option.some.injEq] at hq
    subst hq
    exact ⟨rfl, rfl, exists_fills _ _⟩

theorem Completes.overrides (h : Completes above m e) (i : MethodDecl) :
    e.overrides i = m.overrides i := by
  rw [Bool.eq_iff_iff, overrides_iff, overrides_iff, h.name, h.arity]

private theorem Completes.overrides_completes {above' : List MethodDecl} {x : MethodDecl}
    (h : Completes above m e) (h' : Completes above' x f) : e.overrides f = m.overrides x := by
  rw [h.overrides, overrides_comm, h'.overrides, overrides_comm]

/-- A method has nothing to take over from itself. -/
theorem Completes.cons_self (h : Completes above m e) : Completes (m :: above) m e := by
  refine { h with annotations := ?_, parameters := fun k p q hp hq => ?_ }
  · obtain ⟨more, heq, hfills⟩ := h.annotations
    exact ⟨more, heq, hfills.append_own fun b hb => has_of_mem hb⟩
  · obtain ⟨hname, htype, more, heq, hfills⟩ := h.parameters k p q hp hq
    refine ⟨hname, htype, more, heq, ?_⟩
    rw [annotationsAt, List.flatMap_cons, hp]
    exact hfills.append_own fun b hb => has_of_mem hb

/-- What inheriting `is` makes of the methods `ms`: the first method takes over all that it
overrides, and where no methods are left the first inherited one comes in. -/
inductive Merges : List MethodDecl → List MethodDecl → List MethodDecl → Prop
  | done : Merges [] [] []
  | own (m : MethodDecl) {ms is es : List MethodDecl}
      (rest : Merges ms (is.filter fun i => !m.overrides i) es) :
      Merges (m :: ms) is ((is.filter fun i => m.overrides i).foldl mergeInherited m :: es)
  | new (i : MethodDecl) {is es : List MethodDecl}
      (rest : Merges [] (is.filter fun x => !i.overrides x) es) :
      Merges [] (i :: is) ((is.filter fun x => i.overrides x).foldl mergeInherited i :: es)

theorem foldl_addInherited_cons (m : MethodDecl) (ms is : List MethodDecl) :
    is.foldl (fun ms i => addInherited i ms) (m :: ms) =
      (is.filter fun i => m.overrides i).foldl mergeInherited m ::
        (is.filter fun i => !m.overrides i).foldl (fun ms i => addInherited i ms) ms := by
  induction is generalizing m ms with
  | nil => rfl
  | cons i is ih =>
    rw [List.foldl_cons, addInherited]
    cases hi : m.overrides i with
    | true =>
      have hsame : (mergeInherited m i).overrides = m.overrides := by
        funext x
        exact overrides_mergeInherited m i x
      rw [if_pos rfl, ih, hsame, List.filter_cons_of_pos hi, List.filter_cons_of_neg (by simp [hi]),
        List.foldl_cons]
    | false =>
      rw [if_neg Bool.false_ne_true, ih, List.filter_cons_of_neg (by simp [hi]),
        List.filter_cons_of_pos (by simp [hi]), List.foldl_cons]

theorem merges_foldl (ms is : List MethodDecl) :
    Merges ms is (is.foldl (fun ms i => addInherited i ms) ms) := by
  induction ms generalizing is with
  | cons m ms ih =>
    rw [foldl_addInherited_cons]
    exact .own m (ih _)
  | nil =>
    -- Every method that comes in takes away those that it overrides, so what is left gets shorter.
    induction h : is.length using Nat.strong_induction_on generalizing is with
    | _ n ih =>
      cases is with
      | nil => exact .done
      | cons i is =>
        have hshorter : (is.filter fun x => !i.overrides x).length < n :=
          h ▸ Nat.lt_succ_of_le (List.length_filter_le _ _)
        rw [List.foldl_cons, addInherited, foldl_addInherited_cons]
        exact .new i (ih _ hshorter _ rfl)

theorem Merges.length_le (h : Merges ms is es) : ms.length ≤ es.length := by
  induction h with
  | done => exact Nat.le_refl 0
  | own m _ ih => exact Nat.succ_le_succ ih
  | new i _ _ => exact Nat.zero_le _

/-- The methods above that `m` overrides, but no method before it does. -/
def takesOver (before : List MethodDecl) (m : MethodDecl) (above : List MethodDecl) :
    List MethodDecl :=
  above.filter fun i => m.overrides i && !before.any (·.overrides i)

theorem takesOver_nil (m : MethodDecl) (above : List MethodDecl) :
    takesOver [] m above = above.filter (m.overrides ·) := by
  simp [takesOver]

theorem takesOver_cons (f m : MethodDecl) (before above : List MethodDecl) :
    takesOver (f :: before) m above = takesOver before m (above.filter (!f.overrides ·)) := by
  rw [takesOver, takesOver, List.filter_filter]
  apply List.filter_congr
  intro i _
  rw [List.any_cons, Bool.not_or, Bool.and_comm (!f.overrides i), Bool.and_assoc]

/-- Each entry completes the method that stands in its place, or an inherited one that no entry
before it overrides. -/
theorem Merges.completes (h : Merges ms is es) {k : Nat} (he : es[k]? = some e) :
    ∃ m, Completes (takesOver (es.take k) e is) m e ∧
      (ms[k]? = some m ∨
        ms.length ≤ k ∧ m ∈ is ∧ ∀ f ∈ es.take k, f.overrides e = false) := by
  induction h generalizing k with
  | done => cases he
  | @own m ms is es _ ih =>
    cases k with
    | zero =>
      obtain rfl := Option.some.inj he
      have hcompletes := completes_foldl m (is.filter fun i => m.overrides i)
      refine ⟨m, ?_, .inl rfl⟩
      rw [List.take_zero, takesOver_nil, funext hcompletes.overrides]
      exact hcompletes
    | succ k =>
      -- Behind the first entry only those are merged that it does not override.
      obtain ⟨x, hcompletes, hplace⟩ := ih he
      refine ⟨x, ?_, hplace.imp id fun ⟨hle, hx, hbefore⟩ => ⟨Nat.succ_le_succ hle, ?_⟩⟩
      · rw [List.take_succ_cons, takesOver_cons, funext (completes_foldl m _).overrides]
        exact hcompletes
      · obtain ⟨hmem, hnot⟩ := List.mem_filter.mp hx
        refine ⟨hmem, List.take_succ_cons ▸ List.forall_mem_cons.mpr ⟨?_, hbefore⟩⟩
        rw [(completes_foldl m _).overrides_completes hcompletes]
        simpa using hnot
  | @new i is es _ ih =>
    have hself : i.overrides i = true := overrides_iff.mpr ⟨rfl, rfl⟩
    cases k with
    | zero =>
      obtain rfl := Option.some.inj he
      have hcompletes := completes_foldl i (is.filter fun x => i.overrides x)
      refine ⟨i, ?_, .inr ⟨Nat.le_refl 0, List.mem_cons_self, List.forall_mem_nil _⟩⟩
      rw [List.take_zero, takesOver_nil, funext hcompletes.overrides, List.filter_cons_of_pos hself]
      exact hcompletes.cons_self
    | succ k =>
      obtain ⟨x, hcompletes, hplace⟩ := ih he
      obtain ⟨hle, hx, hbefore⟩ := hplace.resolve_left (by simp)
      obtain ⟨hmem, hnot⟩ := List.mem_filter.mp hx
      refine ⟨x, ?_, .inr ⟨Nat.zero_le _, List.mem_cons_of_mem _ hmem, ?_⟩⟩
      · rw [List.take_succ_cons, takesOver_cons, funext (completes_foldl i _).overrides,
          List.filter_cons_of_neg (by simp [hself])]
        exact hcompletes
      · refine List.take_succ_cons ▸ List.forall_mem_cons.mpr ⟨?_, hbefore⟩
        rw [(completes_foldl i _).overrides_completes hcompletes]
        simpa using hnot

private theorem Merges.exists_completes (h : Merges ms is es) (hm : m ∈ ms) :
    ∃ e ∈ es, ∃ above, Completes above m e := by
  obtain ⟨k, hk⟩ := List.mem_iff_getElem?.mp hm
  have hlt : k < ms.length := (List.getElem?_eq_some_iff.mp hk).1
  have hle : k < es.length := hlt.trans_le h.length_le
  obtain ⟨x, hcompletes, hplace⟩ := h.completes (List.getElem?_eq_getElem hle)
  rcases hplace with hx | ⟨hbehind, _⟩
  · obtain rfl : m = x := Option.some.inj (hk.symm.trans hx)
    exact ⟨_, List.getElem_mem hle, _, hcompletes⟩
  · exact absurd hlt (Nat.not_lt.mpr hbehind)

/-- Methods that have come in by being inherited do not override each other. -/
theorem Merges.pairwise_new (h : Merges [] is es) :
    es.Pairwise fun e f => e.overrides f = false := by
  rw [List.pairwise_iff_getElem]
  intro i j hi hj hlt
  obtain ⟨_, _, hplace⟩ := h.completes (List.getElem?_eq_getElem hj)
  obtain ⟨_, _, hbefore⟩ := hplace.resolve_left (by simp)
  exact hbefore _ (List.mem_take_iff_getElem.mpr ⟨i, by omega, rfl⟩)

theorem Merges.pairwise_own (h : Merges ms is es)
    (hes : es.Pairwise fun e f => e.overrides f = false) :
    ms.Pairwise fun m i => m.overrides i = false := by
  induction h with
  | done => exact .nil
  | @own m ms is es rest ih =>
    obtain ⟨hhead, htail⟩ := List.pairwise_cons.mp hes
    refine List.pairwise_cons.mpr ⟨fun i hi => ?_, ih htail⟩
    obtain ⟨e, he, above, hcompletes⟩ := rest.exists_completes hi
    rw [← (completes_foldl m _).overrides_completes hcompletes]
    exact hhead e he
  | new i _ _ => exact .nil

theorem foldl_addInherited_of_pairwise (h : is.Pairwise fun m i => m.overrides i = false) :
    is.foldl (fun ms i => addInherited i ms) [] = is := by
  induction is with
  | nil => rfl
  | cons i is ih =>
    obtain ⟨hi, his⟩ := List.pairwise_cons.mp h
    have hnone : (is.filter fun x => i.overrides x) = [] :=
      List.filter_eq_nil_iff.mpr fun x hx => by simp [hi x hx]
    have hall : (is.filter fun x => !i.overrides x) = is :=
      List.filter_eq_self.mpr fun x hx => by simp [hi x hx]
    rw [List.foldl_cons, addInherited, foldl_addInherited_cons, hnone, hall, ih his, List.foldl_nil]

/-- The methods above `t` with the parameters of their types bound, nearest first. -/
def offered (c : Catalog) (t : TypeDecl) : List MethodDecl :=
  (c.ancestors t).flatMap fun (a, b) => a.methods.map (bindMethod b)

theorem allMethods_eq (c : Catalog) (t : TypeDecl) :
    c.allMethods t = (c.offered t).foldl (fun ms i => addInherited i ms) t.methods :=
  rfl

end Catalog

end EndpointDocs
