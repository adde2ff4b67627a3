import EndpointDocs.Resolution

namespace EndpointDocs.Noting

variable {α β γ : Type}

theorem bind_eq_some {x : Noting α} {f : α → Noting β} {w : List Warning}
    {r : β × List Warning} :
    (x >>= f) w = some r ↔ ∃ a w', x w = some (a, w') ∧ f a w' = some r := by
  change ((x w).bind fun s => f s.1 s.2) = some r ↔ _
  simp [Option.bind_eq_some_iff]

theorem map_eq_some {x : Noting α} {f : α → β} {w : List Warning} {r : β × List Warning} :
    (f <$> x) w = some r ↔ ∃ a w', x w = some (a, w') ∧ (f a, w') = r := by
  change ((x w).bind fun s => some (f s.1, s.2)) = some r ↔ _
  simp [Option.bind_eq_some_iff]

/-- Whatever a run gives has the property. -/
def Yields (x : Noting α) (P : α → Prop) : Prop :=
  ∀ ⦃w a w'⦄, x w = some (a, w') → P a

theorem yields_pure {P : α → Prop} {a : α} (h : P a) : Yields (pure a) P := by
  intro w b w' hb
  cases hb
  exact h

theorem yields_endless (P : α → Prop) : Yields endless P := by
  intro w a w' h
  cases h

theorem Yields.bind {P : α → Prop} {Q : β → Prop} {x : Noting α} {f : α → Noting β}
    (hx : Yields x P) (hf : ∀ a, P a → Yields (f a) Q) : Yields (x >>= f) Q := by
  intro w b w' hb
  obtain ⟨a, v, ha, hb⟩ := bind_eq_some.mp hb
  exact hf a (hx ha) hb

theorem Yields.map {P : α → Prop} {Q : β → Prop} {x : Noting α} {f : α → β}
    (hx : Yields x P) (hf : ∀ a, P a → Q (f a)) : Yields (f <$> x) Q := by
  intro w b w' hb
  obtain ⟨a, v, ha, he⟩ := map_eq_some.mp hb
  cases he
  exact hf a (hx ha)

theorem yields_true (x : Noting α) : Yields x fun _ => True :=
  fun _ _ _ _ => trivial

/-- What each step keeps holds after a whole fold. -/
theorem yields_foldlM {P : β → Prop} {f : β → α → Noting β} {l : List α} {b : β} (hb : P b)
    (hf : ∀ b, P b → ∀ a ∈ l, Yields (f b a) P) : Yields (l.foldlM f b) P := by
  induction l generalizing b with
  | nil => exact yields_pure hb
  | cons a l ih =>
    rw [List.foldlM_cons]
    refine (hf b hb a List.mem_cons_self).bind ?_
    intro c hc
    exact ih hc fun b hb a ha => hf b hb a (List.mem_cons_of_mem _ ha)

/-- A run that always gives a result. -/
def Answers (x : Noting α) : Prop :=
  ∀ w, ∃ r, x w = some r

theorem answers_pure (a : α) : Answers (pure a) :=
  fun w => ⟨(a, w), rfl⟩

theorem Answers.bind {x : Noting α} {f : α → Noting β} (hx : Answers x)
    (hf : ∀ a, Answers (f a)) : Answers (x >>= f) := by
  intro w
  obtain ⟨⟨a, v⟩, ha⟩ := hx w
  obtain ⟨r, hr⟩ := hf a v
  exact ⟨r, bind_eq_some.mpr ⟨a, v, ha, hr⟩⟩

theorem Answers.map {x : Noting α} (hx : Answers x) (f : α → β) : Answers (f <$> x) := by
  intro w
  obtain ⟨⟨a, v⟩, ha⟩ := hx w
  exact ⟨_, map_eq_some.mpr ⟨a, v, ha, rfl⟩⟩

theorem answers_foldlM {f : β → α → Noting β} {l : List α}
    (hf : ∀ b, ∀ a ∈ l, Answers (f b a)) (b : β) : Answers (l.foldlM f b) := by
  induction l generalizing b with
  | nil => exact answers_pure b
  | cons a l ih =>
    rw [List.foldlM_cons]
    refine (hf b a List.mem_cons_self).bind ?_
    exact ih fun b a ha => hf b a (List.mem_cons_of_mem _ ha)

/-- A fold that gave a result has gone through every element. -/
theorem foldlM_step_eq_some {f : β → α → Noting β} {l : List α} {b : β} {w : List Warning}
    {r : β × List Warning} (h : l.foldlM f b w = some r) {a : α} (ha : a ∈ l) :
    ∃ c v s, f c a v = some s := by
  induction l generalizing b w with
  | nil => cases ha
  | cons x l ih =>
    rw [List.foldlM_cons] at h
    obtain ⟨c, v, hc, h⟩ := bind_eq_some.mp h
    rcases List.mem_cons.mp ha with rfl | ha
    · exact ⟨b, w, _, hc⟩
    · exact ih h ha

theorem foldlM_congr {f g : β → α → Noting β} {l : List α}
    (h : ∀ b, ∀ a ∈ l, f b a = g b a) (b : β) : l.foldlM f b = l.foldlM g b := by
  induction l generalizing b with
  | nil => rfl
  | cons a l ih =>
    rw [List.foldlM_cons, List.foldlM_cons, h b a List.mem_cons_self]
    congr 1
    funext c
    exact ih (fun b a ha => h b a (List.mem_cons_of_mem _ ha)) c

/-- Two runs give the same, whatever warnings they start from, or both give nothing. -/
def Alike (x y : Noting α) : Prop :=
  ∀ v w, (x v).map Prod.fst = (y w).map Prod.fst

/-- Both runs give something, whatever warnings they start from, but never the same. -/
def Differ (x y : Noting α) : Prop :=
  ∀ v w, ∃ a v' b w', x v = some (a, v') ∧ y w = some (b, w') ∧ a ≠ b

theorem alike_pure (a : α) : Alike (pure a) (pure a) :=
  fun _ _ => rfl

theorem alike_warn (title message other : String) : Alike (warn title message) (warn title other) :=
  fun _ _ => rfl

theorem Alike.bind {x y : Noting α} {f g : α → Noting β} (hx : Alike x y)
    (hf : ∀ a, Alike (f a) (g a)) : Alike (x >>= f) (y >>= g) := by
  intro v w
  have hxy := hx v w
  change ((x v).bind fun s => f s.1 s.2).map Prod.fst = ((y w).bind fun s => g s.1 s.2).map Prod.fst
  cases hv : x v with
  | none =>
    rw [hv, Option.map_none, eq_comm, Option.map_eq_none_iff] at hxy
    rw [hxy]
    rfl
  | some s =>
    rw [hv, Option.map_some, eq_comm, Option.map_eq_some_iff] at hxy
    obtain ⟨t, ht, heq⟩ := hxy
    rw [ht]
    change (f s.1 s.2).map Prod.fst = (g t.1 t.2).map Prod.fst
    rw [heq]
    exact hf s.1 s.2 t.2

theorem Alike.map {x y : Noting α} (hx : Alike x y) (f : α → β) : Alike (f <$> x) (f <$> y) :=
  hx.bind fun a => alike_pure (f a)

/-- Folds along a list and along its image, each step like the other. -/
theorem alike_foldlM_map {h : α → γ} {f : β → α → Noting β} {g : β → γ → Noting β} {l : List α}
    (hfg : ∀ b, ∀ a ∈ l, Alike (f b a) (g b (h a))) (b : β) :
    Alike (l.foldlM f b) ((l.map h).foldlM g b) := by
  induction l generalizing b with
  | nil => exact alike_pure b
  | cons a l ih =>
    rw [List.foldlM_cons, List.map_cons, List.foldlM_cons]
    refine (hfg b a List.mem_cons_self).bind ?_
    exact ih fun b a ha => hfg b a (List.mem_cons_of_mem _ ha)

theorem alike_foldlM {f g : β → α → Noting β} {l : List α}
    (hfg : ∀ b, ∀ a ∈ l, Alike (f b a) (g b a)) (b : β) : Alike (l.foldlM f b) (l.foldlM g b) := by
  have hfold := alike_foldlM_map (h := id) hfg b
  rwa [List.map_id] at hfold

/-- A run whose result does not depend on the warnings given before. -/
abbrev Steady (x : Noting α) : Prop :=
  Alike x x

theorem Steady.eq {x : Noting α} (hx : Steady x) (w : List Warning) :
    (x w).map Prod.fst = (x []).map Prod.fst :=
  hx w []

/-- What a run gives by itself. -/
def given? (x : Noting α) : Option α :=
  (x []).map Prod.fst

theorem given?_eq_some {x : Noting α} (hx : Steady x) {w w' : List Warning} {a : α}
    (h : x w = some (a, w')) : x.given? = some a := by
  rw [given?, ← hx.eq w, h, Option.map_some]

theorem given?_bind {x : Noting α} {f : α → Noting β} (hf : ∀ a, Steady (f a)) :
    given? (x >>= f) = x.given?.bind fun a => (f a).given? := by
  change ((x []).bind fun r => f r.1 r.2).map Prod.fst = ((x []).map Prod.fst).bind _
  cases x [] with
  | none => rfl
  | some r => exact (hf r.1).eq r.2

theorem given?_map (x : Noting α) (f : α → β) : given? (f <$> x) = x.given?.map f :=
  (given?_bind fun a => alike_pure (f a)).trans (by cases x.given? <;> rfl)

theorem given?_foldlM {f : β → α → Noting β} {l : List α} (hf : ∀ b a, Steady (f b a)) (b : β) :
    given? (l.foldlM f b) = l.foldlM (fun b a => (f b a).given?) b := by
  induction l generalizing b with
  | nil => rfl
  | cons a l ih =>
    rw [List.foldlM_cons, List.foldlM_cons,
      given?_bind fun c => alike_foldlM (fun c a _ => hf c a) c]
    exact congrArg ((f b a).given?.bind ·) (funext ih)

theorem alike_mapM {f g : α → Noting β} {l : List α} (hfg : ∀ a ∈ l, Alike (f a) (g a)) :
    Alike (l.mapM f) (l.mapM g) := by
  induction l with
  | nil => exact alike_pure []
  | cons a l ih =>
    rw [List.mapM_cons, List.mapM_cons]
    refine (hfg a List.mem_cons_self).bind fun b => ?_
    exact (ih fun a ha => hfg a (List.mem_cons_of_mem _ ha)).bind fun bs => alike_pure (b :: bs)

theorem steady_mapM {f : α → Noting β} {l : List α} (hf : ∀ a ∈ l, Steady (f a)) :
    Steady (l.mapM f) :=
  alike_mapM hf

/-- Steady runs one after the other give what each of them gives by itself. -/
theorem map_mapM {f : α → Noting β} {l : List α} (hf : ∀ a ∈ l, Steady (f a))
    (w : List Warning) :
    (l.mapM f w).map Prod.fst = l.mapM fun a => (f a []).map Prod.fst := by
  induction l generalizing w with
  | nil => rfl
  | cons a l ih =>
    have hrest := ih fun a ha => hf a (List.mem_cons_of_mem _ ha)
    have hfirst := (hf a List.mem_cons_self).eq w
    rw [List.mapM_cons, List.mapM_cons]
    change ((f a w).bind fun r => (l.mapM f r.2).bind fun s => some (r.1 :: s.1, s.2)).map
      Prod.fst = _
    rw [← hfirst]
    cases f a w with
    | none => rfl
    | some r =>
      change ((l.mapM f r.2).bind fun s => some (r.1 :: s.1, s.2)).map Prod.fst =
        (l.mapM fun a => (f a []).map Prod.fst).bind fun bs => some (r.1 :: bs)
      rw [← hrest r.2]
      cases l.mapM f r.2 <;> rfl

theorem mapM_eq_pure {m : Type → Type} [Monad m] [LawfulMonad m] {f : α → m β} {g : α → β}
    {l : List α} (h : ∀ a ∈ l, f a = pure (g a)) : l.mapM f = pure (l.map g) := by
  induction l with
  | nil => rfl
  | cons a l ih =>
    rw [List.forall_mem_cons] at h
    rw [List.mapM_cons, h.1, ih h.2, pure_bind, pure_bind, List.map_cons]

/-- Results in a row are those of runs for the elements, and each element has had its run. -/
theorem mapM_eq_some {f : α → Noting β} {l : List α} {w v : List Warning} {bs : List β}
    (h : l.mapM f w = some (bs, v)) :
    (∀ b ∈ bs, ∃ a ∈ l, ∃ w v, f a w = some (b, v)) ∧
      ∀ a ∈ l, ∃ b ∈ bs, ∃ w v, f a w = some (b, v) := by
  induction l generalizing w bs with
  | nil =>
    cases h
    exact ⟨List.forall_mem_nil _, List.forall_mem_nil _⟩
  | cons a l ih =>
    rw [List.mapM_cons] at h
    obtain ⟨b, w', hb, h⟩ := bind_eq_some.mp h
    obtain ⟨bs, v', hbs, h⟩ := bind_eq_some.mp h
    cases h
    obtain ⟨hresults, helements⟩ := ih hbs
    constructor
    · refine List.forall_mem_cons.mpr ⟨⟨a, List.mem_cons_self, w, w', hb⟩, fun c hc => ?_⟩
      obtain ⟨x, hx, hrun⟩ := hresults c hc
      exact ⟨x, List.mem_cons_of_mem a hx, hrun⟩
    · refine List.forall_mem_cons.mpr ⟨⟨b, List.mem_cons_self, w, w', hb⟩, fun x hx => ?_⟩
      obtain ⟨c, hc, hrun⟩ := helements x hx
      exact ⟨c, List.mem_cons_of_mem b hc, hrun⟩

/-- What is known of each result in a row is known of all of them. -/
theorem yields_mapM {f : α → Noting β} {l : List α} {h : β → γ} {g : α → γ}
    (hf : ∀ a ∈ l, Yields (f a) fun b => h b = g a) :
    Yields (l.mapM f) fun bs => bs.map h = l.map g := by
  induction l with
  | nil => exact yields_pure rfl
  | cons a l ih =>
    rw [List.mapM_cons]
    refine (hf a List.mem_cons_self).bind fun b hb => ?_
    refine (ih fun a ha => hf a (List.mem_cons_of_mem _ ha)).bind fun bs hbs => yields_pure ?_
    rw [List.map_cons, List.map_cons, hb, hbs]

/-- A way to compare two runs by a relation between what they give: related values give related
runs, and runs that are related stay so when each goes on with what it gave. -/
structure Comparison (Holds : ∀ {α β : Type}, (α → β → Prop) → Noting α → Noting β → Prop) :
    Prop where
  pure {α β : Type} {R : α → β → Prop} {a : α} {b : β} :
    R a b → Holds R (Pure.pure a) (Pure.pure b)
  bind {α β γ δ : Type} {R : α → β → Prop} {S : γ → δ → Prop} {x : Noting α} {y : Noting β}
    {f : α → Noting γ} {g : β → Noting δ} :
    Holds R x y → (∀ a b, R a b → Holds S (f a) (g b)) → Holds S (x >>= f) (y >>= g)

namespace Comparison

variable {Holds : ∀ {α β : Type}, (α → β → Prop) → Noting α → Noting β → Prop}
  (c : Comparison Holds)

include c

theorem map {δ : Type} {R : α → β → Prop} {S : γ → δ → Prop} {x : Noting α} {y : Noting β}
    {f : α → γ} {g : β → δ} (hx : Holds R x y) (hf : ∀ a b, R a b → S (f a) (g b)) :
    Holds S (f <$> x) (g <$> y) :=
  c.bind hx fun a b h => c.pure (hf a b h)

/-- Two folds along a list keep what each pair of steps keeps. -/
theorem foldlM {R : β → γ → Prop} {f : β → α → Noting β} {g : γ → α → Noting γ} {l : List α}
    (hfg : ∀ b b', R b b' → ∀ a ∈ l, Holds R (f b a) (g b' a)) {b : β} {b' : γ} (h : R b b') :
    Holds R (l.foldlM f b) (l.foldlM g b') := by
  induction l generalizing b b' with
  | nil => exact c.pure h
  | cons a l ih =>
    rw [List.foldlM_cons, List.foldlM_cons]
    refine c.bind (hfg b b' h a List.mem_cons_self) fun b b' h => ?_
    exact ih (fun b b' h a ha => hfg b b' h a (List.mem_cons_of_mem _ ha)) h

end Comparison

/-- Two runs give related results and the same warnings, or both give nothing. -/
def Parallel (R : α → β → Prop) (x : Noting α) (y : Noting β) : Prop :=
  ∀ w, Option.Rel (fun r s => R r.1 s.1 ∧ r.2 = s.2) (x w) (y w)

theorem parallel_pure {R : α → β → Prop} {a : α} {b : β} (h : R a b) :
    Parallel R (pure a) (pure b) :=
  fun _ => .some ⟨h, rfl⟩

theorem parallel_endless (R : α → β → Prop) : Parallel R endless endless :=
  fun _ => .none

theorem parallel_self {R : α → α → Prop} (h : ∀ a, R a a) (x : Noting α) : Parallel R x x := by
  intro w
  cases x w with
  | none => exact .none
  | some r => exact .some ⟨h r.1, rfl⟩

theorem Parallel.bind {δ : Type} {R : α → β → Prop} {S : γ → δ → Prop} {x : Noting α}
    {y : Noting β} {f : α → Noting γ} {g : β → Noting δ} (hx : Parallel R x y)
    (hf : ∀ a b, R a b → Parallel S (f a) (g b)) : Parallel S (x >>= f) (y >>= g) := by
  intro w
  have hxy := hx w
  change Option.Rel _ ((x w).bind fun r => f r.1 r.2) ((y w).bind fun r => g r.1 r.2)
  generalize x w = before at hxy ⊢
  generalize y w = after at hxy ⊢
  cases hxy with
  | none => exact .none
  | @some r s h =>
    obtain ⟨hvalue, hwarnings⟩ := h
    have hnext := hf r.1 s.1 hvalue r.2
    simp only [Option.bind_some]
    rwa [← hwarnings]

theorem comparison_parallel : Comparison Parallel :=
  ⟨parallel_pure, Parallel.bind⟩

/-- Runs whose results look the same are one run, looked at. -/
theorem Parallel.map_eq {x : Noting α} {y : Noting β} {f : α → γ} {g : β → γ}
    (h : Parallel (fun a b => f a = g b) x y) : f <$> x = g <$> y := by
  funext w
  have hxy := h w
  change ((x w).bind fun r => some (f r.1, r.2)) = (y w).bind fun r => some (g r.1, r.2)
  generalize x w = before at hxy ⊢
  generalize y w = after at hxy ⊢
  cases hxy with
  | none => rfl
  | some h => simp [h.1, h.2]

theorem Parallel.eq {x y : Noting α} (h : Parallel Eq x y) : x = y := by
  have heq := Parallel.map_eq (f := id) (g := id) h
  rwa [id_map, id_map] at heq

/-- What is known of all that a run gives can be used when it is compared with itself. -/
theorem Yields.parallel {x : Noting α} {P : α → Prop} (h : Yields x P) :
    Parallel (fun a b => a = b ∧ P a) x x := by
  intro w
  cases hx : x w with
  | none => exact .none
  | some r => exact .some ⟨⟨rfl, h hx⟩, rfl⟩

/-- Whatever two runs give is related; either may give nothing. -/
def Related (R : α → β → Prop) (x : Noting α) (y : Noting β) : Prop :=
  ∀ ⦃v v' w w' a b⦄, x v = some (a, v') → y w = some (b, w') → R a b

theorem related_pure {R : α → β → Prop} {a : α} {b : β} (h : R a b) :
    Related R (pure a) (pure b) := by
  intro v v' w w' c d hc hd
  cases hc
  cases hd
  exact h

theorem Related.imp {R S : α → β → Prop} {x : Noting α} {y : Noting β} (h : Related R x y)
    (himp : ∀ a b, R a b → S a b) : Related S x y :=
  fun _ _ _ _ a b ha hb => himp a b (h ha hb)

/-- What is known of the results of each of two runs relates them. -/
theorem Yields.related {R : α → β → Prop} {P : α → Prop} {Q : β → Prop} {x : Noting α}
    {y : Noting β} (hx : Yields x P) (hy : Yields y Q) (h : ∀ a b, P a → Q b → R a b) :
    Related R x y :=
  fun _ _ _ _ a b ha hb => h a b (hx ha) (hy hb)

theorem related_endless_left (R : α → β → Prop) (y : Noting β) : Related R endless y := by
  intro v v' w w' a b ha
  cases ha

theorem Related.bind {δ : Type} {R : α → β → Prop} {S : γ → δ → Prop} {x : Noting α}
    {y : Noting β} {f : α → Noting γ} {g : β → Noting δ} (hx : Related R x y)
    (hf : ∀ a b, R a b → Related S (f a) (g b)) : Related S (x >>= f) (y >>= g) := by
  intro v v' w w' c d hc hd
  obtain ⟨a, v₁, ha, hc⟩ := bind_eq_some.mp hc
  obtain ⟨b, w₁, hb, hd⟩ := bind_eq_some.mp hd
  exact hf a b (hx ha hb) hc hd

theorem comparison_related : Comparison Related :=
  ⟨related_pure, Related.bind⟩

theorem related_mapM {f g : α → Noting β} {l : List α}
    (hfg : ∀ a ∈ l, Related Eq (f a) (g a)) : Related Eq (l.mapM f) (l.mapM g) := by
  induction l with
  | nil => exact related_pure rfl
  | cons a l ih =>
    rw [List.mapM_cons, List.mapM_cons]
    refine (hfg a List.mem_cons_self).bind fun b c hbc => ?_
    refine (ih fun a ha => hfg a (List.mem_cons_of_mem _ ha)).bind fun bs cs hrest => ?_
    exact related_pure (hbc ▸ hrest ▸ rfl)

end EndpointDocs.Noting
