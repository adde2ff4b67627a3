import Mathlib.Data.List.Find
import EndpointDocs.Proofs.Catalog.Renaming
import EndpointDocs.Proofs.TypeText.LastSegment
import EndpointDocs.Shape

namespace EndpointDocs.Project

open TypeText

/-- Looking up the reference does not tell `y` from `x`: it mentions `y` nowhere in a path and, in
its own name, only if nothing is known as `x`. -/
structure Legible (q : Project) (x y text : String) : Prop where
  alone : Alone y text
  unread : y ∉ names (rawName text) ∨ ¬ q.Knows x

variable {q : Project} {x y text : String}

theorem not_mem_names_of_not_knows {z n : String} (hz : z ≠ "") (hk : ¬ q.Knows z)
    (hn : n ∈ q.knownNames) : z ∉ names n :=
  not_mem_names_of_not_hasEnding hz fun hend => hk ⟨n, hn, hend⟩

/-- Known names are met by a text exactly if they are met by it renamed. -/
theorem StandsFor.rename_eq_known (h : q.StandsFor x y) (hx : ¬ q.Knows x) {n : String}
    (hn : n ∈ q.knownNames) : rename y x text = n ↔ text = n :=
  rename_eq_iff h.fresh.1 h.parameter (not_mem_names_of_not_knows h.fresh.1 h.unknown hn)
    (.inr (not_mem_names_of_not_knows h.parameter.1 hx hn))

theorem rawName_rename (hy : IsIdentifier y) (text : String) :
    rawName (rename x y text) = rename x y (rawName text) :=
  rawName_substitute (putsNames_rename x hy) text

theorem arguments_rename (h : q.StandsFor x y) (text : String) :
    arguments (rename y x text) = (arguments text).map (rename y x) :=
  arguments_substitute (putsNames_rename y h.parameter) text

theorem alone_rawName (h : Alone y text) : Alone y (rawName text) :=
  fun n hn => h n (names_rawName hn)

theorem Legible.rawName_eq (h : q.StandsFor x y) (ht : q.Legible x y text) (hx : q.Knows x) :
    rawName (rename y x text) = rawName text := by
  rw [rawName_rename h.parameter]
  exact rename_of_not_mem (ht.unread.resolve_right (not_not_intro hx))

theorem Legible.shortName_rename (h : q.StandsFor x y) (ht : q.Legible x y text) :
    shortName (rawName (rename y x text)) = rename y x (shortName (rawName text)) := by
  rw [rawName_rename h.parameter]
  exact TypeText.shortName_rename h.fresh h.parameter (alone_rawName ht.alone)

/-- The name of a reference is compared with known names alike, with its path and without. -/
theorem Legible.eq_known (h : q.StandsFor x y) (ht : q.Legible x y text) {n : String}
    (hn : n ∈ q.knownNames) :
    (rawName (rename y x text) = n ↔ rawName text = n) ∧
      (shortName (rawName (rename y x text)) = n ↔ shortName (rawName text) = n) := by
  by_cases hx : q.Knows x
  · rw [ht.rawName_eq h hx]
    exact ⟨Iff.rfl, Iff.rfl⟩
  · rw [ht.shortName_rename h, rawName_rename h.parameter]
    exact ⟨h.rename_eq_known hx hn, h.rename_eq_known hx hn⟩

private theorem rawName_rename_eq_empty (h : q.StandsFor x y) :
    rawName (rename y x text) = "" ↔ rawName text = "" := by
  rw [rawName_rename h.parameter]
  exact substitute_eq_empty_iff (putsNames_rename y h.parameter)

section

variable {α : Type} {a b : String}

private theorem find?_eq_of_known {f : α → String} {l : List α} (h : ∀ s ∈ l, a = f s ↔ b = f s) :
    (l.find? fun s => f s = a) = l.find? fun s => f s = b := by
  apply List.find?_congr
  intro s hs
  simpa [eq_comm] using h s hs

private theorem get?_eq_of_known {m : OrderedMap α} (h : ∀ k ∈ m.keys, a = k ↔ b = k) :
    m.get? a = m.get? b := by
  induction m with
  | nil => rfl
  | cons e m ih =>
    obtain ⟨k, v⟩ := e
    obtain ⟨hk, hm⟩ := List.forall_mem_cons.mp h
    have hkey : (a == k) = (b == k) := by
      rw [Bool.eq_iff_iff, beq_iff_eq, beq_iff_eq]
      exact hk
    have ih := ih hm
    simp only [OrderedMap.get?, List.lookup_cons] at ih ⊢
    rw [hkey, ih]

private theorem mem_eq_of_known {l : List String} (h : ∀ k ∈ l, a = k ↔ b = k) : a ∈ l ↔ b ∈ l := by
  constructor
  · exact fun ha => ((h a ha).mp rfl) ▸ ha
  · exact fun hb => ((h b hb).mpr rfl) ▸ hb

end

theorem find?_rename (h : q.StandsFor x y) (ht : q.Legible x y text) :
    q.catalog.find? (rename y x text) = q.catalog.find? text := by
  have hname : q.catalog.byName? (rawName (rename y x text)) =
      q.catalog.byName? (rawName text) := by
    apply find?_eq_of_known
    intro t hmem
    have hl : q.catalog.types.map (·.name) ∈ q.nameLists := by simp [nameLists]
    exact (ht.eq_known h (mem_knownNames hl (List.mem_map_of_mem hmem))).1
  have hshort : q.catalog.shortNames.get? (shortName (rawName (rename y x text))) =
      q.catalog.shortNames.get? (shortName (rawName text)) := by
    apply get?_eq_of_known
    intro k hk
    have hl : q.catalog.shortNames.keys ∈ q.nameLists := by simp [nameLists]
    exact (ht.eq_known h (mem_knownNames hl hk)).2
  unfold Catalog.find? Catalog.byShortName?
  rw [hname, hshort]
  simp only [rawName_rename_eq_empty h]

theorem named?_rename (h : q.StandsFor x y) (ht : q.Legible x y text) :
    Scalar.named? q.scalars (rename y x text) = Scalar.named? q.scalars text := by
  have hfind : (q.scalars.find? fun s => s.name = rawName (rename y x text)) =
      q.scalars.find? fun s => s.name = rawName text := by
    apply find?_eq_of_known
    intro s hs
    have hl : q.scalars.map (·.name) ∈ q.nameLists := by simp [nameLists]
    exact (ht.eq_known h (mem_knownNames hl (List.mem_map_of_mem hs))).1
  rw [Scalar.named?, hfind, Scalar.named?]

theorem loose?_rename (h : q.StandsFor x y) (ht : q.Legible x y text) :
    Scalar.loose? q.scalars (rename y x text) = Scalar.loose? q.scalars text := by
  have hfind : (q.scalars.find? fun s => s.shortName = shortName (rawName (rename y x text))) =
      q.scalars.find? fun s => s.shortName = shortName (rawName text) := by
    apply find?_eq_of_known
    intro s hs
    have hl : q.scalars.map (·.shortName) ∈ q.nameLists := by simp [nameLists]
    exact (ht.eq_known h (mem_knownNames hl (List.mem_map_of_mem hs))).2
  rw [Scalar.loose?, named?_rename h ht, hfind, Scalar.loose?]

theorem typeOverride?_rename (h : q.StandsFor x y) (ht : q.Legible x y text)
    (type : Option TypeDecl) :
    q.settings.typeOverride? (rawName (rename y x text)) type =
      q.settings.typeOverride? (rawName text) type := by
  have hget : q.settings.types.get? (rawName (rename y x text)) =
      q.settings.types.get? (rawName text) := by
    apply get?_eq_of_known
    intro k hk
    have hl : q.settings.types.keys ∈ q.nameLists := by simp [nameLists]
    exact (ht.eq_known h (mem_knownNames hl hk)).1
  rw [Settings.typeOverride?, hget, Settings.typeOverride?]

private theorem not_mem_names_of_voidName (hx : IsIdentifier x) (hvoid : x ∉ voidNames) {n : String}
    (hn : n ∈ voidNames) : x ∉ names n := by
  have hnames : ∀ n ∈ voidNames, ∀ m ∈ names n, m = "" ∨ m ∈ voidNames := by decide
  intro hmem
  rcases hnames n hn x hmem with hempty | hmem
  · exact hx.1 hempty
  · exact hvoid hmem

/-- Void names are told from the renamed parameter even in types that nobody looks up. -/
theorem isVoid_rename (h : q.StandsFor x y) (hx : x ∉ voidNames ∨ y ∉ names (rawName text)) :
    isVoid (rename y x text) = isVoid text := by
  have hl : voidNames ∈ q.nameLists := by simp [nameLists]
  have hvoid : rawName (rename y x text) ∈ voidNames ↔ rawName text ∈ voidNames := by
    rw [rawName_rename h.parameter]
    rcases hx with hx | hy
    · apply mem_eq_of_known
      intro n hn
      apply rename_eq_iff h.fresh.1 h.parameter
      · exact not_mem_names_of_not_knows h.fresh.1 h.unknown (mem_knownNames hl hn)
      · exact .inr (not_mem_names_of_voidName h.parameter hx hn)
    · rw [rename_of_not_mem hy]
  unfold isVoid
  simp only [rawName_rename_eq_empty h, hvoid]

private theorem knows_of_voidName (hx : IsIdentifier x) (hvoid : x ∈ voidNames) : q.Knows x := by
  have hl : voidNames ∈ q.nameLists := by simp [nameLists]
  refine ⟨x, mem_knownNames hl hvoid, hasEnding_of_mem_names hx.1 ?_⟩
  simp [names_of_isIdentifier hx]

theorem Legible.isVoid_rename (h : q.StandsFor x y) (ht : q.Legible x y text) :
    isVoid (rename y x text) = isVoid text := by
  apply Project.isVoid_rename h
  rcases ht.unread with hy | hx
  · exact .inr hy
  · exact .inl fun hvoid => hx (knows_of_voidName h.parameter hvoid)

private theorem matchesAny_dateTypes_eq_false {z : String} (hz : z ≠ "") (hk : ¬ q.Knows z)
    (htext : z ∈ names (rawName text)) :
    q.catalog.matchesAny q.settings.dateTypes text = false := by
  have hunknown : ∀ n ∈ q.knownNames, n ≠ rawName text := by
    rintro n hn rfl
    exact not_mem_names_of_not_knows hz hk hn htext
  have hname : q.catalog.byName? (rawName text) = none := by
    apply List.find?_eq_none.mpr
    intro t ht
    have hl : q.catalog.types.map (·.name) ∈ q.nameLists := by simp [nameLists]
    simpa using hunknown _ (mem_knownNames hl (List.mem_map_of_mem ht))
  have hshort : q.catalog.byShortName? (rawName text) = none := by
    have hget : q.catalog.shortNames.get? (rawName text) = none := by
      apply List.lookup_eq_none_iff.mpr
      intro e he
      have hl : q.catalog.shortNames.keys ∈ q.nameLists := by simp [nameLists]
      simpa using (hunknown _ (mem_knownNames hl (List.mem_map_of_mem he))).symm
    rw [Catalog.byShortName?, hget, Option.bind_none]
  have hend : ∀ e ∈ q.settings.dateTypes, isPathSuffix (rawName e) (rawName text) = false := by
    intro e he
    refine Bool.eq_false_iff.mpr fun hsuffix => hk ?_
    have hl : q.settings.dateTypes ∈ q.nameLists := by simp [nameLists]
    have hne : rawName text ≠ "" := by
      intro hempty
      rw [hempty, mem_names] at htext
      exact hz (String.toList_eq_nil_iff.mp (by simpa [namesOf] using htext))
    obtain ⟨n, hn, hnz⟩ := hasEnding_of_isPathSuffix hz hne hsuffix htext
    exact ⟨e, mem_knownNames hl he, n, names_rawName hn, hnz⟩
  unfold Catalog.matchesAny
  simp only [hname, hshort]
  split
  · rfl
  · simpa using hend

private theorem matchesAny_dateTypes_rename (h : q.StandsFor x y) (ht : q.Legible x y text) :
    q.catalog.matchesAny q.settings.dateTypes (rename y x text) =
      q.catalog.matchesAny q.settings.dateTypes text := by
  by_cases hmem : y ∈ names (rawName text)
  · have hx : ¬ q.Knows x := ht.unread.resolve_left (not_not_intro hmem)
    have hmem' : x ∈ names (rawName (rename y x text)) := by
      rw [rawName_rename h.parameter]
      exact mem_names_rename h.fresh.1 h.parameter hmem
    rw [matchesAny_dateTypes_eq_false h.fresh.1 h.unknown hmem,
      matchesAny_dateTypes_eq_false h.parameter.1 hx hmem']
  · have hraw : rawName (rename y x text) = rawName text := by
      rw [rawName_rename h.parameter, rename_of_not_mem hmem]
    unfold Catalog.matchesAny
    rw [hraw]

private theorem dateFormat_rename (h : q.StandsFor x y) (ht : q.Legible x y text)
    (carrier : Carrier) : DateFormat.ofType q.settings (rename y x text) carrier =
      DateFormat.ofType q.settings text carrier := by
  have hdate : DateFormat.dateOnlyTypes ∈ q.nameLists := by simp [nameLists]
  have htime : DateFormat.timeOnlyTypes ∈ q.nameLists := by simp [nameLists]
  have hdateName := mem_eq_of_known fun n hn => (ht.eq_known h (mem_knownNames hdate hn)).1
  have hdateShort := mem_eq_of_known fun n hn => (ht.eq_known h (mem_knownNames hdate hn)).2
  have htimeName := mem_eq_of_known fun n hn => (ht.eq_known h (mem_knownNames htime hn)).1
  have htimeShort := mem_eq_of_known fun n hn => (ht.eq_known h (mem_knownNames htime hn)).2
  unfold DateFormat.ofType
  simp only [hdateName, hdateShort, htimeName, htimeShort]

section

variable {g : TypeDecl → TypeDecl} (hg : ∀ t, (g t).name = t.name)

include hg

theorem byName?_mapTypes (name : String) :
    (q.mapTypes g).catalog.byName? name = (q.catalog.byName? name).map g := by
  simp [mapTypes, Catalog.byName?, List.find?_map, hg]

theorem byShortName?_mapTypes (short : String) :
    (q.mapTypes g).catalog.byShortName? short = (q.catalog.byShortName? short).map g := by
  unfold Catalog.byShortName?
  rw [Option.map_bind]
  congr 1
  funext name
  exact byName?_mapTypes hg name

theorem find?_mapTypes (text : String) :
    (q.mapTypes g).catalog.find? text = (q.catalog.find? text).map g := by
  unfold Catalog.find?
  split
  · rfl
  · rw [byName?_mapTypes hg, byShortName?_mapTypes hg, Option.map_or]

theorem matchesAny_mapTypes (entries : List String) (text : String) :
    (q.mapTypes g).catalog.matchesAny entries text = q.catalog.matchesAny entries text := by
  have hif (b : Prop) [Decidable b] (found : Option TypeDecl) :
      (if b then found.map g else none) = (if b then found else none).map g := by
    split <;> rfl
  unfold Catalog.matchesAny
  simp only [byName?_mapTypes hg, byShortName?_mapTypes hg, hif, ← Option.map_or]
  generalize (q.catalog.byName? (rawName text)).or _ = found
  cases found with
  | none => rfl
  | some t => simp only [Option.map_some, hg]

end

/-- The date format of a value depends on the renaming no more than the meaning of its type does. -/
theorem stampDate_rename (h : q.StandsFor x y) (ht : q.Legible x y text) (s : Schema)
    (annotations : List Annotation) (carrier : Carrier) :
    s.stampDate (q.mapTypes (·.renameParameter y x)) (rename y x text) annotations carrier =
      s.stampDate q text annotations carrier := by
  have hdate : DateFormat.isDate (q.mapTypes (·.renameParameter y x)) (rename y x text) =
      DateFormat.isDate q text := by
    have hname (t : TypeDecl) : (t.renameParameter y x).name = t.name := rfl
    rw [DateFormat.isDate, matchesAny_mapTypes hname, DateFormat.isDate,
      ← matchesAny_dateTypes_rename h ht]
    rfl
  have hfind : DateFormat.find? (q.mapTypes (·.renameParameter y x)) (rename y x text) annotations
      carrier = DateFormat.find? q text annotations carrier := by
    rw [DateFormat.find?, DateFormat.find?, hdate, ← dateFormat_rename h ht]
    rfl
  rw [Schema.stampDate, Schema.stampDate, hfind]

end EndpointDocs.Project
