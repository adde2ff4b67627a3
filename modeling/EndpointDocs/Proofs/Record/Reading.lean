import EndpointDocs.Proofs.OrderedMap
import EndpointDocs.Record.Read

namespace EndpointDocs

open Document

/-- The entries of a record, of those of its fields that are given. -/
def Document.given (fields : List (String × Option Document)) : List (String × Document) :=
  fields.filterMap fun (k, d) => d.map fun d => (k, d)

/-- A list that is given unless it is empty. -/
def Document.unlessEmpty {α : Type} (write : α → Document) (as : List α) : Option Document :=
  if as.isEmpty then none else some (.list (as.map write))

namespace Node

variable {α : Type} {write : α → Document} {read : Node → Option α} {a missing : α} {as : List α}
  {d : Document} {n : Node} {ds : List Document} {ns : List Node} {name : String}
  {es : List (String × Document)} {entries : List (Node × Node)} {names : List String}
  {fields : List (String × Option Document)} {fs : Fields} {given : Option Document}

mutual

/-- Whether a reader may take the node for what the document says. -/
def tells : Document → Node → Bool
  | .null, n => n.presence = .nothing
  | .bool b, n => n.bool? = some b && n.presence = .value
  | .text s, n => n.text? = some s && n.choice? = some s && n.presence = .value
  | .list ds, .list ns => itemsTell ds ns
  | .record es, .map entries => entriesTell es entries
  | _, _ => false

def itemsTell : List Document → List Node → Bool
  | [], [] => true
  | d :: ds, n :: ns => tells d n && itemsTell ds ns
  | _, _ => false

def entriesTell : List (String × Document) → List (Node × Node) → Bool
  | [], [] => true
  | e :: es, entry :: entries => entryTells e entry && entriesTell es entries
  | _, _ => false

def entryTells : String × Document → Node × Node → Bool
  | (k, d), (key, n) => key.text? = some k && tells d n

end

theorem itemsTell_iff : itemsTell ds ns = true ↔
    List.Forall₂ (fun d n => tells d n = true) ds ns := by
  induction ds generalizing ns with
  | nil => cases ns <;> simp [itemsTell]
  | cons d ds ih => cases ns <;> simp [itemsTell, ih]

theorem entriesTell_iff : entriesTell es entries = true ↔
    List.Forall₂ (fun e entry => entryTells e entry = true) es entries := by
  induction es generalizing entries with
  | nil => cases entries <;> simp [entriesTell]
  | cons e es ih => cases entries <;> simp [entriesTell, ih]

private theorem exists_items (h : tells (.list ds) n = true) :
    ∃ ns, n = .list ns ∧ List.Forall₂ (fun d n => tells d n = true) ds ns := by
  cases n with
  | list ns => exact ⟨ns, rfl, itemsTell_iff.mp h⟩
  | leaf | map => cases h

private theorem exists_entries (h : tells (.record es) n = true) :
    ∃ entries, n = .map entries ∧
      List.Forall₂ (fun e entry => entryTells e entry = true) es entries := by
  cases n with
  | map entries => exact ⟨entries, rfl, entriesTell_iff.mp h⟩
  | leaf | list => cases h

private theorem presence_of_tells (hd : d ≠ .null) (h : tells d n = true) :
    n.presence = .value := by
  cases d with
  | null => exact absurd rfl hd
  | bool b => simp_all [tells]
  | text s => simp_all [tells]
  | list ds =>
    obtain ⟨ns, rfl, _⟩ := exists_items h
    rfl
  | record es =>
    obtain ⟨entries, rfl, _⟩ := exists_entries h
    rfl

/-- Whether reading takes back what writing has made of a value, from every node that may be taken
for it. -/
def Recalls (write : α → Document) (read : Node → Option α) (a : α) : Prop :=
  ∀ n, tells (write a) n = true → read n = some a

theorem recalls_text (s : String) : Recalls .text text? s := by
  intro n h
  simp only [tells, Bool.and_eq_true, decide_eq_true_eq] at h
  exact h.1.1

theorem recalls_bool (b : Bool) : Recalls .bool bool? b := by
  intro n h
  simp only [tells, Bool.and_eq_true, decide_eq_true_eq] at h
  exact h.1

/-- A name is taken for the value that it names, if no other value has it. -/
theorem recalls_oneOf {label : α → String} {values : List α}
    (hfound : values.find? (label · = label a) = some a) :
    Recalls (.text ∘ label) (oneOf? label values) a := by
  intro n h
  simp only [tells, Function.comp_apply, Bool.and_eq_true, decide_eq_true_eq] at h
  rw [oneOf?, h.1.2]
  exact hfound

theorem recalls_optional {a : Option α} (ha : ∀ x ∈ a, Recalls write read x)
    (hnull : ∀ a, write a ≠ .null) : Recalls (ofOption write) (Node.optional? read) a := by
  intro n h
  cases a with
  | none =>
    have hnothing : n.presence = .nothing := by simpa [ofOption, tells] using h
    rw [Node.optional?, hnothing]
  | some x =>
    rw [Node.optional?, presence_of_tells (hnull x) h, ha x rfl n h]
    rfl

private theorem mapM_of_forall₂ (ha : ∀ a ∈ as, Recalls write read a)
    (h : List.Forall₂ (fun d n => tells d n = true) (as.map write) ns) :
    ns.mapM read = some as := by
  induction as generalizing ns with
  | nil =>
    cases h
    rfl
  | cons a as ih =>
    obtain ⟨ha, has⟩ := List.forall_mem_cons.mp ha
    cases h with
    | cons h hs => simp [List.mapM_cons, ha _ h, ih has hs]

theorem recalls_list (ha : ∀ a ∈ as, Recalls write read a) :
    Recalls (fun as => .list (as.map write)) (listOf? read) as := by
  intro n h
  obtain ⟨ns, rfl, hns⟩ := exists_items h
  exact mapM_of_forall₂ ha hns

theorem eraseDups_of_nodup {ts : List String} (h : ts.Nodup) : ts.eraseDups = ts := by
  induction ts with
  | nil => rfl
  | cons t ts ih =>
    obtain ⟨ht, hts⟩ := List.nodup_cons.mp h
    have hkept : ts.filter (fun u => !u == t) = ts :=
      List.filter_eq_self.mpr fun u hu => by simpa using ne_of_mem_of_not_mem hu ht
    rw [List.eraseDups_cons, hkept, ih hts]

theorem recalls_textSet {ts : List String} (h : ts.Nodup) : Recalls texts textSet? ts := by
  intro n hn
  have hlist : n.listOf? text? = some ts := recalls_list (fun t _ => recalls_text t) n hn
  rw [textSet?, hlist, Option.map_some, eraseDups_of_nodup h]

private theorem mapM_entries {m : OrderedMap α} (hm : ∀ e ∈ m, Recalls write read e.2)
    (h : List.Forall₂ (fun e entry => entryTells e entry = true)
      (m.map fun (k, a) => (k, write a)) entries) :
    entries.mapM (fun (k, v) => do return (← text? k, ← read v)) = some m := by
  induction m generalizing entries with
  | nil =>
    cases h
    rfl
  | cons e m ih =>
    obtain ⟨k, a⟩ := e
    obtain ⟨ha, hm⟩ := List.forall_mem_cons.mp hm
    cases h with
    | @cons _ entry _ rest hentry hrest =>
      obtain ⟨key, v⟩ := entry
      simp only [entryTells, Bool.and_eq_true, decide_eq_true_eq] at hentry
      rw [List.mapM_cons, ih hm hrest]
      simp [hentry.1, ha v hentry.2]

theorem recalls_map {m : OrderedMap α} (hkeys : m.keys.Nodup)
    (hm : ∀ e ∈ m, Recalls write read e.2) : Recalls (ofMap write) (mapOf? read) m := by
  intro n h
  obtain ⟨entries, rfl, hentries⟩ := exists_entries h
  rw [mapOf?, entries?, Option.bind_some, mapM_entries hm hentries, Option.map_some,
    OrderedMap.ofEntries_of_nodup hkeys]

/-- Whether a reader finds for a field what is given, and nothing where nothing is. -/
def Fields.Holds (fs : Fields) (name : String) (given : Option Document) : Prop :=
  match given with
  | none => fs.lookup name = none
  | some d => ∃ n, fs.lookup name = some n ∧ tells d n = true

private theorem Fields.holds_cons_of_ne {k : String} (h : k ≠ name) (hholds : fs.Holds k given) :
    Fields.Holds ((name, n) :: fs) k given := by
  have hlookup : List.lookup k ((name, n) :: fs) = fs.lookup k := by
    rw [List.lookup_cons, beq_false_of_ne h]
  cases given <;> simpa [Holds, hlookup] using hholds

private theorem namedFields?_of_tells (hnodup : (fields.map Prod.fst).Nodup)
    (hnames : ∀ f ∈ fields, f.1 ∈ names)
    (h : List.Forall₂ (fun e entry => entryTells e entry = true) (Document.given fields) entries) :
    ∃ fs, namedFields? names entries = some fs ∧ (∀ f ∈ fields, fs.Holds f.1 f.2) ∧
      ∀ e ∈ fs, e.1 ∈ fields.map Prod.fst := by
  -- The last part carries the induction: no other entry is found under the name of a field that is
  -- not given, nor is one found twice.
  induction fields generalizing entries with
  | nil =>
    cases h
    exact ⟨[], rfl, by simp, by simp⟩
  | cons f fields ih =>
    obtain ⟨name, given⟩ := f
    obtain ⟨hname, hrest⟩ := List.nodup_cons.mp hnodup
    obtain ⟨hmem, hmems⟩ := List.forall_mem_cons.mp hnames
    have hother : ∀ f ∈ fields, f.1 ≠ name := by
      intro f hf heq
      exact hname (List.mem_map.mpr ⟨f, hf, heq⟩)
    cases given with
    | none =>
      obtain ⟨fs, hfs, hholds, hkeys⟩ := ih hrest hmems h
      refine ⟨fs, hfs, List.forall_mem_cons.mpr ⟨?_, hholds⟩, ?_⟩
      · refine List.lookup_eq_none_iff.mpr fun e he => ?_
        simpa using fun heq : name = e.1 => hname (heq ▸ hkeys e he)
      · exact fun e he => List.mem_cons_of_mem _ (hkeys e he)
    | some d =>
      cases h with
      | @cons _ entry _ rest hentry hentries =>
      obtain ⟨key, n⟩ := entry
      simp only [entryTells, Bool.and_eq_true, decide_eq_true_eq] at hentry
      obtain ⟨fs, hfs, hholds, hkeys⟩ := ih hrest hmems hentries
      have hnew : ∀ e ∈ fs, e.1 ≠ name := by
        rintro e he rfl
        exact hname (hkeys e he)
      refine ⟨(name, n) :: fs, ?_, ?_, ?_⟩
      · have hany : fs.any (·.1 = name) = false := by simpa using hnew
        simp [namedFields?, hentry.1, hfs, hmem, hany]
      · refine List.forall_mem_cons.mpr ⟨⟨n, by simp, hentry.2⟩, fun f hf => ?_⟩
        exact Fields.holds_cons_of_ne (hother f hf) (hholds f hf)
      · refine List.forall_mem_cons.mpr ⟨List.mem_cons_self, fun e he => ?_⟩
        exact List.mem_cons_of_mem _ (hkeys e he)

/-- A reader of a record finds what is given for each of its fields. -/
theorem exists_fields (hnodup : (fields.map Prod.fst).Nodup)
    (h : tells (.record (Document.given fields)) n = true) :
    ∃ fs, n.fields? (fields.map Prod.fst) = some fs ∧ ∀ f ∈ fields, fs.Holds f.1 f.2 := by
  obtain ⟨entries, rfl, hentries⟩ := exists_entries h
  obtain ⟨fs, hfs, hholds, _⟩ :=
    namedFields?_of_tells hnodup (fun f hf => List.mem_map_of_mem hf) hentries
  exact ⟨fs, hfs, hholds⟩

theorem Fields.required?_of_holds (ha : Recalls write read a)
    (h : fs.Holds name (some (write a))) : fs.required? name read = some a := by
  obtain ⟨n, hn, htells⟩ := h
  rw [required?, hn]
  exact ha n htells

theorem Fields.getD?_of_holds (ha : Recalls write read a)
    (hgiven : given = some (write a) ∨ given = none ∧ a = missing) (h : fs.Holds name given) :
    fs.getD? name read missing = some a := by
  rcases hgiven with rfl | ⟨rfl, rfl⟩
  · obtain ⟨n, hn, htells⟩ := h
    rw [getD?, hn]
    exact ha n htells
  · have hnone : fs.lookup name = none := h
    rw [getD?, hnone]

theorem Fields.list?_of_holds (ha : ∀ a ∈ as, Recalls write read a)
    (h : fs.Holds name (unlessEmpty write as)) : fs.list? name read = some as := by
  refine getD?_of_holds (recalls_list ha) ?_ h
  cases as with
  | nil => exact .inr ⟨rfl, rfl⟩
  | cons => exact .inl rfl

theorem Fields.optional?_of_holds {a : Option α} (ha : ∀ x ∈ a, Recalls write read x)
    (hnull : ∀ a, write a ≠ .null) (h : fs.Holds name (a.map write)) :
    fs.optional? name read = some a := by
  refine getD?_of_holds (recalls_optional ha hnull) ?_ h
  cases a with
  | none => exact .inr ⟨rfl, rfl⟩
  | some => exact .inl rfl

theorem text_ne_null (s : String) : Document.text s ≠ .null := by
  nofun

theorem Fields.text?_of_holds {a : Option String} (h : fs.Holds name (a.map .text)) :
    fs.optional? name text? = some a :=
  optional?_of_holds (fun s _ => recalls_text s) text_ne_null h

theorem Fields.optional?_of_ofOption {a : Option α} (ha : ∀ x ∈ a, Recalls write read x)
    (hnull : ∀ a, write a ≠ .null) (h : fs.Holds name (some (ofOption write a))) :
    fs.optional? name read = some a :=
  getD?_of_holds (recalls_optional ha hnull) (.inl rfl) h

/-- A record is read back if it is from what a reader finds for its fields. -/
theorem recalls_record (fields : List (String × Option Document)) {body : Fields → Option α}
    (hread : ∀ n, read n = (n.fields? names).bind body)
    (hwrite : write a = .record (Document.given fields)) (hkeys : fields.map Prod.fst = names)
    (hnodup : names.Nodup)
    (hbody : ∀ fs, (∀ f ∈ fields, Fields.Holds fs f.1 f.2) → body fs = some a) :
    Recalls write read a := by
  intro n hn
  rw [hwrite] at hn
  obtain ⟨fs, hfs, hfields⟩ := exists_fields (hkeys ▸ hnodup) hn
  rw [hread, ← hkeys, hfs]
  exact hbody fs hfields

/-- Whether a node of at most so many levels may be taken for what the document says. -/
def FitsWithin (depth : Nat) (d : Document) : Prop :=
  ∃ n, tells d n = true ∧ n.depth ≤ depth

theorem not_fitsWithin_zero (d : Document) : ¬FitsWithin 0 d := by
  rintro ⟨n, _, hn⟩
  cases n <;> simp [depth] at hn

private theorem depth_lt_of_mem_entries {entry : Node × Node} (h : entry ∈ entries) :
    entry.2.depth < (Node.map entries).depth := by
  obtain ⟨_, v⟩ := entry
  rw [depth, Nat.lt_succ_iff]
  induction entries with
  | nil => cases h
  | cons e entries ih =>
    rw [depthOfEntries]
    rcases List.mem_cons.mp h with rfl | h
    · exact Nat.le_max_left v.depth _
    · exact Nat.le_trans (ih h) (Nat.le_max_right _ _)

private theorem exists_telling {e : String × Document} (he : e ∈ es)
    (h : List.Forall₂ (fun e entry => entryTells e entry = true) es entries) :
    ∃ entry ∈ entries, entryTells e entry = true := by
  induction h with
  | nil => cases he
  | cons hentry _ ih =>
    rcases List.mem_cons.mp he with rfl | he
    · exact ⟨_, List.mem_cons_self, hentry⟩
    · obtain ⟨entry, hmem, htells⟩ := ih he
      exact ⟨entry, List.mem_cons_of_mem _ hmem, htells⟩

theorem FitsWithin.of_mem {depth : Nat} {e : String × Document}
    (h : FitsWithin (depth + 1) (.record es)) (he : e ∈ es) : FitsWithin depth e.2 := by
  obtain ⟨n, hn, hdepth⟩ := h
  obtain ⟨entries, rfl, hentries⟩ := exists_entries hn
  obtain ⟨⟨key, v⟩, hentry, htells⟩ := exists_telling he hentries
  have hlt := depth_lt_of_mem_entries hentry
  obtain ⟨k, d⟩ := e
  rw [entryTells, Bool.and_eq_true] at htells
  exact ⟨v, htells.2, Nat.le_of_lt_succ (Nat.lt_of_lt_of_le hlt hdepth)⟩

theorem FitsWithin.value {depth : Nat} {m : OrderedMap α} {e : String × α}
    (h : FitsWithin depth (ofMap write m)) (he : e ∈ m) : FitsWithin depth (write e.2) := by
  cases depth with
  | zero => exact absurd h (not_fitsWithin_zero _)
  | succ depth =>
    obtain ⟨n, hn, hdepth⟩ := h.of_mem (List.mem_map_of_mem he)
    exact ⟨n, hn, Nat.le_succ_of_le hdepth⟩

end Node

namespace Document

variable {α : Type} {fields : List (String × Option Document)}

@[simp] theorem given_nil : given [] = [] :=
  rfl

@[simp] theorem given_some (name : String) (d : Document) :
    given ((name, some d) :: fields) = (name, d) :: given fields :=
  rfl

@[simp] theorem given_none (name : String) : given ((name, none) :: fields) = given fields :=
  rfl

@[simp] theorem given_map (name : String) (write : α → Document) (a : Option α) :
    given ((name, a.map write) :: fields) = entry? name write a ++ given fields := by
  cases a <;> rfl

@[simp] theorem given_unlessEmpty (name : String) (write : α → Document) (as : List α) :
    given ((name, unlessEmpty write as) :: fields) =
      entryUnlessEmpty name write as ++ given fields := by
  cases as <;> rfl

end Document

end EndpointDocs
