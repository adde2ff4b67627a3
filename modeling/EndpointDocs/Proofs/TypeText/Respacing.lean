import EndpointDocs.Proofs.TypeText.Spacing

namespace EndpointDocs

open Chars TypeText

namespace TypeExpr

variable {n : PlainName} {e : TypeExpr} {as : List TypeExpr} {text : String}

/-- The text without white space. -/
def tight (e : TypeExpr) : String :=
  e.print ","

/-- The text is that of the expression, up to white space next to commas and angle brackets, in
front of `[]` and at both ends. -/
def SpelledBy (e : TypeExpr) (text : String) : Prop :=
  squeeze text = e.tight

theorem isComma_tight : IsComma "," :=
  ⟨[], List.forall_mem_nil _, rfl⟩

theorem tight_ne_nil (e : TypeExpr) : e.tight.toList ≠ [] :=
  fun hnil => print_ne_empty "," e (String.toList_eq_nil_iff.mp hnil)

theorem spelledBy_iff : e.SpelledBy text ↔ squeezeChars true text.toList = e.tight.toList := by
  rw [SpelledBy, squeeze, ← String.toList_inj, String.toList_ofList]

theorem spelledBy_ofList_iff {cs : List Char} :
    e.SpelledBy (String.ofList cs) ↔ squeezeChars true cs = e.tight.toList := by
  rw [spelledBy_iff, String.toList_ofList]

theorem toList_tight_named (has : as ≠ []) :
    (named n as).tight.toList = n.text.toList ++
      '<' :: (List.intercalate [','] (as.map fun a => a.tight.toList) ++ ['>']) := by
  rw [tight, toList_print_named has, List.cons_append]
  rfl

theorem toList_tight_array (e : TypeExpr) : (array e).tight.toList = e.tight.toList ++ ['[', ']'] :=
  toList_print_array "," e

theorem not_isPlain_brackets : ¬ IsPlain '<' ∧ ¬ IsPlain '>' ∧ ¬ IsPlain ',' := by
  decide

theorem squeezeChars_name (n : PlainName) : squeezeChars true n.text.toList = n.text.toList := by
  have hplain : ∀ c ∈ n.text.toList, IsPlain c ∧ c ≠ '[' := by
    intro c hc
    refine ⟨(n.isWord c hc).1, ?_⟩
    rintro rfl
    exact n.noSquares.1 hc
  rw [squeezeChars_of_plain hplain, n.isWord.isArgument.trimmed.trim]

theorem squeezeChars_intercalate {w : List Char} (hw : ∀ c ∈ w, isBlank c = true)
    (ts : List (List Char)) :
    squeezeChars true (List.intercalate (',' :: w) ts) =
      List.intercalate [','] (ts.map (squeezeChars true)) := by
  induction ts with
  | nil => rfl
  | cons t ts ih =>
    cases ts with
    | nil => simp
    | cons u ts =>
      have hblank := squeezeChars_blanks hw (List.forall_mem_nil _)
        (List.intercalate (',' :: w) (u :: ts))
      rw [List.append_nil] at hblank
      rw [List.intercalate_cons_cons, List.append_assoc, List.cons_append,
        squeezeChars_append_sign not_isPlain_brackets.2.2, hblank, ih]
      simp [List.intercalate_cons_cons]

/-- White space behind commas is a matter of spelling. -/
theorem spelledBy_print {sep : String} (hsep : IsComma sep) (e : TypeExpr) :
    e.SpelledBy (e.print sep) := by
  obtain ⟨w, hw, hsep⟩ := hsep
  induction e with
  | named n as ih =>
    rw [spelledBy_iff]
    by_cases has : as = []
    · subst has
      exact squeezeChars_name n
    · have hparts : (as.map fun a => (a.print sep).toList).map (squeezeChars true) =
          as.map fun a => a.tight.toList := by
        rw [List.map_map]
        exact List.map_congr_left fun a ha => spelledBy_iff.mp (ih a ha)
      rw [toList_print_named has, hsep, List.cons_append,
        squeezeChars_append_sign not_isPlain_brackets.1, squeezeChars_name,
        squeezeChars_append_sign not_isPlain_brackets.2.1, squeezeChars_intercalate hw, hparts,
        toList_tight_named has]
      rfl
  | array e ih =>
    have hsuffix := squeezeChars_append_brackets (List.forall_mem_nil _) true (e.print sep).toList
    rw [spelledBy_iff, toList_print_array, hsuffix, spelledBy_iff.mp ih, toList_tight_array]

theorem spelledBy_of_text (h : e.text = text) : e.SpelledBy text :=
  h ▸ spelledBy_print isComma_canonical e

theorem trim_of_squeezeChars {a : List Char} (h : squeezeChars true a = n.text.toList) :
    trim a = n.text.toList := by
  have hplain : ∀ c ∈ a, IsPlain c ∧ c ≠ '[' := by
    intro c hc
    cases hblank : isBlank c with
    | true =>
      refine ⟨isPlain_of_isBlank hblank, ?_⟩
      rintro rfl
      cases hblank
    | false =>
      have hmem : c ∈ n.text.toList := h ▸ (mem_squeezeChars hblank).mpr hc
      refine ⟨(n.isWord c hmem).1, ?_⟩
      rintro rfl
      exact n.noSquares.1 hmem
  rw [← squeezeChars_of_plain hplain, h]

theorem SpelledBy.trim_name (h : (named n []).SpelledBy text) :
    trim text.toList = n.text.toList :=
  trim_of_squeezeChars (spelledBy_iff.mp h)

/-- A name with arguments is cut at its brackets. -/
theorem SpelledBy.exists_brackets (has : as ≠ []) (h : (named n as).SpelledBy text) :
    ∃ a m w, text.toList = a ++ '<' :: (m ++ '>' :: w) ∧ trim a = n.text.toList ∧
      squeezeChars true m = List.intercalate [','] (as.map fun a => a.tight.toList) ∧
      ∀ c ∈ w, isBlank c = true := by
  rw [spelledBy_iff, toList_tight_named has] at h
  obtain ⟨a, r, htext, ha, hr⟩ := exists_of_squeezeChars_sign not_isPlain_brackets.1 h
  obtain ⟨m, w, rfl, hm, hw⟩ := exists_of_squeezeChars_sign not_isPlain_brackets.2.1 hr
  exact ⟨a, m, w, htext, trim_of_squeezeChars ha, hm, blank_of_squeezeChars_eq_nil hw⟩

theorem SpelledBy.exists_squares (h : (array e).SpelledBy text) :
    ∃ a w, text.toList = a ++ '[' :: ']' :: w ∧ (∀ c ∈ w, isBlank c = true) ∧
      squeezeChars true a = e.tight.toList := by
  rw [spelledBy_iff, toList_tight_array] at h
  exact exists_of_squeezeChars_brackets h

theorem not_mem_of_trim {a : List Char} {c : Char} (h : trim a = n.text.toList)
    (hblank : isBlank c = false) (hc : c ∉ n.text.toList) : c ∉ a := by
  obtain ⟨v, w, hv, hw, hcs, _⟩ := exists_trim a
  rw [hcs, h]
  intro hmem
  rcases List.mem_append.mp hmem with hmem | hmem
  · rcases List.mem_append.mp hmem with hmem | hmem
    · rw [hv c hmem] at hblank
      cases hblank
    · exact hc hmem
  · rw [hw c hmem] at hblank
    cases hblank

theorem SpelledBy.ne_empty (h : e.SpelledBy text) : Text.trim text ≠ "" := by
  intro hempty
  have htrim : trim text.toList = [] := by
    rw [← Text.toList_trim, hempty]
    rfl
  rw [spelledBy_iff, ← squeezeChars_trim, htrim] at h
  exact tight_ne_nil e h.symm

theorem trim_append_cons {a w : List Char} {c : Char} (hc : isBlank c = false)
    (hw : ∀ c ∈ w, isBlank c = true) : trim (a ++ c :: w) = trimStart a ++ [c] := by
  have hend : trimEnd w = [] := by
    rw [← List.nil_append w, trimEnd_append hw]
    rfl
  rw [trim, trimStart_append_cons hc, trimEnd_append_cons hc, hend]

theorem SpelledBy.component?_named (h : (named n as).SpelledBy text) : component? text = none := by
  by_cases has : as = []
  · subst has
    have hname := n.component?_text
    rw [component?, n.isWord.isArgument.trimmed.trim] at hname
    rw [component?, h.trim_name, hname]
  · obtain ⟨a, m, w, htext, -, -, hw⟩ := h.exists_brackets has
    have hend : ['[', ']'].isSuffixOf? (trim text.toList) = none := by
      by_contra hsome
      obtain ⟨r, hr⟩ := Option.ne_none_iff_exists'.mp hsome
      have hlast := congrArg List.getLast? (isSuffixOf?_eq_some_iff.mp hr)
      rw [htext, ← List.cons_append, ← List.append_assoc, trim_append_cons rfl hw,
        List.getLast?_concat] at hlast
      simp at hlast
    rw [component?, hend]

theorem SpelledBy.rawName_named (h : (named n as).SpelledBy text) : rawName text = n.text := by
  have hopen : '<' ∉ n.text.toList := fun hmem => (n.isWord _ hmem).1.2.1 rfl
  by_cases has : as = []
  · subst has
    rw [rawName, splitChars, h.trim_name, splitTrimmed_of_not_mem hopen, String.ofList_toList]
  · obtain ⟨a, m, w, htext, ha, -, -⟩ := h.exists_brackets has
    rw [rawName, htext, splitChars_fst_of_brackets (not_mem_of_trim ha rfl hopen), ha,
      String.ofList_toList]

/-- White space is squeezed out of the pieces of a list as out of the whole list. -/
theorem map_squeezeChars_list (has : as ≠ []) {m : List Char}
    (hm : squeezeChars true m = List.intercalate [','] (as.map fun a => a.tight.toList)) :
    ((pieces 0 m).map trim).map (squeezeChars true) = as.map fun a => a.tight.toList := by
  have hclosed : ∀ t ∈ as.map fun a => a.tight.toList, Closed 0 t :=
    List.forall_mem_map.mpr fun a _ => (isArgument_print isComma_tight a).closed
  have htrim : (pieces 0 m).map (squeezeChars true ∘ trim) = (pieces 0 m).map (squeezeChars true) :=
    List.map_congr_left fun p _ => squeezeChars_trim p
  rw [List.map_map, htrim, map_squeezeChars_pieces, hm]
  generalize hts : as.map (fun a => a.tight.toList) = ts at hclosed
  cases ts with
  | nil => exact absurd (List.map_eq_nil_iff.mp hts) has
  | cons t ts =>
    obtain ⟨ht, hts⟩ := List.forall_mem_cons.mp hclosed
    rw [pieces_intercalate (List.forall_mem_nil _) ht hts]
    simp

/-- The arguments between the brackets, also where `[]` comes behind them. -/
def inner : TypeExpr → List TypeExpr
  | .named _ as => as
  | .array e => e.inner

theorem not_mem_tight (h : e.inner = []) : '<' ∉ e.tight.toList := by
  induction e with
  | named n as _ =>
    obtain rfl : as = [] := h
    exact fun hmem => (n.isWord _ hmem).1.2.1 rfl
  | array e ih =>
    rw [toList_tight_array]
    simpa using ih h

theorem SpelledBy.exists_inner (hne : e.inner ≠ []) (h : e.SpelledBy text) :
    ∃ a m r, text.toList = a ++ '<' :: (m ++ '>' :: r) ∧ '<' ∉ a ∧ '>' ∉ r ∧
      squeezeChars true m = List.intercalate [','] (e.inner.map fun a => a.tight.toList) := by
  induction e generalizing text with
  | named n as _ =>
    obtain ⟨a, m, w, htext, ha, hm, hw⟩ := h.exists_brackets hne
    have hopen : '<' ∉ n.text.toList := fun hmem => (n.isWord _ hmem).1.2.1 rfl
    exact ⟨a, m, w, htext, not_mem_of_trim ha rfl hopen, fun hmem => (by cases hw _ hmem), hm⟩
  | array e ih =>
    obtain ⟨x, w, htext, hw, hx⟩ := h.exists_squares
    obtain ⟨a, m, r, hparts, ha, hr, hm⟩ := ih hne (spelledBy_ofList_iff.mpr hx)
    rw [String.toList_ofList] at hparts
    refine ⟨a, m, r ++ '[' :: ']' :: w, by simp [htext, hparts], ha, ?_, hm⟩
    have hclose : '>' ∉ w := fun hmem => by cases hw _ hmem
    simp [hr, hclose]

/-- Each argument of a spelling spells an argument. -/
theorem SpelledBy.arguments (h : e.SpelledBy text) :
    (arguments text).map squeeze = e.inner.map tight := by
  by_cases hne : e.inner = []
  · have hopen : '<' ∉ trim text.toList := by
      intro hmem
      have hwhole : '<' ∈ text.toList := mem_of_mem_trim hmem
      refine not_mem_tight hne ?_
      rw [← spelledBy_iff.mp h]
      exact (mem_squeezeChars rfl).mpr hwhole
    have hsplit : (splitChars text.toList).2 = [] := by
      rw [splitChars, splitTrimmed_of_not_mem hopen]
    rw [TypeText.arguments, argumentText?, hsplit, hne]
    rfl
  · obtain ⟨a, m, r, htext, ha, hr, hm⟩ := h.exists_inner hne
    have hinner : (splitChars text.toList).2 = trim m := by
      rw [htext, splitChars_snd_of_brackets ha m hr]
    have hlist := map_squeezeChars_list hne hm
    have hkept : ∀ p ∈ (pieces 0 m).map trim, (!p.isEmpty) = true := by
      intro p hp
      have hmem : squeezeChars true p ∈ e.inner.map fun a => a.tight.toList :=
        hlist ▸ List.mem_map_of_mem hp
      obtain ⟨a, -, heq⟩ := List.mem_map.mp hmem
      cases p with
      | nil => exact absurd heq (tight_ne_nil a)
      | cons c p => rfl
    have hback : e.inner.map tight = (e.inner.map fun a => a.tight.toList).map String.ofList := by
      simp
    rw [arguments_eq, hinner, argumentsOf, String.toList_ofList, trim_pieces_trim,
      List.filter_eq_self.mpr hkept, hback, ← hlist]
    simp [squeeze]

theorem SpelledBy.component?_array (h : (array e).SpelledBy text) :
    ∃ component, component? text = some component ∧ e.SpelledBy component := by
  obtain ⟨a, w, htext, hw, ha⟩ := h.exists_squares
  have htrim : trim (trimStart a) = trim a := trim_trimStart a
  have hne : trim (trimStart a) ≠ [] := by
    intro hnil
    rw [← squeezeChars_trim, ← htrim, hnil] at ha
    exact tight_ne_nil e ha.symm
  have hend : trim text.toList = trimStart a ++ ['[', ']'] := by
    have hlast := trim_append_cons (a := a ++ ['[']) (c := ']') rfl hw
    rw [trimStart_append_cons rfl] at hlast
    rw [htext]
    simpa using hlast
  refine ⟨_, component?_of_trim hend hne, ?_⟩
  rw [spelledBy_ofList_iff, htrim, squeezeChars_trim, ha]

/-- An expression is read from each of its spellings. -/
theorem ofText?_of_spelledBy (h : e.SpelledBy text) : ofText? text = some e := by
  induction e generalizing text with
  | named n as ih =>
    refine ofText?_named h.component?_named h.rawName_named ?_
    have hparts : (TypeText.arguments text).map squeeze = as.map tight := h.arguments
    generalize TypeText.arguments text = ts at hparts
    clear h
    induction as generalizing ts with
    | nil => simpa using hparts
    | cons a as ihs =>
      cases ts with
      | nil => cases hparts
      | cons t ts =>
        obtain ⟨ha, has⟩ := List.cons.inj hparts
        rw [List.map_cons, List.map_cons, ih a List.mem_cons_self ha,
          ihs (fun a ha => ih a (List.mem_cons_of_mem _ ha)) ts has]
  | array e ih =>
    obtain ⟨component, hcomponent, hspelled⟩ := h.component?_array
    rw [ofText?_of_component? hcomponent, ih hspelled, Option.map_some]

/-- Each of the names that is found in the expression stands for a whole type there: it is not part
of a longer name and has no arguments. -/
inductive Isolates (ps : List String) : TypeExpr → Prop
  | named {n : PlainName} {as : List TypeExpr}
      (alone : ∀ x ∈ ps, Mentions n.text x → x = n.text ∧ as = [])
      (arguments : ∀ a ∈ as, Isolates ps a) : Isolates ps (named n as)
  | array {e : TypeExpr} (component : Isolates ps e) : Isolates ps (array e)

/-- What stands for a name without arguments. -/
def valueOf (b : OrderedMap TypeExpr) (n : PlainName) : TypeExpr :=
  if IsName n.text.toList then (b.get? n.text).getD (named n []) else named n []

mutual

/-- The expression with values in place of parameters. -/
def bound (b : OrderedMap TypeExpr) : TypeExpr → TypeExpr
  | .named n [] => valueOf b n
  | .named n (a :: as) => named n (bound b a :: boundAll b as)
  | .array e => array (bound b e)

def boundAll (b : OrderedMap TypeExpr) : List TypeExpr → List TypeExpr
  | [] => []
  | e :: es => bound b e :: boundAll b es

end

variable {b : OrderedMap TypeExpr} {values : Bindings} {ps : List String}

theorem boundAll_eq (b : OrderedMap TypeExpr) (es : List TypeExpr) :
    boundAll b es = es.map (bound b) := by
  induction es with
  | nil => rfl
  | cons e es ih => rw [boundAll, ih, List.map_cons]

theorem bound_named (has : as ≠ []) : (named n as).bound b = named n (as.map (bound b)) := by
  cases as with
  | nil => exact absurd rfl has
  | cons a as => rw [bound, boundAll_eq]; rfl

theorem Isolates.bound (he : e.Isolates ps) (hb : ∀ k v, (k, v) ∈ b → v.Isolates ps) :
    (e.bound b).Isolates ps := by
  induction he with
  | @named n as alone arguments ih =>
    by_cases has : as = []
    · subst has
      rw [TypeExpr.bound, valueOf]
      split
      · cases hvalue : b.get? n.text with
        | none => exact .named alone arguments
        | some v => exact hb _ v (OrderedMap.mem_of_get? hvalue)
      · exact .named alone arguments
    · rw [bound_named has]
      refine .named (fun x hx hmentions => ?_) (List.forall_mem_map.mpr ih)
      exact absurd (alone x hx hmentions).2 has
  | array _ ih => exact .array ih

theorem unbound_of_mentions {cs : List Char} (hkeys : ∀ k ∈ values.keys, k ∈ ps)
    (hcs : cs = n.text.toList) (hnone : ∀ x ∈ ps, ¬ Mentions n.text x) : Unbound values cs := by
  subst hcs
  exact unbound_of_not_mentions fun k hk => hnone k (hkeys k hk)

/-- What stands for a name is spelled by what takes its place. -/
theorem squeezeChars_replaceNames_name (hb : OrderedMap.EntryWise SpelledBy b values)
    (hkeys : ∀ k ∈ values.keys, k ∈ ps) (alone : ∀ x ∈ ps, Mentions n.text x → x = n.text) :
    squeezeChars true (replaceNames values n.text.toList) = (valueOf b n).tight.toList := by
  have hne : n.text.toList ≠ [] := fun hnil => n.nonempty (String.toList_eq_nil_iff.mp hnil)
  rw [valueOf]
  by_cases hname : IsName n.text.toList
  · have hvalue := hb.get? n.text
    rw [if_pos hname, replaceNames_name hname, replaceName_of_ne_nil hne, String.ofList_toList]
    generalize b.get? n.text = before at hvalue
    generalize values.get? n.text = after at hvalue
    cases hvalue with
    | none => exact squeezeChars_name n
    | some h => exact spelledBy_iff.mp h
  · have hnone : ∀ x ∈ ps, ¬ Mentions n.text x := by
      intro x hx hmentions
      obtain rfl := alone x hx hmentions
      exact hname (isName_of_mem_namesOf (mentions_iff.mp hmentions).2)
    rw [if_neg hname, replaceNames_of_unbound (unbound_of_mentions hkeys rfl hnone)]
    exact squeezeChars_name n

/-- Values take the places of parameters in a list of arguments, argument by argument. -/
theorem squeezeChars_replaceNames_list {m : List Char}
    (h : ∀ a ∈ as, ∀ text, a.SpelledBy text → (a.bound b).SpelledBy (substitute values text))
    (hm : squeezeChars true m = List.intercalate [','] (as.map fun a => a.tight.toList)) :
    squeezeChars true (replaceNames values m) =
      List.intercalate [','] (as.map fun a => (a.bound b).tight.toList) := by
  have hone {a : TypeExpr} {cs : List Char} (ha : a ∈ as)
      (hcs : squeezeChars true cs = a.tight.toList) :
      squeezeChars true (replaceNames values cs) = (a.bound b).tight.toList := by
    have hspelled := h a ha (String.ofList cs) (spelledBy_ofList_iff.mpr hcs)
    rwa [spelledBy_iff, toList_substitute, String.toList_ofList] at hspelled
  induction as generalizing m with
  | nil =>
    have hblank := blank_of_squeezeChars_eq_nil (hm : _ = [])
    rw [replaceNames_of_gaps fun c hc => isNameChar_of_isBlank (hblank c hc)]
    exact hm
  | cons a as ih =>
    cases as with
    | nil => simpa using hone List.mem_cons_self (by simpa using hm)
    | cons u us =>
      rw [List.map_cons, List.map_cons, List.intercalate_cons_cons, List.append_assoc,
        List.singleton_append] at hm
      obtain ⟨x, y, rfl, hx, hy⟩ := exists_of_squeezeChars_sign not_isPlain_brackets.2.2 hm
      have hrest := ih (fun a ha => h a (List.mem_cons_of_mem _ ha)) hy
        fun ha => hone (List.mem_cons_of_mem _ ha)
      rw [replaceNames_gap values x y isNameChar_comma,
        squeezeChars_append_sign not_isPlain_brackets.2.2, hone List.mem_cons_self hx, hrest]
      simp [List.intercalate_cons_cons]

/-- With values for parameters a spelling of an expression spells the expression with the values,
however these are spelled. -/
theorem SpelledBy.substitute (hb : OrderedMap.EntryWise SpelledBy b values)
    (hkeys : ∀ k ∈ values.keys, k ∈ ps) (he : e.Isolates ps) (h : e.SpelledBy text) :
    (e.bound b).SpelledBy (substitute values text) := by
  induction he generalizing text with
  | @named n as alone _ ih =>
    rw [spelledBy_iff, toList_substitute]
    by_cases has : as = []
    · subst has
      obtain ⟨v, w, hv, hw, htext, -⟩ := exists_trim text.toList
      rw [h.trim_name] at htext
      rw [htext, replaceNames_append_gaps fun c hc => isNameChar_of_isBlank (hw c hc),
        replaceNames_gaps fun c hc => isNameChar_of_isBlank (hv c hc), squeezeChars_blanks hv hw]
      exact squeezeChars_replaceNames_name hb hkeys fun x hx hmentions => (alone x hx hmentions).1
    · obtain ⟨a, m, w, htext, ha, hm, hw⟩ := h.exists_brackets has
      have hnone : ∀ x ∈ ps, ¬ Mentions n.text x :=
        fun x hx hmentions => has (alone x hx hmentions).2
      have hname : replaceNames values a = a :=
        replaceNames_of_unbound_trim (unbound_of_mentions hkeys ha hnone)
      have hend : replaceNames values w = w :=
        replaceNames_of_gaps fun c hc => isNameChar_of_isBlank (hw c hc)
      have hfirst : squeezeChars true a = n.text.toList := by
        rw [← squeezeChars_trim, ha, squeezeChars_name]
      have hne : as.map (TypeExpr.bound b) ≠ [] := mt List.map_eq_nil_iff.mp has
      rw [htext, replaceNames_gap values a _ isNameChar_lt,
        replaceNames_gap values m w isNameChar_gt, hname, hend, squeezeChars_append_sign not_isPlain_brackets.1, hfirst,
        squeezeChars_append_sign not_isPlain_brackets.2.1, squeezeChars_of_blank hw,
        squeezeChars_replaceNames_list (fun a ha _ => ih a ha) hm, bound_named has,
        toList_tight_named hne, List.map_map]
      rfl
  | @array e _ ih =>
    obtain ⟨a, w, htext, hw, ha⟩ := h.exists_squares
    have hgaps : ∀ c ∈ '[' :: ']' :: w, isNameChar c = false := by
      simp only [List.mem_cons, forall_eq_or_imp]
      exact ⟨isNameChar_open, isNameChar_close, fun c hc => isNameChar_of_isBlank (hw c hc)⟩
    have hcomponent := ih (spelledBy_ofList_iff.mpr ha)
    rw [spelledBy_iff, toList_substitute, String.toList_ofList] at hcomponent
    rw [spelledBy_iff, toList_substitute, htext, replaceNames_append_gaps hgaps,
      squeezeChars_append_brackets hw, hcomponent, TypeExpr.bound, toList_tight_array]

theorem Isolates.of_mem_inner (h : e.Isolates ps) {a : TypeExpr} (ha : a ∈ e.inner) :
    a.Isolates ps := by
  induction h with
  | named _ arguments _ => exact arguments a ha
  | array _ ih => exact ih ha

/-- If there is anything in the text, it is an expression that isolates the names. -/
def IsolatedIn (ps : List String) (text : String) : Prop :=
  text = "" ∨ ∃ e : TypeExpr, e.SpelledBy text ∧ e.Isolates ps

theorem IsolatedIn.arguments (h : IsolatedIn ps text) :
    ∀ a ∈ arguments text, ∃ e : TypeExpr, e.SpelledBy a ∧ e.Isolates ps := by
  intro a ha
  rcases h with rfl | ⟨e, hspelled, hisolates⟩
  · cases ha
  · have hmem : squeeze a ∈ e.inner.map tight := hspelled.arguments ▸ List.mem_map_of_mem ha
    obtain ⟨f, hf, heq⟩ := List.mem_map.mp hmem
    exact ⟨f, heq.symm, hisolates.of_mem_inner hf⟩

theorem IsolatedIn.substitute (hkeys : ∀ k ∈ values.keys, k ∈ ps)
    (hvalues : ∀ k v, (k, v) ∈ values → ∃ e : TypeExpr, e.SpelledBy v ∧ e.Isolates ps)
    (h : IsolatedIn ps text) : IsolatedIn ps (substitute values text) := by
  have hb : ∃ b : OrderedMap TypeExpr, OrderedMap.EntryWise SpelledBy b values ∧
      ∀ k v, (k, v) ∈ b → v.Isolates ps := by
    clear hkeys
    induction values with
    | nil => exact ⟨[], .nil, fun k v hv => by cases hv⟩
    | cons x values ih =>
      obtain ⟨b, hb, hisolates⟩ := ih fun k v hv => hvalues k v (List.mem_cons_of_mem _ hv)
      obtain ⟨e, hspelled, he⟩ := hvalues x.1 x.2 List.mem_cons_self
      refine ⟨(x.1, e) :: b, .cons hspelled hb, fun k v hv => ?_⟩
      rcases List.mem_cons.mp hv with heq | hv
      · cases heq
        exact he
      · exact hisolates k v hv
  obtain ⟨b, hb, hbound⟩ := hb
  rcases h with rfl | ⟨e, hspelled, hisolates⟩
  · exact .inl rfl
  · exact .inr ⟨e.bound b, hspelled.substitute hb hkeys hisolates, hisolates.bound hbound⟩

/-- Both texts spell one expression. -/
def Respaced (s t : String) : Prop :=
  ∃ e : TypeExpr, e.SpelledBy s ∧ e.SpelledBy t

theorem Respaced.symm {s t : String} (h : Respaced s t) : Respaced t s := by
  obtain ⟨e, hs, ht⟩ := h
  exact ⟨e, ht, hs⟩

theorem Respaced.ne_empty {s t : String} (h : Respaced s t) : Text.trim s ≠ "" := by
  obtain ⟨e, hs, -⟩ := h
  exact hs.ne_empty

/-- Parameters bound to spellings of the same arguments. -/
theorem exists_bindings {ss ts : List String} (h : List.Forall₂ Respaced ss ts) (ps : List String) :
    ∃ b : OrderedMap TypeExpr, OrderedMap.EntryWise SpelledBy b (bind ps ss) ∧
      OrderedMap.EntryWise SpelledBy b (bind ps ts) := by
  have hes : ∃ es : List TypeExpr, List.Forall₂ SpelledBy es ss ∧ List.Forall₂ SpelledBy es ts := by
    induction h with
    | nil => exact ⟨[], .nil, .nil⟩
    | cons he _ ih =>
      obtain ⟨e, hs, ht⟩ := he
      obtain ⟨es, hss, hts⟩ := ih
      exact ⟨e :: es, .cons hs hss, .cons ht hts⟩
  obtain ⟨es, hss, hts⟩ := hes
  exact ⟨OrderedMap.ofEntries (ps.zip es), (OrderedMap.entryWise_zip hss ps).ofEntries,
    (OrderedMap.entryWise_zip hts ps).ofEntries⟩

end TypeExpr

end EndpointDocs
