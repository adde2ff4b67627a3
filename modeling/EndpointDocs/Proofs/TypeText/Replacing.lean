import EndpointDocs.Proofs.TypeText.Closing

namespace EndpointDocs.TypeText

/-- All values are arguments, and none is empty. -/
def PutsArguments (b : Bindings) : Prop :=
  ∀ k v, (k, v) ∈ b → v ≠ "" ∧ IsArgument v

/-- All values are names, and none is empty. -/
def PutsNames (b : Bindings) : Prop :=
  ∀ k v, (k, v) ∈ b → v ≠ "" ∧ IsName v.toList

variable {b : Bindings} {n a d cs : List Char} {c g : Char}

theorem PutsNames.putsArguments (hb : PutsNames b) : PutsArguments b :=
  fun k v hv => ⟨(hb k v hv).1, (isWord_of_isName (hb k v hv).2).isArgument⟩

theorem replaceNames_gaps (ha : ∀ c ∈ a, isNameChar c = false) (cs : List Char) :
    replaceNames b (a ++ cs) = a ++ replaceNames b cs := by
  induction a with
  | nil => rfl
  | cons c a ih =>
    obtain ⟨hc, ha⟩ := List.forall_mem_cons.mp ha
    have h := replaceNames_gap b [] (a ++ cs) hc
    rw [List.nil_append, replaceNames_nil, List.nil_append, ih ha] at h
    exact h

theorem replaceNames_of_gaps (hd : ∀ c ∈ d, isNameChar c = false) : replaceNames b d = d := by
  have hrest := replaceNames_gaps (b := b) hd []
  rwa [List.append_nil, replaceNames_nil, List.append_nil] at hrest

theorem replaceNames_append_gaps (hd : ∀ c ∈ d, isNameChar c = false) (cs : List Char) :
    replaceNames b (cs ++ d) = replaceNames b cs ++ d := by
  cases d with
  | nil => simp
  | cons c d =>
    obtain ⟨hc, hd⟩ := List.forall_mem_cons.mp hd
    rw [replaceNames_gap b cs d hc, replaceNames_of_gaps hd]

theorem ofList_replaceNames (b : Bindings) (cs : List Char) :
    String.ofList (replaceNames b cs) = substitute b (String.ofList cs) := by
  apply String.toList_injective
  rw [toList_substitute, String.toList_ofList, String.toList_ofList]

theorem PutsArguments.replaceName_ne_nil (hb : PutsArguments b) (hn : n ≠ []) :
    replaceName b n ≠ [] := by
  rcases replaceName_cases b n with heq | ⟨v, hv, heq⟩
  · rwa [heq]
  · rw [heq]
    simpa using (hb _ v hv).1

theorem PutsArguments.eq_nil_iff (hb : PutsArguments b) : replaceNames b cs = [] ↔ cs = [] := by
  induction cs using names_induction with
  | name n hn =>
    rw [replaceNames_name hn]
    constructor
    · exact fun h => by_contra fun hne => hb.replaceName_ne_nil hne h
    · rintro rfl
      rfl
  | gap n c cs _ hc _ => simp [replaceNames_gap b n cs hc]

/-- What a name is replaced by is an argument, as the name itself is. -/
theorem PutsArguments.isArgument_replaceName (hb : PutsArguments b) (hn : IsName n) :
    IsArgument (String.ofList (replaceName b n)) := by
  rcases replaceName_cases b n with heq | ⟨v, hv, heq⟩
  · rw [heq]
    exact (isWord_of_isName (by rwa [String.toList_ofList])).isArgument
  · rw [heq, String.ofList_toList]
    exact (hb _ v hv).2

theorem PutsArguments.closed (hb : PutsArguments b) (hn : IsName n) :
    Closed 0 (replaceName b n) := by
  have hclosed := (hb.isArgument_replaceName hn).closed
  rwa [String.toList_ofList] at hclosed

theorem PutsArguments.isTrimmed_replaceName (hb : PutsArguments b) (hn : IsName n) :
    Chars.IsTrimmed (replaceName b n) := by
  have htrimmed := (hb.isArgument_replaceName hn).trimmed
  rwa [String.toList_ofList] at htrimmed

/-- The first character stays, or it is none of white space. -/
theorem PutsArguments.head?_replaceNames (hb : PutsArguments b)
    (h : (replaceNames b cs).head? = some c) : Chars.isBlank c = false ∨ cs.head? = some c := by
  induction cs using names_induction with
  | name n hn =>
    rw [replaceNames_name hn] at h
    exact .inl ((hb.isTrimmed_replaceName hn).1 c h)
  | gap n g cs hn hg _ =>
    rw [replaceNames_gap b n cs hg, replaceNames_name hn] at h
    by_cases hnil : n = []
    · subst hnil
      exact .inr h
    · rw [List.head?_append_of_ne_nil _ (hb.replaceName_ne_nil hnil)] at h
      exact .inl ((hb.isTrimmed_replaceName hn).1 c h)

/-- The last character stays, or it is the last of what a name is replaced by. -/
theorem PutsArguments.getLast?_replaceNames {Ends : Char → Prop} (hb : PutsArguments b)
    (hends : ∀ n, IsName n → ∀ c, (replaceName b n).getLast? = some c → Ends c)
    (h : (replaceNames b cs).getLast? = some c) : Ends c ∨ cs.getLast? = some c := by
  induction cs using names_induction with
  | name n hn =>
    rw [replaceNames_name hn] at h
    exact .inl (hends n hn c h)
  | gap n g cs hn hg ih =>
    rw [replaceNames_gap b n cs hg] at h
    by_cases hnil : cs = []
    · subst hnil
      rw [replaceNames_nil] at h
      exact .inr (by simpa using h)
    · have hne : replaceNames b cs ≠ [] := fun heq => hnil (hb.eq_nil_iff.mp heq)
      rw [List.getLast?_append_cons, List.getLast?_cons_of_ne_nil hne] at h
      rw [List.getLast?_append_cons, List.getLast?_cons_of_ne_nil hnil]
      exact ih h

theorem PutsArguments.isTrimmed (hb : PutsArguments b) (h : Chars.IsTrimmed cs) :
    Chars.IsTrimmed (replaceNames b cs) := by
  have hends : ∀ n, IsName n → ∀ c, (replaceName b n).getLast? = some c → Chars.isBlank c = false :=
    fun _ hn => (hb.isTrimmed_replaceName hn).2
  exact ⟨fun c hc => (hb.head?_replaceNames hc).elim id (h.1 c),
    fun c hc => (hb.getLast?_replaceNames hends hc).elim id (h.2 c)⟩

theorem PutsArguments.trim (hb : PutsArguments b) (cs : List Char) :
    Chars.trim (replaceNames b cs) = replaceNames b (Chars.trim cs) := by
  obtain ⟨v, w, hv, hw, heq, htrimmed⟩ := Chars.exists_trim cs
  have hgaps : replaceNames b cs = v ++ replaceNames b (Chars.trim cs) ++ w := by
    conv_lhs => rw [heq]
    rw [replaceNames_append_gaps fun c hc => isNameChar_of_isBlank (hw c hc),
      replaceNames_gaps fun c hc => isNameChar_of_isBlank (hv c hc)]
  rw [hgaps, Chars.trim_append hv hw (hb.isTrimmed htrimmed)]

/-- Commas and brackets between names stay, and none that counts comes in. -/
theorem PutsArguments.pieces (hb : PutsArguments b) (depth : Nat) (cs : List Char) :
    pieces depth (replaceNames b cs) = (pieces depth cs).map (replaceNames b) := by
  induction cs using names_induction generalizing depth with
  | name n hn =>
    have hone := hb.closed hn depth (Nat.zero_le _) []
    rw [List.append_nil] at hone
    rw [replaceNames_name hn, pieces_of_name hn, hone, TypeText.pieces]
    simp [replaceNames_name hn]
  | gap n c cs hn hc ih =>
    rw [replaceNames_gap b n cs hc, replaceNames_name hn, pieces_name hn,
      hb.closed hn depth (Nat.zero_le _), pieces_cons, pieces_cons]
    split
    · simp [ih, replaceNames_name hn]
    · rw [ih]
      cases h : TypeText.pieces (depthAfter depth c) cs with
      | nil => exact absurd h (pieces_ne_nil _ _)
      | cons q qs => simp [replaceNames_gap b n q hc, replaceNames_name hn]

theorem argumentsOf_substitute (hb : PutsArguments b) (list : String) :
    argumentsOf (substitute b list) = (argumentsOf list).map (substitute b) := by
  have htrim : Chars.trim ∘ replaceNames b = replaceNames b ∘ Chars.trim := funext hb.trim
  have hempty : (fun cs : List Char => !cs.isEmpty) ∘ replaceNames b = fun cs => !cs.isEmpty := by
    funext cs
    rw [Function.comp_apply, Bool.eq_iff_iff]
    simp [hb.eq_nil_iff]
  have hstring : String.ofList ∘ replaceNames b = substitute b ∘ String.ofList :=
    funext (ofList_replaceNames b)
  rw [argumentsOf, toList_substitute, hb.pieces, List.map_map, htrim, ← List.map_map,
    List.filter_map, hempty, List.map_map, hstring, ← List.map_map, argumentsOf]

theorem PutsNames.isName_replaceName (hb : PutsNames b) (hn : IsName n) :
    IsName (replaceName b n) := by
  rcases replaceName_cases b n with heq | ⟨v, hv, heq⟩
  · rwa [heq]
  · rw [heq]
    exact (hb _ v hv).2

theorem PutsNames.eq_nil_iff (hb : PutsNames b) : replaceNames b cs = [] ↔ cs = [] :=
  hb.putsArguments.eq_nil_iff

theorem PutsNames.trim (hb : PutsNames b) (cs : List Char) :
    Chars.trim (replaceNames b cs) = replaceNames b (Chars.trim cs) :=
  hb.putsArguments.trim cs

/-- Characters between names stay. -/
theorem PutsNames.mem_gap_iff (hb : PutsNames b) (hg : isNameChar g = false) :
    g ∈ replaceNames b cs ↔ g ∈ cs := by
  induction cs using names_induction with
  | name n hn =>
    rw [replaceNames_name hn]
    exact iff_of_false ((hb.isName_replaceName hn).not_mem hg) (hn.not_mem hg)
  | gap n c cs hn hc ih =>
    rw [replaceNames_gap b n cs hc, replaceNames_name hn]
    have hvalue := (hb.isName_replaceName hn).not_mem hg
    simp [hvalue, hn.not_mem hg, ih]

theorem PutsNames.cutAtFirst (hb : PutsNames b) (hg : isNameChar g = false) (cs : List Char) :
    Chars.cutAtFirst g (replaceNames b cs) =
      (Chars.cutAtFirst g cs).map fun (x, y) => (replaceNames b x, replaceNames b y) := by
  cases hcut : Chars.cutAtFirst g cs with
  | none =>
    rw [Chars.cutAtFirst_eq_none_iff] at hcut
    exact Chars.cutAtFirst_eq_none_iff.mpr (mt (hb.mem_gap_iff hg).mp hcut)
  | some parts =>
    obtain ⟨rfl, hbefore⟩ := Chars.cutAtFirst_eq_some hcut
    rw [replaceNames_gap b _ _ hg]
    exact Chars.cutAtFirst_append (mt (hb.mem_gap_iff hg).mp hbefore)

theorem PutsNames.beforeLast (hb : PutsNames b) (hg : isNameChar g = false) (cs : List Char) :
    Chars.beforeLast g (replaceNames b cs) = (Chars.beforeLast g cs).map (replaceNames b) := by
  cases hcut : Chars.beforeLast g cs with
  | none =>
    rw [Chars.beforeLast_eq_none_iff] at hcut
    exact Chars.beforeLast_eq_none_iff.mpr (mt (hb.mem_gap_iff hg).mp hcut)
  | some before =>
    obtain ⟨rest, rfl, hrest⟩ := Chars.beforeLast_eq_some hcut
    rw [replaceNames_gap b _ _ hg]
    exact Chars.beforeLast_append (mt (hb.mem_gap_iff hg).mp hrest)

theorem PutsNames.splitChars (hb : PutsNames b) (cs : List Char) :
    splitChars (replaceNames b cs) =
      (replaceNames b (splitChars cs).1, replaceNames b (splitChars cs).2) := by
  unfold TypeText.splitChars
  rw [hb.trim, splitTrimmed, splitTrimmed, hb.cutAtFirst isNameChar_lt]
  cases Chars.cutAtFirst '<' (Chars.trim cs) with
  | none => rfl
  | some parts =>
    simp only [Option.map_some, hb.beforeLast isNameChar_gt]
    cases Chars.beforeLast '>' parts.2 with
    | none => rfl
    | some inner => simp only [Option.map_some, hb.trim]

variable {text : String}

/-- What a reference says is read off from the characters between its names, so taking it apart and
replacing its names by others can change places. -/
theorem rawName_substitute (hb : PutsNames b) (text : String) :
    rawName (substitute b text) = substitute b (rawName text) := by
  apply String.toList_injective
  rw [rawName, toList_substitute, toList_substitute, String.toList_ofList, hb.splitChars, rawName,
    String.toList_ofList]

theorem arguments_substitute (hb : PutsNames b) (text : String) :
    arguments (substitute b text) = (arguments text).map (substitute b) := by
  have hlist : argumentText? (substitute b text) = (argumentText? text).map (substitute b) := by
    rw [argumentText?_eq, argumentText?_eq, toList_substitute, hb.splitChars]
    simp only [hb.eq_nil_iff]
    split
    · rfl
    · rw [Option.map_some, ofList_replaceNames]
  rw [arguments, arguments, hlist]
  cases argumentText? text with
  | none => rfl
  | some list => exact argumentsOf_substitute hb.putsArguments list

/-- A text that ends in a character between names did so before its names were replaced. -/
theorem PutsNames.of_append_gap (hb : PutsNames b) (hg : isNameChar g = false)
    (h : replaceNames b cs = a ++ [g]) : ∃ r, cs = r ++ [g] ∧ replaceNames b r = a := by
  have hlast : (replaceNames b cs).getLast? = some g := by simp [h]
  have hnames : ∀ n, IsName n → ∀ c, (replaceName b n).getLast? = some c → isNameChar c = true :=
    fun _ hn c hc => hb.isName_replaceName hn c (List.mem_of_getLast? hc)
  rcases hb.putsArguments.getLast?_replaceNames hnames hlast with hname | hlast
  · rw [hg] at hname
    cases hname
  · obtain ⟨r, rfl⟩ := List.getLast?_eq_some_iff.mp hlast
    rw [replaceNames_append_gaps (by simpa using hg)] at h
    exact ⟨r, rfl, List.append_cancel_right h⟩

theorem PutsNames.isSuffixOf?_brackets (hb : PutsNames b) (cs : List Char) :
    ['[', ']'].isSuffixOf? (replaceNames b cs) =
      (['[', ']'].isSuffixOf? cs).map (replaceNames b) := by
  have hgaps : ∀ c ∈ ['[', ']'], isNameChar c = false := by
    simp [isNameChar_open, isNameChar_close]
  apply Option.ext
  intro r
  rw [Chars.isSuffixOf?_eq_some_iff, Option.map_eq_some_iff]
  constructor
  · intro h
    have hclose : replaceNames b cs = (r ++ ['[']) ++ [']'] := by simpa using h
    obtain ⟨head, hcs, hhead⟩ := hb.of_append_gap isNameChar_close hclose
    obtain ⟨rest, rfl, hrest⟩ := hb.of_append_gap isNameChar_open hhead
    exact ⟨rest, Chars.isSuffixOf?_eq_some_iff.mpr (by simp [hcs]), hrest⟩
  · rintro ⟨cs', h, rfl⟩
    rw [Chars.isSuffixOf?_eq_some_iff.mp h, replaceNames_append_gaps hgaps]

theorem component?_substitute (hb : PutsNames b) (text : String) :
    component? (substitute b text) = (component? text).map (substitute b) := by
  rw [component?, component?, toList_substitute, hb.trim, hb.isSuffixOf?_brackets]
  cases ['[', ']'].isSuffixOf? (Chars.trim text.toList) with
  | none => rfl
  | some cs =>
    simp only [Option.map_some, hb.trim]
    cases h : Chars.trim cs with
    | nil => rfl
    | cons c cs =>
      have hne : replaceNames b (c :: cs) ≠ [] := by simp [hb.eq_nil_iff]
      obtain ⟨d, ds, hds⟩ := List.exists_cons_of_ne_nil hne
      rw [hds]
      simp only [Option.map_some, ← ofList_replaceNames, hds]

theorem trim_substitute (hb : PutsNames b) (text : String) :
    Text.trim (substitute b text) = substitute b (Text.trim text) := by
  apply String.toList_injective
  rw [Text.toList_trim, toList_substitute, toList_substitute, Text.toList_trim, hb.trim]

theorem substitute_eq_empty_iff (hb : PutsNames b) : substitute b text = "" ↔ text = "" := by
  rw [← String.toList_eq_nil_iff, toList_substitute, hb.eq_nil_iff, String.toList_eq_nil_iff]

end EndpointDocs.TypeText
