import EndpointDocs.Proofs.TypeText.Parts
import EndpointDocs.Source.TypeName

namespace EndpointDocs

open Chars TypeText

/-- A name that a type expression is made of. -/
structure PlainName where
  text : String
  nonempty : text ≠ ""
  isWord : IsWord text
  noSquares : '[' ∉ text.toList ∧ ']' ∉ text.toList

/-- The text as a name, if it is one. -/
def PlainName.of? (text : String) : Option PlainName :=
  if h : text ≠ "" ∧ IsWord text ∧ '[' ∉ text.toList ∧ ']' ∉ text.toList then
    some ⟨text, h.1, h.2.1, h.2.2⟩
  else none

/-- A name with arguments, which may be none, or an array. -/
inductive TypeExpr
  | named (name : PlainName) (arguments : List TypeExpr)
  | array (component : TypeExpr)

namespace PlainName

theorem of?_text (n : PlainName) : of? n.text = some n :=
  dif_pos ⟨n.nonempty, n.isWord, n.noSquares⟩

theorem component?_text (n : PlainName) : component? n.text = none := by
  have hend : ['[', ']'].isSuffixOf? (trim n.text.toList) = none := by
    rw [n.isWord.isArgument.trimmed.trim]
    cases h : ['[', ']'].isSuffixOf? n.text.toList with
    | none => rfl
    | some cs =>
      have hsquare : '[' ∈ n.text.toList := by
        rw [eq_append_of_isSuffixOf? h]
        simp
      exact absurd hsquare n.noSquares.1
  rw [component?, hend]

theorem isBare (n : PlainName) : IsBare n.text where
  nonempty := n.nonempty
  trimmed := by rw [Text.trim, n.isWord.isArgument.trimmed.trim, String.ofList_toList]
  plain := fun hmem => (n.isWord _ hmem).1.2.1 rfl
  single := n.component?_text

end PlainName

namespace TypeExpr

/-- What holds of a name once it holds of its arguments, and of an array once it holds of its
component, holds of every type expression. -/
@[elab_as_elim, induction_eliminator]
theorem induction {P : TypeExpr → Prop} (named : ∀ n as, (∀ a ∈ as, P a) → P (.named n as))
    (array : ∀ e, P e → P (.array e)) : ∀ e, P e
  | .named n as => named n as fun a _ => induction named array a
  | .array e => array e (induction named array e)

/-- The texts with `sep` between them, unless there are none. -/
def joined? (sep : String) : List String → Option String
  | [] => none
  | ts => some (Text.join sep ts)

mutual

/-- The text of a type expression, with `sep` between arguments. -/
def print (sep : String) : TypeExpr → String
  | .named n as => withArguments n.text (joined? sep (printAll sep as))
  | .array e => print sep e ++ "[]"

def printAll (sep : String) : List TypeExpr → List String
  | [] => []
  | e :: es => print sep e :: printAll sep es

end

/-- The text as it is written for a type of the source. -/
def text (e : TypeExpr) : String :=
  e.print ", "

variable {sep : String} {n : PlainName} {e : TypeExpr} {as : List TypeExpr}

theorem printAll_eq (sep : String) (es : List TypeExpr) : printAll sep es = es.map (print sep) := by
  induction es with
  | nil => rfl
  | cons e es ih => rw [printAll, ih, List.map_cons]

theorem print_named (has : as ≠ []) :
    (named n as).print sep =
      withArguments n.text (some (Text.join sep (as.map (print sep)))) := by
  cases as with
  | nil => exact absurd rfl has
  | cons a as => rw [print, printAll_eq]; rfl

theorem toList_print_named (has : as ≠ []) :
    ((named n as).print sep).toList = n.text.toList ++
      ('<' :: List.intercalate sep.toList (as.map fun a => (a.print sep).toList) ++ ['>']) := by
  rw [print_named has, toList_withArguments, Text.join, String.toList_ofList, List.map_map]
  rfl

theorem toList_print_array (sep : String) (e : TypeExpr) :
    ((array e).print sep).toList = (e.print sep).toList ++ ['[', ']'] := by
  rw [print, String.toList_append]
  rfl

/-- A comma, with white space behind it or without. -/
def IsComma (sep : String) : Prop :=
  ∃ w, (∀ c ∈ w, isBlank c = true) ∧ sep.toList = ',' :: w

theorem isComma_canonical : IsComma ", " :=
  ⟨[' '], List.forall_mem_singleton.mpr rfl, rfl⟩

theorem print_ne_empty (sep : String) (e : TypeExpr) : e.print sep ≠ "" := by
  induction e with
  | named n as _ =>
    by_cases has : as = []
    · subst has
      exact n.nonempty
    · rw [Ne, ← String.toList_eq_nil_iff, toList_print_named has]
      simp
  | array e _ =>
    rw [Ne, ← String.toList_eq_nil_iff, toList_print_array]
    simp

theorem isArgument_print (hsep : IsComma sep) (e : TypeExpr) : IsArgument (e.print sep) := by
  obtain ⟨w, hw, hsep⟩ := hsep
  have hplain : ∀ c ∈ w, IsPlain c := fun c hc => isPlain_of_isBlank (hw c hc)
  induction e with
  | named n as ih =>
    by_cases has : as = []
    · subst has
      exact n.isWord.isArgument
    · constructor
      · rw [toList_print_named has, hsep]
        refine n.isWord.isArgument.closed.append (Closed.enclosed ?_)
        refine closed_intercalate hplain (List.forall_mem_map.mpr fun a ha => ?_)
        exact (ih a ha).closed.mono (Nat.zero_le 1)
      · rw [toList_print_named has]
        exact isTrimmed_append n.isWord.isArgument.trimmed.1 rfl rfl
  | array e ih =>
    constructor
    · have hsuffix : IsWord "[]" := by decide
      rw [toList_print_array]
      exact ih.closed.append hsuffix.isArgument.closed
    · rw [toList_print_array]
      exact @isTrimmed_append _ [] '[' ']' ih.trimmed.1 rfl rfl

mutual

def names : TypeExpr → List String
  | .named n as => n.text :: namesAll as
  | .array e => e.names

def namesAll : List TypeExpr → List String
  | [] => []
  | e :: es => e.names ++ namesAll es

end

theorem mem_namesAll {a : TypeExpr} {x : String} (ha : a ∈ as) (hx : x ∈ a.names) :
    x ∈ namesAll as := by
  induction as with
  | nil => cases ha
  | cons b as ih =>
    rcases List.mem_cons.mp ha with rfl | ha
    · exact List.mem_append_left _ hx
    · exact List.mem_append_right _ (ih ha)

mutual

/-- A type of the source that is written like the expression. -/
def typeRef : TypeExpr → Source.TypeRef
  | .named n as => .path false false [.mk n.text (.angles (typeArguments as))]
  | .array e => .slice e.typeRef

def typeArguments : List TypeExpr → List Source.Argument
  | [] => []
  | e :: es => .type e.typeRef :: typeArguments es

end

theorem argumentTexts_typeArguments (es : List TypeExpr) :
    Source.argumentTexts (typeArguments es) = es.map fun e => e.typeRef.text := by
  induction es with
  | nil => rfl
  | cons e es ih => rw [typeArguments, Source.argumentTexts, Source.Argument.text?, ih]; rfl

/-- A source gives the text, where no name stands for what it holds or for a place in the source. -/
theorem text_typeRef (h : ∀ n ∈ e.names, n ∉ Source.wrappers ∧ n ∉ Source.relativeNames) :
    e.typeRef.text = e.text := by
  induction e with
  | named n as ih =>
    obtain ⟨⟨hwrapper, hrelative⟩, has⟩ := List.forall_mem_cons.mp h
    have harguments : Source.argumentTexts (typeArguments as) = printAll ", " as := by
      rw [argumentTexts_typeArguments, printAll_eq]
      exact List.map_congr_left fun a ha => ih a ha fun m hm => has m (mem_namesAll ha hm)
    have hpath (ts : List String) : Source.pathText [n.text] ts =
        withArguments n.text (joined? ", " ts) := by
      cases ts <;> simp [Source.pathText, hrelative, Text.join, withArguments, joined?]
    have hlast (ts : List String) : Source.typePathText [n.text] ts =
        Source.pathText [n.text] ts := by
      cases ts <;> simp [Source.typePathText, hwrapper]
    rw [typeRef, Source.TypeRef.text, text, print, ← hpath, ← hlast, ← harguments]
    rfl
  | array e ih =>
    have hne : e.text ≠ "" := print_ne_empty ", " e
    rw [typeRef, Source.TypeRef.text, ih h, Source.arrayText, if_neg hne]
    rfl

/-- Reads a type expression from its text, as far as all names in it are plain. -/
def ofText? (text : String) : Option TypeExpr :=
  match _h : component? text with
  | some component => (ofText? component).map .array
  | none => do
    let name ← PlainName.of? (rawName text)
    let arguments ← (arguments text).attach.mapM fun a => ofText? a.1
    return .named name arguments
termination_by text.length
decreasing_by
  · exact component?_length _h
  · exact arguments_length a.2

section

variable {written component : String}

theorem ofText?_of_component? (h : component? written = some component) :
    ofText? written = (ofText? component).map .array := by
  rw [ofText?]
  split
  · next other hother =>
    obtain rfl : component = other := Option.some.inj (h.symm.trans hother)
    rfl
  · simp_all

theorem ofText?_of_component?_eq_none (h : component? written = none) :
    ofText? written = do
      let name ← PlainName.of? (rawName written)
      let arguments ← (arguments written).mapM ofText?
      return .named name arguments := by
  rw [ofText?]
  split
  · simp_all
  · simp

/-- A text that is no array is read when its name and its arguments are. -/
theorem ofText?_named (hcomponent : component? written = none) (hname : rawName written = n.text)
    (harguments : (arguments written).map ofText? = as.map some) :
    ofText? written = some (named n as) := by
  have hread : (arguments written).mapM ofText? = some as := by
    have hself := List.mapM_map (f := ofText?) (g := id) (l := arguments written)
    have hpure := List.mapM_pure (m := Option) (f := id) (l := as)
    rw [Function.id_comp, harguments, List.mapM_map, Function.id_comp] at hself
    rw [List.map_id] at hpure
    exact hself.symm.trans hpure
  rw [ofText?_of_component?_eq_none hcomponent, hname, n.of?_text, hread]
  rfl

/-- What stands in front of the brackets at the end of a text is its component. -/
theorem component?_of_trim {cs : List Char} (h : trim written.toList = cs ++ ['[', ']'])
    (hne : trim cs ≠ []) : component? written = some (String.ofList (trim cs)) := by
  rw [component?, h, isSuffixOf?_eq_some_iff.mpr rfl]
  cases htrim : trim cs with
  | nil => exact absurd htrim hne
  | cons c ds => simp only [htrim]

end

theorem component?_text_array (e : TypeExpr) : component? (array e).text = some e.text := by
  have harray := (isArgument_print isComma_canonical (array e)).trimmed
  have htrimmed := (isArgument_print isComma_canonical e).trimmed
  have hend : trim (array e).text.toList = e.text.toList ++ ['[', ']'] := by
    rw [text, harray.trim, toList_print_array, text]
  have hne : trim e.text.toList ≠ [] := by
    rw [text, htrimmed.trim]
    exact fun hnil => print_ne_empty ", " e (String.toList_eq_nil_iff.mp hnil)
  rw [component?_of_trim hend hne, text, htrimmed.trim, String.ofList_toList]

theorem text_named (n : PlainName) (as : List TypeExpr) :
    (named n as).text = withArguments n.text (joined? ", " (as.map text)) := by
  rw [text, print, printAll_eq]
  rfl

theorem arguments_text_named (n : PlainName) (as : List TypeExpr) :
    arguments (named n as).text = as.map text := by
  by_cases has : as = []
  · subst has
    exact n.isBare.arguments_eq_nil
  · have hall : ∀ t ∈ as.map text, IsArgument t :=
      List.forall_mem_map.mpr fun a _ => isArgument_print isComma_canonical a
    have hne : ∀ t ∈ as.map text, decide (t ≠ "") = true :=
      List.forall_mem_map.mpr fun a _ => decide_eq_true (print_ne_empty ", " a)
    have hread := arguments_of_closed n.isWord (by simpa using has) hall
    rw [List.filter_eq_self.mpr hne] at hread
    rw [text, print_named has]
    exact hread

theorem intercalate_ne_nil {w t : List Char} (ht : t ≠ []) (ts : List (List Char)) :
    List.intercalate w (t :: ts) ≠ [] := by
  cases ts <;> simp [ht]

theorem isTrimmed_intercalate {w : List Char} {ts : List (List Char)}
    (h : ∀ t ∈ ts, t ≠ [] ∧ IsTrimmed t) : IsTrimmed (List.intercalate w ts) := by
  induction ts with
  | nil => exact ⟨nofun, nofun⟩
  | cons t ts ih =>
    obtain ⟨⟨hne, htrimmed⟩, hts⟩ := List.forall_mem_cons.mp h
    cases ts with
    | nil => rwa [List.intercalate_singleton]
    | cons u ts =>
      rw [List.intercalate_cons_cons]
      constructor
      · intro c hc
        rw [List.append_assoc, List.head?_append_of_ne_nil _ hne] at hc
        exact htrimmed.1 c hc
      · intro c hc
        have hrest := intercalate_ne_nil (w := w) (hts u List.mem_cons_self).1 ts
        rw [List.getLast?_append_of_ne_nil _ hrest] at hc
        exact (ih hts).2 c hc

/-- The text between the brackets is that of the arguments, as they were joined. -/
theorem argumentText?_text_named (n : PlainName) (as : List TypeExpr) :
    argumentText? (named n as).text = joined? ", " (as.map text) := by
  rw [text_named, argumentText?_eq, n.isBare.split_withArguments]
  cases as with
  | nil => rfl
  | cons a as =>
    have hne (e : TypeExpr) : e.text.toList ≠ [] :=
      fun hnil => print_ne_empty ", " e (String.toList_eq_nil_iff.mp hnil)
    have hparts : ∀ t ∈ ((a :: as).map text).map String.toList, t ≠ [] ∧ IsTrimmed t := by
      rw [List.map_map]
      exact List.forall_mem_map.mpr fun e _ =>
        ⟨hne e, (isArgument_print isComma_canonical e).trimmed⟩
    have hinner : trim (Text.join ", " ((a :: as).map text)).toList =
        (Text.join ", " ((a :: as).map text)).toList := by
      rw [Text.join, String.toList_ofList, (isTrimmed_intercalate hparts).trim]
    have hsome : (Text.join ", " ((a :: as).map text)).toList ≠ [] := by
      rw [Text.join, String.toList_ofList]
      exact intercalate_ne_nil (hne a) _
    have hjoined : joined? ", " ((a :: as).map text) =
        some (Text.join ", " ((a :: as).map text)) := rfl
    rw [hjoined, Option.getD_some, hinner, if_neg hsome, String.ofList_toList]

/-- Reading gives back what was written. -/
theorem ofText?_text (e : TypeExpr) : ofText? e.text = some e := by
  induction e with
  | named n as ih =>
    refine ofText?_named ?_ ?_ ?_
    · rw [text_named, n.isBare.component?_withArguments]
    · rw [text_named, n.isBare.rawName_withArguments]
    · rw [arguments_text_named, List.map_map]
      exact List.map_congr_left ih
  | array e ih => rw [ofText?_of_component? (component?_text_array e), ih, Option.map_some]

/-- An array is read as its component, a name as the name and the list of its arguments, each part
by its own text. So a whole expression is read back from its text, and no two share one. It is the
text that the type has in a source, where no name stands for what it holds or for a place there. -/
theorem text_read :
    (∀ e : TypeExpr, component? (array e).text = some e.text) ∧
    (∀ (n : PlainName) (as : List TypeExpr),
      component? (named n as).text = none ∧ rawName (named n as).text = n.text ∧
        argumentText? (named n as).text = joined? ", " (as.map text) ∧
        arguments (named n as).text = as.map text) ∧
    (∀ e : TypeExpr, ofText? e.text = some e) ∧ Function.Injective text ∧
    ∀ e : TypeExpr, (∀ n ∈ e.names, n ∉ Source.wrappers ∧ n ∉ Source.relativeNames) →
      e.typeRef.text = e.text := by
  refine ⟨component?_text_array, fun n as => ⟨?_, ?_, argumentText?_text_named n as,
    arguments_text_named n as⟩, ofText?_text, ?_, fun e => text_typeRef⟩
  · rw [text_named, n.isBare.component?_withArguments]
  · rw [text_named, n.isBare.rawName_withArguments]
  · intro d e h
    have hread := congrArg ofText? h
    rw [ofText?_text, ofText?_text] at hread
    exact Option.some.inj hread

def mapOfUsers : TypeExpr :=
  named ⟨"Map", by decide, by decide, by decide⟩
    [named ⟨"String", by decide, by decide, by decide⟩ [],
      array (named ⟨"User", by decide, by decide, by decide⟩ [])]

theorem text_read_mapOfUsers :
    (∀ n ∈ mapOfUsers.names, n ∉ Source.wrappers ∧ n ∉ Source.relativeNames) ∧
      mapOfUsers.typeRef.text = "Map<String, User[]>" ∧
      ofText? "Map<String, User[]>" = some mapOfUsers := by
  have hnames : ∀ n ∈ mapOfUsers.names, n ∉ Source.wrappers ∧ n ∉ Source.relativeNames := by
    decide
  have htext : mapOfUsers.text = "Map<String, User[]>" := by decide
  obtain ⟨-, -, hread, -, hsource⟩ := text_read
  exact ⟨hnames, (hsource mapOfUsers hnames).trans htext, htext ▸ hread mapOfUsers⟩

end TypeExpr

end EndpointDocs
