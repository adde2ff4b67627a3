import EndpointDocs.Proofs.TypeText.Closing
import EndpointDocs.Source.TypeName

namespace EndpointDocs.Source

open TypeText

mutual

/-- The names that may show in the text of a type. -/
def TypeRef.names : TypeRef → List String
  | .path _ _ segments => segmentNames segments
  | .reference t | .slice t | .array t | .paren t => t.names
  | .someOf bounds | .object _ bounds => boundNames bounds
  | .tuple _ | .other => []

def segmentNames : List Segment → List String
  | [] => []
  | s :: ss => s.names ++ segmentNames ss

def Segment.names : Segment → List String
  | .mk name arguments => name :: arguments.names

def Arguments.names : Arguments → List String
  | .angles arguments => argumentNames arguments
  | .none | .parens => []

def argumentNames : List Argument → List String
  | [] => []
  | a :: as => a.names ++ argumentNames as

def Argument.names : Argument → List String
  | .type t => t.names
  | .other => []

def boundNames : List Bound → List String
  | [] => []
  | b :: bs => b.names ++ boundNames bs

def Bound.names : Bound → List String
  | .path segments => segmentNames segments
  | .lifetime | .other => []

end

private theorem isArgument_empty : IsArgument "" :=
  IsWord.isArgument (by decide)

private theorem isWord_path {names : List String} (h : ∀ n ∈ names, IsWord n) :
    IsWord (Text.join "::" names) := by
  intro c hc
  have hsep : IsWord "::" := by decide
  rw [Text.join, String.toList_ofList] at hc
  induction names with
  | nil => cases hc
  | cons n names ih =>
    cases names with
    | nil => exact h n List.mem_cons_self c (by simpa using hc)
    | cons m names =>
      rw [List.map_cons, List.map_cons, List.intercalate_cons_cons, List.mem_append,
        List.mem_append] at hc
      rcases hc with (hc | hc) | hc
      · exact h n List.mem_cons_self c hc
      · exact hsep c hc
      · exact ih (fun n hn => h n (List.mem_cons_of_mem _ hn)) hc

private theorem isArgument_pathText {names arguments : List String} (hnames : ∀ n ∈ names, IsWord n)
    (harguments : ∀ a ∈ arguments, IsArgument a) : IsArgument (pathText names arguments) := by
  have hpath : IsWord (Text.join "::" (names.dropWhile (· ∈ relativeNames))) :=
    isWord_path fun n hn => hnames n ((List.dropWhile_suffix _).subset hn)
  unfold pathText
  split
  · exact isArgument_empty
  · simp only
    split
    · exact hpath.isArgument
    · exact hpath.isArgument_brackets harguments

private theorem isArgument_typePathText {names arguments : List String}
    (hnames : ∀ n ∈ names, IsWord n) (harguments : ∀ a ∈ arguments, IsArgument a) :
    IsArgument (typePathText names arguments) := by
  unfold typePathText
  split
  · exact isArgument_pathText hnames (List.forall_mem_nil _)
  · next a as =>
    split
    · exact harguments a List.mem_cons_self
    · exact isArgument_pathText hnames harguments

private theorem isArgument_arrayText {component : String} (h : IsArgument component) :
    IsArgument (arrayText component) := by
  unfold arrayText
  split
  · exact isArgument_empty
  · have hsuffix : IsWord "[]" := by decide
    constructor
    · rw [String.toList_append]
      exact h.closed.append hsuffix.isArgument.closed
    · have htext : (component ++ "[]").toList = component.toList ++ ('[' :: [] ++ [']']) := by
        rw [String.toList_append]
        rfl
      rw [htext]
      exact isTrimmed_append h.trimmed.1 rfl rfl

private theorem isWord_names {ss : List Segment} (h : ∀ n ∈ segmentNames ss, IsWord n) :
    ∀ n ∈ ss.map Segment.name, IsWord n := by
  induction ss with
  | nil => exact List.forall_mem_nil _
  | cons s ss ih =>
    obtain ⟨name, arguments⟩ := s
    obtain ⟨hsegment, hrest⟩ := List.forall_mem_append.mp h
    exact List.forall_mem_cons.mpr ⟨hsegment name List.mem_cons_self, ih hrest⟩

mutual

private theorem TypeRef.isArgument_text :
    ∀ t : TypeRef, (∀ n ∈ t.names, IsWord n) → IsArgument t.text
  | .path _ _ segments, h =>
    isArgument_typePathText (isWord_names h) (isArgument_lastArguments segments h)
  | .reference t, h => t.isArgument_text h
  | .slice t, h => isArgument_arrayText (t.isArgument_text h)
  | .array t, h => isArgument_arrayText (t.isArgument_text h)
  | .paren t, h => t.isArgument_text h
  | .tuple [], _ => IsWord.isArgument (show IsWord "void" by decide)
  | .tuple (_ :: _), _ => isArgument_empty
  | .someOf bounds, h => isArgument_firstBound bounds h
  | .object _ bounds, h => isArgument_firstBound bounds h
  | .other, _ => isArgument_empty

private theorem isArgument_lastArguments : ∀ ss : List Segment,
    (∀ n ∈ segmentNames ss, IsWord n) → ∀ a ∈ lastArguments ss, IsArgument a
  | [], _ => List.forall_mem_nil _
  | [.mk _ arguments], h =>
    arguments.isArgument_texts fun n hn =>
      h n (List.mem_append_left _ (List.mem_cons_of_mem _ hn))
  | _ :: s :: ss, h =>
    isArgument_lastArguments (s :: ss) fun n hn => h n (List.mem_append_right _ hn)

private theorem Arguments.isArgument_texts :
    ∀ as : Arguments, (∀ n ∈ as.names, IsWord n) → ∀ a ∈ as.texts, IsArgument a
  | .angles arguments, h => isArgument_argumentTexts arguments h
  | .none, _ => List.forall_mem_nil _
  | .parens, _ => List.forall_mem_nil _

private theorem isArgument_argumentTexts : ∀ as : List Argument,
    (∀ n ∈ argumentNames as, IsWord n) → ∀ a ∈ argumentTexts as, IsArgument a
  | [], _ => List.forall_mem_nil _
  | .type t :: as, h =>
    List.forall_mem_cons.mpr
      ⟨t.isArgument_text fun n hn => h n (List.mem_append_left _ hn),
        isArgument_argumentTexts as fun n hn => h n (List.mem_append_right _ hn)⟩
  | .other :: as, h => isArgument_argumentTexts as h

private theorem isArgument_firstBound :
    ∀ bs : List Bound, (∀ n ∈ boundNames bs, IsWord n) → IsArgument (firstBound bs)
  | [], _ => isArgument_empty
  | .path segments :: _, h =>
    have hnames : ∀ n ∈ segmentNames segments, IsWord n :=
      fun n hn => h n (List.mem_append_left _ hn)
    isArgument_pathText (isWord_names hnames) (isArgument_lastArguments segments hnames)
  | .lifetime :: bs, h => isArgument_firstBound bs h
  | .other :: bs, h => isArgument_firstBound bs h

end

/-- The segments of a path with types for the arguments of its last name. -/
def applied (ss : List Segment) (name : String) (ts : List TypeRef) : List Segment :=
  ss ++ [.mk name (.angles (ts.map .type))]

theorem lastArguments_append (ss : List Segment) (s : Segment) :
    lastArguments (ss ++ [s]) = s.argumentTexts := by
  induction ss with
  | nil => rfl
  | cons t ss ih =>
    cases ss with
    | nil => rfl
    | cons u ss => exact ih

private theorem argumentTexts_map_type (ts : List TypeRef) :
    argumentTexts (ts.map .type) = ts.map TypeRef.text := by
  induction ts with
  | nil => rfl
  | cons t ts ih => simp [argumentTexts, Argument.text?, ih]

private theorem exists_pathText {names arguments : List String} (hnames : ∀ n ∈ names, IsWord n)
    (hrelative : ¬ ∀ n ∈ names, n ∈ relativeNames) (hne : arguments ≠ []) :
    ∃ path, IsWord path ∧
      pathText names arguments = path ++ "<" ++ Text.join ", " arguments ++ ">" := by
  have hpath : IsWord (Text.join "::" (names.dropWhile (· ∈ relativeNames))) :=
    isWord_path fun n hn => hnames n ((List.dropWhile_suffix _).subset hn)
  refine ⟨_, hpath, ?_⟩
  unfold pathText
  split
  · next hnone =>
    exact absurd (fun n hn => of_decide_eq_true (List.dropWhile_eq_nil_iff.mp hnone n hn)) hrelative
  · rw [if_neg (by simpa using hne)]

private theorem pathText_of_relative {names : List String} (h : ∀ n ∈ names, n ∈ relativeNames)
    (arguments : List String) : pathText names arguments = "" := by
  have hnone : names.dropWhile (· ∈ relativeNames) = [] :=
    List.dropWhile_eq_nil_iff.mpr fun n hn => decide_eq_true (h n hn)
  rw [pathText, hnone]

private theorem typePathText_of_not_wrapper {names arguments : List String} {name : String}
    (hlast : names.getLast? = some name) (hwrapper : name ∉ wrappers) (hne : arguments ≠ []) :
    typePathText names arguments = pathText names arguments := by
  unfold typePathText
  split
  · exact absurd rfl hne
  · rw [if_neg (by simpa [hlast] using hwrapper)]

/-- Reading the text of a path with types for arguments gives the texts of those types that have
one, in their order, unless the path has no name that shows. So every argument keeps its position
exactly if there is such a name and each of the arguments has a text. -/
theorem arguments_text (isQualified isAbsolute : Bool) {ss : List Segment} {name : String}
    {ts : List TypeRef} (hne : ts ≠ []) (hwrapper : name ∉ wrappers)
    (hnames : ∀ n ∈ segmentNames (applied ss name ts), IsWord n) :
    (arguments (TypeRef.path isQualified isAbsolute (applied ss name ts)).text =
      if ∀ n ∈ (applied ss name ts).map Segment.name, n ∈ relativeNames then []
      else (ts.map TypeRef.text).filter (· ≠ "")) ∧
    (arguments (TypeRef.path isQualified isAbsolute (applied ss name ts)).text =
        ts.map TypeRef.text ↔
      (∃ n ∈ (applied ss name ts).map Segment.name, n ∉ relativeNames) ∧
        ∀ t ∈ ts, t.text ≠ "") := by
  have hlast : ((applied ss name ts).map Segment.name).getLast? = some name := by
    simp [applied, Segment.name]
  have htexts : lastArguments (applied ss name ts) = ts.map TypeRef.text := by
    rw [applied, lastArguments_append]
    exact argumentTexts_map_type ts
  have hclosed := isArgument_lastArguments _ hnames
  have hsome : ts.map TypeRef.text ≠ [] := by simpa using hne
  rw [htexts] at hclosed
  rw [TypeRef.text, htexts, typePathText_of_not_wrapper hlast hwrapper hsome]
  by_cases hrelative : ∀ n ∈ (applied ss name ts).map Segment.name, n ∈ relativeNames
  · -- No name shows, and the arguments are lost with the path.
    have hread : arguments "" = [] := by decide
    rw [pathText_of_relative hrelative, hread, if_pos hrelative]
    refine ⟨rfl, fun h => absurd h.symm hsome, ?_⟩
    rintro ⟨⟨n, hn, hnot⟩, -⟩
    exact absurd (hrelative n hn) hnot
  · obtain ⟨path, hpath, htext⟩ := exists_pathText (isWord_names hnames) hrelative hsome
    have hshows : ∃ n ∈ (applied ss name ts).map Segment.name, n ∉ relativeNames := by
      simpa using hrelative
    rw [htext, arguments_of_closed hpath hsome hclosed, if_neg hrelative, List.filter_eq_self]
    refine ⟨rfl, fun h => ⟨hshows, fun t ht => ?_⟩, fun h => ?_⟩
    · exact of_decide_eq_true (h t.text (List.mem_map_of_mem ht))
    · exact List.forall_mem_map.mpr fun t ht => decide_eq_true (h.2 t ht)

/-- The type that a name stands for by itself. -/
def plainType (name : String) : TypeRef :=
  .path false false [.mk name .none]

/-- Both arguments of a map have a text. -/
theorem arguments_text_map :
    let values := TypeRef.path false false (applied [] "Vec" [plainType "User"])
    let segments := applied [.mk "std" .none] "HashMap" [plainType "String", values]
    (∀ n ∈ segmentNames segments, IsWord n) ∧
      arguments (TypeRef.path false false segments).text = ["String", "Vec<User>"] := by
  intro values segments
  have hnames : ∀ n ∈ segmentNames segments, IsWord n := by decide
  have hread := (arguments_text false false (List.cons_ne_nil _ _) (by decide) hnames).1
  exact ⟨hnames, hread.trans (by decide)⟩

/-- A pair has no text, so the argument behind it takes its place. -/
theorem arguments_text_pair :
    let pair := TypeRef.tuple [plainType "A", plainType "B"]
    let segments := applied [] "Result" [pair, plainType "E"]
    (∀ n ∈ segmentNames segments, IsWord n) ∧
      [pair, plainType "E"].map TypeRef.text = ["", "E"] ∧
      arguments (TypeRef.path false false segments).text = ["E"] := by
  intro pair segments
  refine ⟨by decide, by decide, by decide⟩

end EndpointDocs.Source
