import EndpointDocs.OrderedMap
import EndpointDocs.Text

namespace EndpointDocs.TypeText

/-- The name in front of the first `<` and the text between it and the last `>`, both trimmed;
without such brackets all of the text is the name. -/
def splitTrimmed (cs : List Char) : List Char × List Char :=
  match Chars.cutAtFirst '<' cs with
  | none => (cs, [])
  | some (head, tail) =>
    match Chars.beforeLast '>' tail with
    | none => (cs, [])
    | some inner => (Chars.trim head, Chars.trim inner)

def splitChars (cs : List Char) : List Char × List Char :=
  splitTrimmed (Chars.trim cs)

/-- The name of the type without its arguments, `Map` of `Map<String, List<User>>`. -/
def rawName (text : String) : String :=
  String.ofList (splitChars text.toList).1

/-- The text of the arguments, if there are any. -/
def argumentText? (text : String) : Option String :=
  match (splitChars text.toList).2 with
  | [] => none
  | inner => some (String.ofList inner)

/-- The number of angle brackets that stand open after `c`; a closing one without an opening one
closes nothing. -/
def depthAfter (depth : Nat) (c : Char) : Nat :=
  if c = '<' then depth + 1 else if c = '>' then depth - 1 else depth

/-- The pieces between the commas that stand outside angle brackets. -/
def pieces : Nat → List Char → List (List Char)
  | _, [] => [[]]
  | depth, c :: cs =>
    if c = ',' ∧ depth = 0 then [] :: pieces depth cs
    else
      match pieces (depthAfter depth c) cs with
      | [] => [[c]]
      | p :: ps => (c :: p) :: ps

/-- The arguments in a list of them: its pieces, trimmed, those without content left out. -/
def argumentsOf (list : String) : List String :=
  (((pieces 0 list.toList).map Chars.trim).filter (! ·.isEmpty)).map String.ofList

/-- The arguments of a reference. -/
def arguments (text : String) : List String :=
  match argumentText? text with
  | none => []
  | some list => argumentsOf list

/-- The text of `X` in `X[]`, unless that has no content. -/
def component? (text : String) : Option String :=
  match ['[', ']'].isSuffixOf? (Chars.trim text.toList) with
  | none => none
  | some cs =>
    match Chars.trim cs with
    | [] => none
    | component => some (String.ofList component)

/-- The last segment of a path, whether `::` or `.` joins it: `List` of `java.util.List<E>`. -/
def shortName (text : String) : String :=
  let path := (Chars.trim text.toList).takeWhile (· ≠ '<')
  String.ofList (Chars.afterLast ['.'] (Chars.afterLast [':', ':'] path))

/-- Whether `tail` is `full` or ends it from a segment on, as `State` does `axum::extract::State`. -/
def isPathSuffix (full tail : String) : Bool :=
  tail ≠ "" &&
  (full = tail ||
    match Text.stripSuffix? tail full with
    | none => false
    | some head =>
      (Text.stripSuffix? "::" head).isSome || (Text.stripSuffix? "." head).isSome)

/-- The names that stand for the absence of a value. -/
def voidNames : List String :=
  ["void", "java.lang.Void", "Void", "()", "unit"]

def isVoid (text : String) : Bool :=
  let name := rawName text
  name = "" || name ∈ voidNames

/-- Values for type parameters. -/
abbrev Bindings := OrderedMap String

/-- The characters of a name in a reference. Dots, colons and dollar signs belong to it, so that a
parameter `T` is not found inside `com.T.Bar` or `a::T`. -/
def isNameChar (c : Char) : Bool :=
  Chars.isAlphanumeric c || c = '_' || c = '.' || c = ':' || c = '$'

/-- What stands for a name: its value if it is bound, itself otherwise. -/
def replaceName (b : Bindings) (name : List Char) : List Char :=
  match name with
  | [] => []
  | name => ((b.get? (String.ofList name)).map String.toList).getD name

/-- Replaces the names of a text after `name`, which is read backwards and not yet complete. -/
def substituteChars (b : Bindings) (name : List Char) : List Char → List Char
  | [] => replaceName b name.reverse
  | c :: cs =>
    if isNameChar c then substituteChars b (c :: name) cs
    else replaceName b name.reverse ++ c :: substituteChars b [] cs

/-- Binds type parameters: each whole name that is bound is replaced by its value. -/
def substitute (b : Bindings) (text : String) : String :=
  String.ofList (substituteChars b [] text.toList)

/-- Binds the parameters to the arguments by position. -/
def bind (parameters : List String) (arguments : List String) : Bindings :=
  OrderedMap.ofEntries (parameters.zip arguments)

theorem component?_length {text component : String} (h : component? text = some component) :
    component.length < text.length := by
  unfold component? at h
  split at h
  · cases h
  · next cs hcs =>
    split at h
    · cases h
    · cases h
      have h1 := Chars.length_of_isSuffixOf? hcs
      have h2 := Chars.trim_length_le cs
      have h3 := Chars.trim_length_le text.toList
      rw [← String.length_toList, ← String.length_toList, String.toList_ofList]
      simp only [List.length_cons, List.length_nil] at h1
      omega

theorem pieces_length {depth : Nat} {cs p : List Char} (h : p ∈ pieces depth cs) :
    p.length ≤ cs.length := by
  induction cs generalizing depth p with
  | nil => simp_all [pieces]
  | cons c cs ih =>
    unfold pieces at h
    split at h
    · rcases List.mem_cons.1 h with rfl | h
      · simp
      · exact Nat.le_succ_of_le (ih h)
    · split at h
      · simp_all
      · next q qs hq =>
        rcases List.mem_cons.1 h with rfl | h
        · simpa using ih (hq ▸ List.mem_cons_self)
        · exact Nat.le_succ_of_le (ih (hq ▸ List.mem_cons_of_mem _ h))

theorem argumentsOf_length {list argument : String} (h : argument ∈ argumentsOf list) :
    argument.length ≤ list.length := by
  simp only [argumentsOf, List.mem_map, List.mem_filter] at h
  obtain ⟨p, ⟨⟨q, hq, rfl⟩, _⟩, rfl⟩ := h
  have h1 := pieces_length hq
  have h2 := Chars.trim_length_le q
  rw [← String.length_toList, ← String.length_toList, String.toList_ofList]
  omega

theorem splitTrimmed_snd_length {cs : List Char} (h : (splitTrimmed cs).2 ≠ []) :
    (splitTrimmed cs).2.length < cs.length := by
  unfold splitTrimmed at h ⊢
  split at h
  · exact absurd rfl h
  · next head tail hcut =>
    split at h
    · exact absurd rfl h
    · next inner hlast =>
      have h1 := congrArg List.length (Chars.cutAtFirst_eq_some hcut).1
      have h2 := Chars.beforeLast_length hlast
      have h3 := Chars.trim_length_le inner
      simp only [List.length_append, List.length_cons] at h1
      simp only
      omega

theorem splitChars_snd_length {cs : List Char} (h : (splitChars cs).2 ≠ []) :
    (splitChars cs).2.length < cs.length := by
  unfold splitChars at h ⊢
  exact Nat.lt_of_lt_of_le (splitTrimmed_snd_length h) (Chars.trim_length_le cs)

theorem argumentText?_length {text list : String} (h : argumentText? text = some list) :
    list.length < text.length := by
  unfold argumentText? at h
  split at h
  · cases h
  · next hne =>
    cases h
    rw [← String.length_toList, ← String.length_toList, String.toList_ofList]
    exact splitChars_snd_length hne

theorem arguments_length {text argument : String} (h : argument ∈ arguments text) :
    argument.length < text.length := by
  unfold arguments at h
  split at h
  · cases h
  · next list hlist => exact Nat.lt_of_le_of_lt (argumentsOf_length h) (argumentText?_length hlist)

end EndpointDocs.TypeText
