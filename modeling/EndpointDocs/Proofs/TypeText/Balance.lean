import Mathlib.Data.List.Infix
import EndpointDocs.Proofs.TypeText.Binding

namespace EndpointDocs.TypeText

open Chars

variable {b : Bindings} {cs : List Char} {depth : Nat} {head inner text : String}

/-- Each closing bracket closes one that the text has opened, and none stays open. -/
structure IsBalanced (cs : List Char) : Prop where
  opened : ∀ p, p <+: cs → p.count '>' ≤ p.count '<'
  closed : cs.count '>' = cs.count '<'

/-- In front of each comma more brackets have been opened than closed. -/
def CommasInside (cs : List Char) : Prop :=
  ∀ p, p ++ [','] <+: cs → p.count '>' < p.count '<'

/-- A text that can stand for a name among arguments. -/
structure IsValue (text : String) : Prop where
  content : Text.trim text ≠ ""
  trimmed : Text.trim text = text
  balanced : IsBalanced text.toList
  commas : CommasInside text.toList

instance : DecidablePred IsBalanced := fun cs =>
  decidable_of_iff ((∀ p ∈ cs.inits, p.count '>' ≤ p.count '<') ∧ cs.count '>' = cs.count '<')
    ⟨fun ⟨hopened, hclosed⟩ => ⟨fun p hp => hopened p ((List.mem_inits p cs).mpr hp), hclosed⟩,
      fun h => ⟨fun p hp => h.opened p ((List.mem_inits p cs).mp hp), h.closed⟩⟩

instance : DecidablePred CommasInside := fun cs =>
  decidable_of_iff (∀ q ∈ cs.inits, q.getLast? = some ',' → q.dropLast.count '>' < q.dropLast.count '<')
    ⟨fun h p hp => by simpa using h _ ((List.mem_inits _ cs).mpr hp) List.getLast?_concat,
      fun h q hq hlast => by
        obtain ⟨p, rfl⟩ := List.getLast?_eq_some_iff.mp hlast
        rw [List.dropLast_concat]
        exact h p ((List.mem_inits _ cs).mp hq)⟩

instance : DecidablePred IsValue := fun text =>
  decidable_of_iff (Text.trim text ≠ "" ∧ Text.trim text = text ∧ IsBalanced text.toList ∧
      CommasInside text.toList)
    ⟨fun ⟨h1, h2, h3, h4⟩ => ⟨h1, h2, h3, h4⟩, fun ⟨h1, h2, h3, h4⟩ => ⟨h1, h2, h3, h4⟩⟩

/-- A text adds to one piece if each of its commas stands behind an open bracket. -/
theorem pieces_append (h : ∀ p, p ++ [','] <+: cs → p.foldl depthAfter depth ≠ 0)
    (rest : List Char) :
    pieces depth (cs ++ rest) =
      (pieces (cs.foldl depthAfter depth) rest).modifyHead (cs ++ ·) := by
  induction cs generalizing depth with
  | nil => cases hrest : pieces depth rest <;> simp [hrest]
  | cons c cs ih =>
    have hcut : ¬ (c = ',' ∧ depth = 0) := by
      rintro ⟨rfl, hdepth⟩
      exact h [] (List.prefix_append [','] cs) hdepth
    have hinside : ∀ p, p ++ [','] <+: cs → p.foldl depthAfter (depthAfter depth c) ≠ 0 :=
      fun p hp => h (c :: p) (List.cons_prefix_cons.mpr ⟨rfl, hp⟩)
    rw [List.cons_append, pieces_cons, if_neg hcut, ih hinside, List.foldl_cons,
      List.modifyHead_modifyHead]
    rfl

/-- Where no bracket is closed that was not opened, the brackets that stand open are counted. -/
theorem foldl_depthAfter (h : ∀ p, p <+: cs → p.count '>' ≤ p.count '<') (depth : Nat) :
    cs.foldl depthAfter depth = depth + cs.count '<' - cs.count '>' := by
  induction cs using List.reverseRecOn with
  | nil => rfl
  | append_singleton cs c ih =>
    have hbefore := h cs (List.prefix_append cs [c])
    have hall := h (cs ++ [c]) (List.prefix_refl _)
    rw [List.foldl_append, List.foldl_cons, List.foldl_nil,
      ih fun p hp => h p (hp.trans (List.prefix_append cs [c]))]
    rw [List.count_append, List.count_append, List.count_singleton, List.count_singleton] at hall ⊢
    by_cases hopen : c = '<'
    · subst hopen
      simp [depthAfter]
      omega
    · by_cases hclose : c = '>'
      · subst hclose
        simp [depthAfter] at hall ⊢
        omega
      · simp [depthAfter, hopen, hclose]

/-- The brackets around a balanced text stay as they are. -/
theorem IsBalanced.closed_of_commasInside (hcs : IsBalanced cs) (hcommas : CommasInside cs) :
    Closed 0 cs := by
  intro depth _ rest
  have hbefore {p : List Char} (hp : p <+: cs) :
      p.foldl depthAfter depth = depth + p.count '<' - p.count '>' :=
    foldl_depthAfter (fun q hq => hcs.opened q (hq.trans hp)) depth
  have hinside : ∀ p, p ++ [','] <+: cs → p.foldl depthAfter depth ≠ 0 := by
    intro p hp
    have hmore := hcommas p hp
    rw [hbefore ((List.prefix_append p [',']).trans hp)]
    omega
  rw [pieces_append hinside, hbefore (List.prefix_refl cs), hcs.closed, Nat.add_sub_cancel]

theorem IsValue.isArgument (h : IsValue text) : IsArgument text where
  closed := h.balanced.closed_of_commasInside h.commas
  trimmed := by
    have htrim := congrArg String.toList h.trimmed
    rw [Text.toList_trim] at htrim
    rw [← htrim]
    exact isTrimmed_trim _

theorem putsArguments_of_isValue (hb : ∀ v ∈ b.values, IsValue v) : PutsArguments b := by
  intro k v hv
  have hvalue := hb v (List.mem_map_of_mem hv)
  exact ⟨hvalue.trimmed ▸ hvalue.content, hvalue.isArgument⟩

theorem toList_enclosed (head inner : String) :
    (head ++ "<" ++ inner ++ ">").toList =
      head.toList ++ '<' :: (inner.toList ++ '>' :: []) := by
  simp

theorem splitChars_brackets (hhead : '<' ∉ head.toList) (inner : String) :
    splitChars (head ++ "<" ++ inner ++ ">").toList = (trim head.toList, trim inner.toList) := by
  rw [toList_enclosed]
  exact Prod.ext (splitChars_fst_of_brackets hhead inner.toList [])
    (splitChars_snd_of_brackets hhead inner.toList List.not_mem_nil)

theorem rawName_brackets (hhead : '<' ∉ head.toList) (inner : String) :
    rawName (head ++ "<" ++ inner ++ ">") = Text.trim head := by
  rw [rawName, splitChars_brackets hhead]
  rfl

theorem rawName_of_not_mem (hhead : '<' ∉ head.toList) : rawName head = Text.trim head := by
  have hplain : '<' ∉ trim head.toList := fun hmem => hhead (mem_of_mem_trim hmem)
  rw [rawName, splitChars, splitTrimmed_of_not_mem hplain]
  rfl

theorem argumentText?_brackets (hhead : '<' ∉ head.toList) (inner : String) :
    argumentText? (head ++ "<" ++ inner ++ ">") = Text.content? inner := by
  rw [argumentText?_eq, splitChars_brackets hhead, Text.content?]
  simp only [← String.toList_eq_nil_iff, Text.toList_trim]
  rfl

theorem argumentsOf_trim (list : String) : argumentsOf (Text.trim list) = argumentsOf list := by
  rw [argumentsOf, Text.toList_trim, trim_pieces_trim, argumentsOf]

theorem arguments_brackets (hhead : '<' ∉ head.toList) (inner : String) :
    arguments (head ++ "<" ++ inner ++ ">") = argumentsOf inner := by
  rw [arguments_eq, splitChars_brackets hhead]
  exact argumentsOf_trim inner

/-- Names that the head does not mention are replaced between the brackets alone. -/
theorem substitute_brackets (hhead : ∀ k ∈ b.keys, ¬ Mentions head k) (inner : String) :
    substitute b (head ++ "<" ++ inner ++ ">") = head ++ "<" ++ substitute b inner ++ ">" := by
  apply String.toList_injective
  rw [toList_substitute, toList_enclosed, toList_enclosed, replaceNames_gap b _ _ isNameChar_lt,
    replaceNames_gap b _ _ isNameChar_gt, replaceNames_nil, toList_substitute,
    replaceNames_of_unbound (unbound_of_not_mentions hhead)]

theorem PutsArguments.content?_substitute (hb : PutsArguments b) (text : String) :
    Text.content? (substitute b text) = (Text.content? text).map (substitute b) := by
  have htrim : Text.trim (substitute b text) = substitute b (Text.trim text) := by
    apply String.toList_injective
    rw [Text.toList_trim, toList_substitute, hb.trim, toList_substitute, Text.toList_trim]
  have hempty : substitute b (Text.trim text) = "" ↔ Text.trim text = "" := by
    rw [← String.toList_eq_nil_iff, toList_substitute, hb.eq_nil_iff, String.toList_eq_nil_iff]
  simp only [Text.content?, htrim, hempty]
  split <;> rfl

/-- Cutting a list of arguments and replacing its names change places where the values are balanced
and have their commas inside of brackets. A reference by a name that is not bound keeps this name,
and has the arguments it had, as many as before, with their names replaced. -/
theorem substitute_keeps_arguments (hb : ∀ v ∈ b.values, IsValue v) :
    (∀ list, argumentsOf (substitute b list) = (argumentsOf list).map (substitute b)) ∧
    ∀ head inner, '<' ∉ head.toList → (∀ k ∈ b.keys, ¬ Mentions head k) →
      let text := head ++ "<" ++ inner ++ ">"
      rawName (substitute b text) = rawName head ∧
        argumentText? (substitute b text) = (Text.content? inner).map (substitute b) ∧
        arguments (substitute b text) = (argumentsOf inner).map (substitute b) ∧
        (arguments (substitute b text)).length = (arguments text).length := by
  have hputs := putsArguments_of_isValue hb
  refine ⟨argumentsOf_substitute hputs, fun head inner hplain hfree => ?_⟩
  have harguments : arguments (head ++ "<" ++ substitute b inner ++ ">") =
      (argumentsOf inner).map (substitute b) := by
    rw [arguments_brackets hplain, argumentsOf_substitute hputs]
  dsimp only
  rw [substitute_brackets hfree]
  refine ⟨?_, ?_, harguments, ?_⟩
  · rw [rawName_brackets hplain, rawName_of_not_mem hplain]
  · rw [argumentText?_brackets hplain, hputs.content?_substitute]
  · rw [harguments, List.length_map, arguments_brackets hplain]

/-- A parameter that stands for a map is one argument before and after. -/
theorem substitute_keeps_arguments_map :
    let b := [("T", "Map<K, V>")]
    (∀ v ∈ OrderedMap.values b, IsValue v) ∧
      '<' ∉ " app.Pair ".toList ∧ (∀ k ∈ OrderedMap.keys b, ¬ Mentions " app.Pair " k) ∧
      argumentsOf (substitute b "T, List<T>>, , T") =
        (argumentsOf "T, List<T>>, , T").map (substitute b) ∧
      argumentsOf "T, List<T>>, , T" = ["T", "List<T>>", "T"] ∧
      rawName (substitute b " app.Pair < T, Set<T> >") = "app.Pair" ∧
      argumentText? (substitute b " app.Pair < T, Set<T> >") =
        some "Map<K, V>, Set<Map<K, V>>" ∧
      (arguments (substitute b " app.Pair < T, Set<T> >")).length = 2 := by
  intro b
  have hb : ∀ v ∈ OrderedMap.values b, IsValue v := by decide
  have hplain : '<' ∉ " app.Pair ".toList := by decide
  have hfree : ∀ k ∈ OrderedMap.keys b, ¬ Mentions " app.Pair " k := by decide
  obtain ⟨hlist, htexts⟩ := substitute_keeps_arguments hb
  obtain ⟨hname, hinner, -, hlength⟩ := htexts " app.Pair " " T, Set<T> " hplain hfree
  refine ⟨hb, hplain, hfree, hlist _, by decide, ?_, ?_, ?_⟩
  · exact hname.trans (by decide)
  · exact hinner.trans (by decide)
  · exact hlength.trans (by decide)

end EndpointDocs.TypeText
