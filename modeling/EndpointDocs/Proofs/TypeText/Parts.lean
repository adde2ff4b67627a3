import EndpointDocs.Catalog
import EndpointDocs.Proofs.TypeText.Closing
import EndpointDocs.Scalar

namespace EndpointDocs

open Chars

namespace TypeText

variable {cs : List Char} {name : String}

theorem splitTrimmed_of_not_mem (h : '<' ∉ cs) : splitTrimmed cs = (cs, []) := by
  rw [splitTrimmed, cutAtFirst_eq_none_iff.mpr h]

/-- The name is all of the text or has no bracket in it. -/
theorem splitTrimmed_fst (cs : List Char) :
    (splitTrimmed cs).1 = cs ∨ '<' ∉ (splitTrimmed cs).1 ∧ IsTrimmed (splitTrimmed cs).1 := by
  unfold splitTrimmed
  split
  · exact .inl rfl
  · next head tail hcut =>
    split
    · exact .inl rfl
    · obtain ⟨-, hhead⟩ := cutAtFirst_eq_some hcut
      exact .inr ⟨fun hmem => hhead (mem_of_mem_trim hmem), isTrimmed_trim head⟩

theorem rawName_rawName (text : String) : rawName (rawName text) = rawName text := by
  have hname : (splitChars (splitChars text.toList).1).1 = (splitChars text.toList).1 := by
    rw [splitChars, splitChars]
    rcases splitTrimmed_fst (trim text.toList) with hall | ⟨hplain, htrimmed⟩
    · rw [hall, (isTrimmed_trim _).trim, hall]
    · rw [htrimmed.trim, splitTrimmed_of_not_mem hplain]
  rw [rawName, rawName, String.toList_ofList, hname]

theorem rawName_trim (text : String) : rawName (Text.trim text) = rawName text := by
  rw [rawName, rawName, Text.toList_trim, splitChars, splitChars, trim_trim]

theorem isVoid_trim (text : String) : isVoid (Text.trim text) = isVoid text := by
  rw [isVoid, isVoid, rawName_trim]

theorem isTrimmed_of_mem_arguments {text argument : String} (h : argument ∈ arguments text) :
    argument ≠ "" ∧ IsTrimmed argument.toList := by
  rw [arguments_eq, argumentsOf] at h
  obtain ⟨p, hp, rfl⟩ := List.mem_map.mp h
  obtain ⟨hmem, hne⟩ := List.mem_filter.mp hp
  obtain ⟨q, _, rfl⟩ := List.mem_map.mp hmem
  rw [String.toList_ofList, Ne, ← String.toList_eq_nil_iff, String.toList_ofList]
  exact ⟨by simpa using hne, isTrimmed_trim q⟩

/-- A reference by a name, with arguments behind it or without. -/
def withArguments (name : String) : Option String → String
  | none => name
  | some inner => name ++ "<" ++ inner ++ ">"

/-- A text that is a name and nothing else. -/
structure IsBare (name : String) : Prop where
  nonempty : name ≠ ""
  trimmed : Text.trim name = name
  plain : '<' ∉ name.toList
  single : component? name = none

instance (name : String) : Decidable (IsBare name) :=
  decidable_of_iff (name ≠ "" ∧ Text.trim name = name ∧ '<' ∉ name.toList ∧
    component? name = none)
    ⟨fun ⟨h1, h2, h3, h4⟩ => ⟨h1, h2, h3, h4⟩, fun ⟨h1, h2, h3, h4⟩ => ⟨h1, h2, h3, h4⟩⟩

variable {arguments? : Option String}

theorem IsBare.isTrimmed (h : IsBare name) : IsTrimmed name.toList := by
  have htrim := congrArg String.toList h.trimmed
  rw [Text.toList_trim] at htrim
  rw [← htrim]
  exact isTrimmed_trim _

theorem toList_withArguments (name inner : String) :
    (withArguments name (some inner)).toList = name.toList ++ ('<' :: inner.toList ++ ['>']) := by
  simp [withArguments]

theorem IsBare.isTrimmed_withArguments (h : IsBare name) :
    IsTrimmed (withArguments name arguments?).toList := by
  cases arguments? with
  | none => exact h.isTrimmed
  | some inner =>
    rw [toList_withArguments]
    exact isTrimmed_append h.isTrimmed.1 rfl rfl

theorem IsBare.split_withArguments (h : IsBare name) :
    splitChars (withArguments name arguments?).toList =
      (name.toList, trim (arguments?.getD "").toList) := by
  rw [splitChars, h.isTrimmed_withArguments.trim]
  cases arguments? with
  | none => exact splitTrimmed_of_not_mem h.plain
  | some inner =>
    rw [toList_withArguments, List.cons_append, splitTrimmed, cutAtFirst_append h.plain]
    simp only
    rw [beforeLast_append (by simp), h.isTrimmed.trim]
    rfl

theorem IsBare.rawName_withArguments (h : IsBare name) :
    rawName (withArguments name arguments?) = name := by
  rw [rawName, h.split_withArguments, String.ofList_toList]

theorem IsBare.rawName_eq (h : IsBare name) : rawName name = name :=
  @rawName_withArguments name none h

/-- The arguments of a reference do not depend on the name in front of them. -/
theorem IsBare.arguments_withArguments {other : String} (h : IsBare name) (ho : IsBare other) :
    arguments (withArguments name arguments?) = arguments (withArguments other arguments?) := by
  rw [arguments_eq, arguments_eq, h.split_withArguments, ho.split_withArguments]

theorem IsBare.arguments_eq_nil (h : IsBare name) : arguments name = [] := by
  have hsplit : (splitChars name.toList).2 = [] :=
    congrArg Prod.snd (@split_withArguments name none h)
  rw [arguments, argumentText?, hsplit]

theorem IsBare.component?_withArguments (h : IsBare name) :
    component? (withArguments name arguments?) = none := by
  cases arguments? with
  | none => exact h.single
  | some inner =>
    have hend : ['[', ']'].isSuffixOf? (withArguments name (some inner)).toList = none := by
      by_contra hsome
      obtain ⟨cs, hcs⟩ := Option.ne_none_iff_exists'.mp hsome
      have hlast := congrArg List.getLast? (isSuffixOf?_eq_some_iff.mp hcs)
      rw [toList_withArguments, ← List.append_assoc, List.getLast?_concat] at hlast
      simp at hlast
    rw [component?, h.isTrimmed_withArguments.trim, hend]

theorem IsBare.trim_withArguments (h : IsBare name) :
    Text.trim (withArguments name arguments?) ≠ "" := by
  intro hempty
  have htrim := congrArg String.toList hempty
  rw [Text.toList_trim, h.isTrimmed_withArguments.trim] at htrim
  cases arguments? with
  | none => exact h.nonempty (String.toList_inj.mp htrim)
  | some inner => simp [toList_withArguments] at htrim

theorem IsBare.isVoid_withArguments (h : IsBare name) :
    isVoid (withArguments name arguments?) = decide (name ∈ voidNames) := by
  simp [isVoid, h.rawName_withArguments, h.nonempty]

end TypeText

namespace Catalog

variable {name : String} {arguments? : Option String}

theorem find?_rawName (c : Catalog) (text : String) :
    c.find? (TypeText.rawName text) = c.find? text := by
  rw [find?, find?, TypeText.rawName_rawName]

theorem find?_withArguments (c : Catalog) (h : TypeText.IsBare name) :
    c.find? (TypeText.withArguments name arguments?) = c.find? name := by
  rw [← find?_rawName, h.rawName_withArguments]

end Catalog

theorem Scalar.named?_withArguments {name : String} {arguments? : Option String}
    (table : List Scalar) (h : TypeText.IsBare name) :
    named? table (TypeText.withArguments name arguments?) = named? table name := by
  rw [named?, named?, h.rawName_withArguments, h.rawName_eq]

end EndpointDocs
