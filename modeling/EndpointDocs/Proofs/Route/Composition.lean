import Mathlib.Data.List.Basic
import EndpointDocs.Proofs.Chars.Words
import EndpointDocs.Route

namespace EndpointDocs

/-- A field is what white space around leaves of a piece between separators, if it leaves
anything. -/
theorem Text.mem_fields {sep : Char} {text s : String} (h : s ∈ fields sep text) :
    s ≠ "" ∧ trim s = s ∧ sep ∉ s.toList := by
  obtain ⟨piece, hpiece, hs⟩ := List.mem_filterMap.mp h
  obtain ⟨cs, hcs, rfl⟩ := List.mem_map.mp hpiece
  rw [content?] at hs
  split at hs
  · cases hs
  · next hne =>
    cases hs
    have hfree : sep ∉ cs := fun hmem => by
      have hseparates := Chars.not_separates_of_mem_splitOnP hcs sep hmem
      simp at hseparates
    refine ⟨hne, ?_, fun hmem => hfree ?_⟩
    · rw [trim, toList_trim, Chars.trim_trim, trim]
    · rw [toList_trim, String.toList_ofList] at hmem
      exact Chars.mem_of_mem_trim hmem

namespace Route

variable {s : String} {ss : List String}

/-- What can stand between two slashes of a composed path. -/
structure IsSegment (s : String) : Prop where
  nonempty : s ≠ ""
  trimmed : Text.trim s = s
  unbroken : '/' ∉ s.toList

private theorem isSegment_of_mem_fields {text : String} (h : s ∈ Text.fields '/' text) :
    IsSegment s :=
  let ⟨nonempty, trimmed, unbroken⟩ := Text.mem_fields h
  ⟨nonempty, trimmed, unbroken⟩

/-- The path of the segments, each behind a slash. -/
def ofSegments (ss : List String) : String :=
  "/" ++ Text.join "/" ss

/-- What stands between the slashes of a path and behind the last one; nothing does in the path
that is a slash only. -/
def segments (path : String) : List String :=
  if path = "/" then [] else (path.toList.tail.splitOn '/').map String.ofList

theorem compose_eq (a b : String) :
    compose a b = ofSegments (Text.fields '/' a ++ Text.fields '/' b) :=
  rfl

theorem toList_ofSegments (ss : List String) :
    (ofSegments ss).toList = '/' :: List.intercalate ['/'] (ss.map String.toList) := by
  simp [ofSegments, Text.join]

theorem splitOn_intercalate (h : ∀ s ∈ ss, IsSegment s) (hne : ss ≠ []) :
    ((List.intercalate ['/'] (ss.map String.toList)).splitOn '/').map String.ofList = ss := by
  have hfree : ∀ cs ∈ ss.map String.toList, '/' ∉ cs :=
    List.forall_mem_map.mpr fun s hs => (h s hs).unbroken
  rw [List.splitOn_intercalate '/' hfree (by simpa using hne), List.map_map]
  simp

/-- If a path ended with a slash, its last segment would be empty. -/
theorem getLast?_ofSegments (h : ∀ s ∈ ss, IsSegment s) (hne : ss ≠ []) :
    (ofSegments ss).toList.getLast? ≠ some '/' := by
  intro hlast
  have hcut := splitOn_intercalate h hne
  refine absurd rfl (h "" ?_).nonempty
  obtain ⟨before, hbefore⟩ := List.getLast?_eq_some_iff.mp hlast
  rw [toList_ofSegments] at hbefore
  cases before with
  | nil =>
    rw [← hcut, (List.cons.inj hbefore).2]
    exact List.mem_singleton_self ""
  | cons c before =>
    rw [List.cons_append] at hbefore
    rw [← hcut, (List.cons.inj hbefore).2, List.splitOn_append_cons_self]
    simp

theorem ofSegments_eq_slash_iff (h : ∀ s ∈ ss, IsSegment s) :
    ofSegments ss = "/" ↔ (ofSegments ss).toList.getLast? = some '/' := by
  constructor
  · intro heq
    rw [heq]
    rfl
  · intro hlast
    have hnil : ss = [] := by_contra fun hne => getLast?_ofSegments h hne hlast
    rw [hnil]
    rfl

theorem segments_ofSegments (h : ∀ s ∈ ss, IsSegment s) : segments (ofSegments ss) = ss := by
  by_cases hnil : ss = []
  · rw [hnil]
    rfl
  · have hne : ofSegments ss ≠ "/" :=
      mt (ofSegments_eq_slash_iff h).mp (getLast?_ofSegments h hnil)
    rw [segments, if_neg hne, toList_ofSegments, List.tail_cons, splitOn_intercalate h hnil]

theorem IsSegment.content?_eq (h : IsSegment s) : Text.content? s = some s := by
  rw [Text.content?, h.trimmed, if_neg h.nonempty]

theorem fields_ofSegments (h : ∀ s ∈ ss, IsSegment s) :
    Text.fields '/' (ofSegments ss) = ss := by
  have hslash (cs : List Char) : ('/' :: cs).splitOn '/' = [] :: cs.splitOn '/' :=
    List.splitOn_append_cons_self [] cs
  have hblank : Text.content? "" = none := by decide
  rw [Text.fields, toList_ofSegments, hslash, List.map_cons, String.ofList_nil,
    List.filterMap_cons_none hblank]
  cases ss with
  | nil => decide
  | cons s ss =>
    rw [splitOn_intercalate h (List.cons_ne_nil s ss)]
    exact (List.filterMap_congr fun x hx => (h x hx).content?_eq).trans List.filterMap_some

theorem isSegment_of_mem_append {a b : String}
    (h : s ∈ Text.fields '/' a ++ Text.fields '/' b) : IsSegment s :=
  (List.mem_append.mp h).elim isSegment_of_mem_fields isSegment_of_mem_fields

theorem fields_compose (a b : String) :
    Text.fields '/' (compose a b) = Text.fields '/' a ++ Text.fields '/' b :=
  fields_ofSegments fun _ => isSegment_of_mem_append

theorem segments_compose (a b : String) :
    segments (compose a b) = Text.fields '/' a ++ Text.fields '/' b :=
  segments_ofSegments fun _ => isSegment_of_mem_append

/-- The segments of a composed path are the fields of the first path and then those of the second
one, none of them empty and all of them trimmed. Composed paths start with a slash and end with one
only where they have no segment. Composing is associative, and composing with the empty path leaves
a composed path as it is. -/
theorem compose_segments (a b c : String) :
    segments (compose a b) = Text.fields '/' a ++ Text.fields '/' b ∧
      (∀ s ∈ segments (compose a b), s ≠ "" ∧ Text.trim s = s) ∧
      (compose a b).toList.head? = some '/' ∧
      (compose a b = "/" ↔ (compose a b).toList.getLast? = some '/') ∧
      compose (compose a b) c = compose a (compose b c) ∧
      compose (compose a b) "" = compose a b ∧
      compose "" (compose a b) = compose a b := by
  have hempty : Text.fields '/' "" = [] := by decide
  refine ⟨segments_compose a b, fun s hs => ?_, ?_, ?_, ?_, ?_, ?_⟩
  · rw [segments_compose] at hs
    exact ⟨(isSegment_of_mem_append hs).nonempty, (isSegment_of_mem_append hs).trimmed⟩
  · rw [compose_eq, toList_ofSegments, List.head?_cons]
  · exact ofSegments_eq_slash_iff fun _ => isSegment_of_mem_append
  · rw [compose_eq (compose a b), compose_eq a (compose b c), fields_compose, fields_compose,
      List.append_assoc]
  · rw [compose_eq, fields_compose, hempty, List.append_nil, compose_eq]
  · rw [compose_eq, fields_compose, hempty, List.nil_append, compose_eq]

end Route

end EndpointDocs
