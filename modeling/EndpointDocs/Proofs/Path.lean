import Mathlib.Data.Char
import Mathlib.Data.List.Basic
import EndpointDocs.Path

namespace EndpointDocs.Path

variable {name : String}

/-- The name of a file or of a directory in the way of a path. -/
structure IsName (name : String) : Prop where
  nonempty : name ≠ ""
  apart : '/' ∉ name.toList
  notHere : name ≠ "."
  notAbove : name ≠ ".."

theorem IsName.not_isAbsolute (h : IsName name) : isAbsolute name = false := by
  rw [← Bool.not_eq_true]
  intro habsolute
  exact h.apart (List.mem_of_head? (of_decide_eq_true habsolute))

theorem IsName.parts_self (h : IsName name) : parts name = [name] := by
  have hone : name.toList.splitOn '/' = [name.toList] :=
    List.splitOnP_eq_singleton fun c hc => by
      rw [beq_eq_false_iff_ne]
      rintro rfl
      exact h.apart hc
  simp [parts, hone, h.nonempty]

theorem parts_append_slash (a b : String) :
    parts (a ++ "/" ++ b) = parts a ++ parts b := by
  have hcut : (a ++ "/" ++ b).toList.splitOn '/' =
      a.toList.splitOn '/' ++ b.toList.splitOn '/' := by
    rw [String.toList_append, String.toList_append, List.append_assoc]
    exact List.splitOnP_append_cons _ _ (beq_self_eq_true '/')
  rw [parts, hcut, List.map_append, List.filter_append]
  rfl

/-- What a name is joined to: nothing, or a path that ends with a slash or gets one. -/
theorem IsName.join_cases (h : IsName name) (path : String) :
    (path = "" ∧ join path name = name) ∨
      ∃ before, (path = before ++ "/" ∨ path = before ∧ path ≠ "") ∧
        join path name = before ++ "/" ++ name := by
  rw [join, h.not_isAbsolute, if_neg Bool.false_ne_true]
  split
  · next hend =>
    rw [Bool.or_eq_true, decide_eq_true_eq, decide_eq_true_eq] at hend
    rcases hend with rfl | hend
    · exact .inl ⟨rfl, String.empty_append⟩
    · obtain ⟨before, hbefore⟩ := List.getLast?_eq_some_iff.mp hend
      have hpath : path = String.ofList before ++ "/" := by
        apply String.toList_inj.mp
        rw [hbefore, String.toList_append, String.toList_ofList]
        rfl
      exact .inr ⟨String.ofList before, .inl hpath, by rw [← hpath]⟩
  · next hend =>
    rw [Bool.or_eq_true, not_or, decide_eq_true_eq] at hend
    exact .inr ⟨path, .inr ⟨rfl, hend.1⟩, rfl⟩

theorem IsName.getLast?_join (h : IsName name) (path : String) :
    (join path name).toList.getLast? ≠ some '/' := by
  have hchars : name.toList ≠ [] := mt String.toList_eq_nil_iff.mp h.nonempty
  have hlast (before : List Char) : (before ++ name.toList).getLast? ≠ some '/' := by
    rw [List.getLast?_append_of_ne_nil _ hchars]
    exact mt List.mem_of_getLast? h.apart
  rcases h.join_cases path with ⟨-, hjoin⟩ | ⟨before, -, hjoin⟩
  · rw [hjoin]
    exact hlast []
  · rw [hjoin, String.toList_append]
    exact hlast _

theorem IsName.parts_join (h : IsName name) (path : String) :
    parts (join path name) = parts path ++ [name] := by
  have hempty : parts "" = [] := by decide
  rcases h.join_cases path with ⟨rfl, hjoin⟩ | ⟨before, hpath, hjoin⟩
  · rw [hjoin, hempty, h.parts_self]
    rfl
  · have hbefore : parts path = parts before := by
      rcases hpath with rfl | ⟨rfl, -⟩
      · have hslash := parts_append_slash before ""
        rwa [String.append_empty, hempty, List.append_nil] at hslash
      · rfl
    rw [hjoin, parts_append_slash, h.parts_self, hbefore]

theorem isAbsolute_append {a : String} (h : a ≠ "") (b : String) :
    isAbsolute (a ++ b) = isAbsolute a := by
  have hchars : a.toList ≠ [] := mt String.toList_eq_nil_iff.mp h
  rw [isAbsolute, String.toList_append, List.head?_append_of_ne_nil _ hchars]
  rfl

theorem IsName.isAbsolute_join (h : IsName name) (path : String) :
    isAbsolute (join path name) = isAbsolute path := by
  rcases h.join_cases path with ⟨rfl, hjoin⟩ | ⟨before, rfl | ⟨rfl, hne⟩, hjoin⟩
  · rw [hjoin, h.not_isAbsolute]
    rfl
  · have hne : before ++ "/" ≠ "" := by
      intro hempty
      exact absurd (congrArg String.toList hempty) (by simp)
    rw [hjoin, isAbsolute_append hne]
  · rw [hjoin, String.append_assoc, isAbsolute_append hne]

theorem IsName.ofPath_join (h : IsName name) (path : String) :
    Place.ofPath (join path name) = Place.ofPath path ++ [name] := by
  have hstep (p : Place) : p.step name = p ++ [name] := by
    rw [Place.step, if_neg h.notHere, if_neg h.notAbove]
  rw [Place.ofPath, h.parts_join, Place.start, h.isAbsolute_join, List.foldl_append,
    List.foldl_cons, List.foldl_nil, hstep]
  rfl

end EndpointDocs.Path
