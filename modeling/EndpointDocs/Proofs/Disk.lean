import Mathlib.Data.List.Nodup
import Mathlib.Data.String.Basic
import EndpointDocs.Disk

namespace EndpointDocs.Disk

variable {d d' : Disk} {added : List (Place × String)}

theorem isBefore_iff {a b : Place × String} : isBefore a b = true ↔ a.1 ≤ b.1 := by
  have hnames (n m : String) : List.lex n.toList m.toList (· < ·) = true ↔ n < m := by
    rw [List.lex_eq_true_iff_lex, String.lt_iff_toList_lt]
    simp only [decide_eq_true_eq]
    exact Iff.rfl
  have hplaces : List.lex b.1 a.1 (fun n m => List.lex n.toList m.toList (· < ·)) = true ↔
      b.1 < a.1 := by
    rw [List.lex_eq_true_iff_lex]
    simp only [hnames]
    exact Iff.rfl
  rw [isBefore, Bool.not_eq_true', ← Bool.not_eq_true, hplaces, not_lt]

theorem listing_perm (d : Disk) : d.listing.Perm d.files :=
  List.mergeSort_perm _ _

theorem pairwise_listing (d : Disk) : d.listing.Pairwise fun a b => a.1 ≤ b.1 := by
  have hsorted : d.listing.Pairwise fun a b => isBefore a b = true := by
    apply List.pairwise_mergeSort
    · intro a b c hab hbc
      rw [isBefore_iff] at hab hbc ⊢
      exact hab.trans hbc
    · intro a b
      rw [Bool.or_eq_true, isBefore_iff, isBefore_iff]
      exact le_total _ _
  exact hsorted.imp isBefore_iff.mp

/-- The second disk is the first one with the files added, each at a place where nothing lay, and
perhaps with further directories. -/
structure IsGrown (d : Disk) (added : List (Place × String)) (d' : Disk) : Prop where
  files : d'.files.Perm (d.files ++ added)
  places : (d'.files.map Prod.fst).Nodup
  directories : d.directories ⊆ d'.directories

theorem put_of_not_mem {p : Place} {text : String} {files : List (Place × String)}
    (h : p ∉ files.map Prod.fst) : put p text files = files ++ [(p, text)] := by
  induction files with
  | nil => rfl
  | cons f files ih =>
    rw [List.map_cons, List.mem_cons, not_or] at h
    rw [put, if_neg (Ne.symm h.1), ih h.2, List.cons_append]

theorem foldl_put {files : List (Place × String)}
    (h : ((files ++ added).map Prod.fst).Nodup) :
    added.foldl (fun files f => put f.1 f.2 files) files = files ++ added := by
  induction added generalizing files with
  | nil => exact (List.append_nil files).symm
  | cons f added ih =>
    have hfree : f.1 ∉ files.map Prod.fst := by
      rw [List.map_append, List.map_cons] at h
      exact fun hf => List.disjoint_of_nodup_append h hf List.mem_cons_self
    have happend : files ++ f :: added = files ++ [f] ++ added := by
      rw [List.append_assoc, List.singleton_append]
    rw [happend] at h ⊢
    rw [List.foldl_cons, put_of_not_mem hfree]
    exact ih h

/-- A disk grows when files are put one after the other at places where nothing lies. -/
theorem isGrown_put {directories : List Place}
    (hplaces : ((d.files ++ added).map Prod.fst).Nodup)
    (hdirectories : d.directories ⊆ directories) :
    d.IsGrown added
      { files := added.foldl (fun files f => put f.1 f.2 files) d.files, directories } := by
  rw [foldl_put hplaces]
  exact { files := .refl _, places := hplaces, directories := hdirectories }

/-- Files that a search passes over may be added anywhere. -/
theorem IsGrown.filter_listing (h : d.IsGrown added d') {keep : Place × String → Bool}
    (hadded : ∀ f ∈ added, keep f = false) : d'.listing.filter keep = d.listing.filter keep := by
  have hnone : added.filter keep = [] := by
    rw [List.filter_eq_nil_iff]
    exact fun f hf => Bool.eq_false_iff.mp (hadded f hf)
  have hperm : (d'.listing.filter keep).Perm (d.listing.filter keep) := by
    have hfiles := (d'.listing_perm.trans h.files).filter keep
    rw [List.filter_append, hnone, List.append_nil] at hfiles
    exact hfiles.trans (d.listing_perm.filter keep).symm
  -- No two files lie at one place, so there is one order only.
  refine List.Perm.eq_of_pairwise ?_ (d'.pairwise_listing.filter _)
    (d.pairwise_listing.filter _) hperm
  intro a b ha hb hab hba
  have hmem {f : Place × String} (hf : f ∈ d'.listing.filter keep) : f ∈ d'.files :=
    d'.listing_perm.mem_iff.mp (List.mem_of_mem_filter hf)
  exact List.inj_on_of_nodup_map h.places (hmem ha) (hmem (hperm.mem_iff.mpr hb))
    (le_antisymm hab hba)

theorem IsGrown.listing_sublist (h : d.IsGrown added d') : d.listing.Sublist d'.listing := by
  have hnodup : (d.files ++ added).Nodup := h.files.nodup_iff.mp h.places.of_map
  have hadded : ∀ f ∈ added, decide (f ∈ d.files) = false := by
    intro f hf
    rw [decide_eq_false_iff_not]
    exact fun hfile => List.disjoint_of_nodup_append hnodup hfile hf
  have hall : d.listing.filter (· ∈ d.files) = d.listing := by
    rw [List.filter_eq_self]
    exact fun f hf => decide_eq_true (d.listing_perm.mem_iff.mp hf)
  rw [← hall, ← h.filter_listing hadded]
  exact List.filter_sublist

theorem IsGrown.isDirectoryAt (h : d.IsGrown added d') {p : Place}
    (hp : d.isDirectoryAt p = true) : d'.isDirectoryAt p = true := by
  have hfiles : d.files ⊆ d'.files := fun f hf =>
    h.files.mem_iff.mpr (List.mem_append_left _ hf)
  simp only [Disk.isDirectoryAt, Bool.or_eq_true, List.any_eq_true] at hp ⊢
  rcases hp with (hp | ⟨q, hq, hp⟩) | ⟨f, hf, hp⟩
  · exact .inl (.inl hp)
  · exact .inl (.inr ⟨q, h.directories hq, hp⟩)
  · exact .inr ⟨f, hfiles hf, hp⟩

theorem foldlM_eq_some {α β : Type} {f g : α → β → Option α} {a c : α} {l : List β}
    (hstep : ∀ a b c, f a b = some c → g a b = some c) (h : l.foldlM f a = some c) :
    l.foldlM g a = some c := by
  induction l generalizing a with
  | nil => exact h
  | cons b l ih =>
    rw [List.foldlM_cons] at h ⊢
    obtain ⟨next, hnext, hrest⟩ := Option.bind_eq_some_iff.mp h
    exact Option.bind_eq_some_iff.mpr ⟨next, hstep a b next hnext, ih hrest⟩

/-- A path leads where it led, since what was a directory is one still. -/
theorem IsGrown.place?_eq (h : d.IsGrown added d') {path : String} {place : Place}
    (hplace : d.place? path = some place) : d'.place? path = some place := by
  unfold place? at hplace ⊢
  simp only at hplace ⊢
  split at hplace
  · cases hplace
  · next hpath =>
    obtain ⟨hfold, hinside⟩ := Option.filter_eq_some_iff.mp hplace
    rw [if_neg hpath, Option.filter_eq_some_iff]
    have hmissing {p : Place} (hp : (!d'.isDirectoryAt p) = true) :
        (!d.isDirectoryAt p) = true := by
      rw [Bool.not_eq_true', ← Bool.not_eq_true] at hp ⊢
      exact fun hdirectory => hp (h.isDirectoryAt hdirectory)
    constructor
    · refine foldlM_eq_some ?_ hfold
      intro p part q hq
      split at hq
      · cases hq
      · next hpassed =>
        rw [Bool.and_eq_true] at hpassed
        rw [if_neg, hq]
        rw [Bool.and_eq_true]
        exact fun hstopped => hpassed ⟨hstopped.1, hmissing hstopped.2⟩
    · rw [Bool.or_eq_true] at hinside ⊢
      exact hinside.imp_right h.isDirectoryAt

end EndpointDocs.Disk
