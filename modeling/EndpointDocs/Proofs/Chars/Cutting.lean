import Mathlib.Data.List.TakeWhile
import EndpointDocs.Chars.Blank
import EndpointDocs.Chars.Cut

namespace EndpointDocs.Chars

variable {sep : Char} {a cs m r v w : List Char}

/-- A text all of whose characters are in `p`, or such a text in front of a character that is not
and a further text. -/
theorem cut_induction {p : Char → Bool} {P : List Char → Prop}
    (all : ∀ n, (∀ c ∈ n, p c = true) → P n)
    (cut : ∀ n c cs, (∀ x ∈ n, p x = true) → p c = false → P cs → P (n ++ c :: cs))
    (cs : List Char) : P cs := by
  induction hlength : cs.length using Nat.strongRecOn generalizing cs with
  | _ length ih =>
    have hfirst : ∀ c ∈ cs.takeWhile p, p c = true := fun c hc => List.mem_takeWhile_imp hc
    have hsplit := List.takeWhile_append_dropWhile (p := p) (l := cs)
    cases hrest : cs.dropWhile p with
    | nil =>
      rw [hrest, List.append_nil] at hsplit
      exact hsplit ▸ all _ hfirst
    | cons c rest =>
      have hc : p c = false := by
        have h := List.head_dropWhile_not p (l := cs) (by simp [hrest])
        simpa [hrest] using h
      rw [hrest] at hsplit
      rw [← hsplit]
      apply cut _ c rest hfirst hc
      refine ih rest.length ?_ rest rfl
      have := congrArg List.length hsplit
      simp only [List.length_append, List.length_cons] at this
      omega

theorem cutAtFirst_append (h : sep ∉ a) : cutAtFirst sep (a ++ sep :: cs) = some (a, cs) := by
  induction a with
  | nil => simp [cutAtFirst]
  | cons c a ih =>
    obtain ⟨hc, ha⟩ := not_or.mp (mt List.mem_cons.mpr h)
    simp [cutAtFirst, Ne.symm hc, ih ha]

theorem cutAtFirst_eq_none_iff : cutAtFirst sep cs = none ↔ sep ∉ cs := by
  induction cs with
  | nil => simp [cutAtFirst]
  | cons c cs ih =>
    rw [cutAtFirst, List.mem_cons, not_or, ← ih]
    split
    · next hc => simp [hc]
    · next hc => simp [Ne.symm hc]

theorem beforeLast_eq_none_iff : beforeLast sep cs = none ↔ sep ∉ cs := by
  induction cs with
  | nil => simp [beforeLast]
  | cons c cs ih =>
    rw [beforeLast, List.mem_cons, not_or, ← ih]
    cases beforeLast sep cs with
    | none => simp [eq_comm]
    | some b => simp

theorem beforeLast_append (h : sep ∉ cs) : beforeLast sep (a ++ sep :: cs) = some a := by
  induction a with
  | nil => simp [beforeLast, beforeLast_eq_none_iff.mpr h]
  | cons c a ih => simp [beforeLast, ih]

theorem beforeLast_eq_some (h : beforeLast sep cs = some a) :
    ∃ rest, cs = a ++ sep :: rest ∧ sep ∉ rest := by
  induction cs generalizing a with
  | nil => simp [beforeLast] at h
  | cons c cs ih =>
    rw [beforeLast] at h
    split at h
    · next before hcs =>
      cases h
      obtain ⟨rest, rfl, hrest⟩ := ih hcs
      exact ⟨rest, rfl, hrest⟩
    · next hcs =>
      split at h
      · next hc =>
        cases h
        exact ⟨cs, by simp [hc], beforeLast_eq_none_iff.mp hcs⟩
      · cases h

theorem isPrefixOf?_append (p cs : List Char) : p.isPrefixOf? (p ++ cs) = some cs := by
  induction p with
  | nil => rfl
  | cons c p ih =>
    change (if c == c then p.isPrefixOf? (p ++ cs) else none) = some cs
    rw [if_pos (beq_self_eq_true c), ih]

theorem isSuffixOf?_eq_some_iff {p : List Char} :
    p.isSuffixOf? cs = some r ↔ cs = r ++ p := by
  constructor
  · exact eq_append_of_isSuffixOf?
  · rintro rfl
    change ((p.reverse).isPrefixOf? (r ++ p).reverse).map List.reverse = some r
    simp [isPrefixOf?_append]

theorem isPrefixOf?_eq_none {p : List Char} (h : ¬ p <+: cs) : p.isPrefixOf? cs = none := by
  cases hp : p.isPrefixOf? cs with
  | none => rfl
  | some rest => exact absurd ⟨rest, (eq_append_of_isPrefixOf? hp).symm⟩ h

theorem isSuffixOf?_eq_none {p : List Char} (h : ¬ p <:+ cs) : p.isSuffixOf? cs = none := by
  cases hp : p.isSuffixOf? cs with
  | none => rfl
  | some rest => exact absurd ⟨rest, (eq_append_of_isSuffixOf? hp).symm⟩ h

theorem trimStart_append (h : ∀ c ∈ w, isBlank c = true) :
    trimStart (w ++ cs) = trimStart cs :=
  List.dropWhile_append_of_pos h

theorem trimEnd_append (h : ∀ c ∈ w, isBlank c = true) : trimEnd (cs ++ w) = trimEnd cs := by
  have hr : ∀ c ∈ w.reverse, isBlank c = true := fun c hc => h c (List.mem_reverse.mp hc)
  rw [trimEnd, List.reverse_append, List.dropWhile_append_of_pos hr, trimEnd]

theorem trimStart_append_cons {c : Char} (hc : isBlank c = false) (a cs : List Char) :
    trimStart (a ++ c :: cs) = trimStart a ++ c :: cs := by
  induction a with
  | nil => simp [trimStart, hc]
  | cons x a ih =>
    simp only [trimStart, List.cons_append, List.dropWhile_cons] at ih ⊢
    split
    · exact ih
    · rfl

theorem trimEnd_append_cons {c : Char} (hc : isBlank c = false) (cs r : List Char) :
    trimEnd (cs ++ c :: r) = cs ++ c :: trimEnd r := by
  have hreverse : (cs ++ c :: r).reverse = r.reverse ++ c :: cs.reverse := by simp
  have hstart := trimStart_append_cons hc r.reverse cs.reverse
  rw [trimStart, trimStart] at hstart
  rw [trimEnd, hreverse, hstart, trimEnd]
  simp

/-- Neither the first nor the last character is white space. -/
def IsTrimmed (m : List Char) : Prop :=
  (∀ c, m.head? = some c → isBlank c = false) ∧ ∀ c, m.getLast? = some c → isBlank c = false

theorem trimStart_of_head (h : ∀ c, m.head? = some c → isBlank c = false) : trimStart m = m := by
  cases m with
  | nil => rfl
  | cons c m => simp [trimStart, h c rfl]

theorem trimEnd_of_last (h : ∀ c, m.getLast? = some c → isBlank c = false) : trimEnd m = m := by
  have hrev : trimStart m.reverse = m.reverse := trimStart_of_head (by simpa using h)
  rw [trimEnd]
  rw [trimStart] at hrev
  rw [hrev, List.reverse_reverse]

theorem blank_of_head_dropWhile {c : Char} (h : (cs.dropWhile isBlank).head? = some c) :
    isBlank c = false := by
  have hne : cs.dropWhile isBlank ≠ [] := by
    intro hnil
    simp [hnil] at h
  have hhead := List.head_dropWhile_not isBlank (l := cs) hne
  rw [List.head?_eq_some_head hne] at h
  cases h
  simpa using hhead

theorem IsTrimmed.trim (h : IsTrimmed m) : trim m = m := by
  rw [Chars.trim, trimStart_of_head h.1, trimEnd_of_last h.2]

/-- Whatever stands between two texts, their ends are those of the whole. -/
theorem IsTrimmed.append {n : List Char} (hm : IsTrimmed m) (hn : IsTrimmed n) (hmne : m ≠ [])
    (hnne : n ≠ []) (w : List Char) : IsTrimmed (m ++ w ++ n) := by
  obtain ⟨x, m, rfl⟩ := List.exists_cons_of_ne_nil hmne
  constructor
  · intro c hc
    exact hm.1 c hc
  · intro c hc
    rw [List.getLast?_append, Option.or_of_isSome (List.getLast?_isSome.mpr hnne)] at hc
    exact hn.2 c hc

theorem isTrimmed_intercalate {ts : List (List Char)} (h : ∀ t ∈ ts, t ≠ [] ∧ IsTrimmed t)
    (w : List Char) : IsTrimmed (List.intercalate w ts) := by
  suffices hts : IsTrimmed (List.intercalate w ts) ∧ (ts ≠ [] → List.intercalate w ts ≠ []) from
    hts.1
  induction ts with
  | nil => exact ⟨⟨by simp, by simp⟩, fun hne => absurd rfl hne⟩
  | cons t ts ih =>
    obtain ⟨⟨hne, ht⟩, hts⟩ := List.forall_mem_cons.mp h
    cases ts with
    | nil => exact ⟨by simpa using ht, fun _ => by simpa using hne⟩
    | cons u us =>
      obtain ⟨hrest, hrestne⟩ := ih hts
      rw [List.intercalate_cons_cons]
      exact ⟨ht.append hrest hne (hrestne (List.cons_ne_nil u us)) w, fun _ => by simp [hne]⟩

/-- White space around a text is what trimming takes away. -/
theorem trim_append (hv : ∀ c ∈ v, isBlank c = true) (hw : ∀ c ∈ w, isBlank c = true)
    (hm : IsTrimmed m) : trim (v ++ m ++ w) = m := by
  rw [trim, List.append_assoc, trimStart_append hv]
  cases m with
  | nil =>
    have hall : trimStart w = [] := List.dropWhile_eq_nil_iff.mpr hw
    rw [List.nil_append, hall]
    rfl
  | cons c m =>
    have hstart : trimStart (c :: m ++ w) = c :: m ++ w :=
      trimStart_of_head fun x hx => hm.1 x (by simpa using hx)
    rw [hstart, trimEnd_append hw, trimEnd_of_last hm.2]

theorem exists_trimEnd (cs : List Char) : ∃ w, (∀ c ∈ w, isBlank c = true) ∧
    cs = trimEnd cs ++ w ∧ ∀ c, (trimEnd cs).getLast? = some c → isBlank c = false := by
  have hsplit := congrArg List.reverse
    (List.takeWhile_append_dropWhile (p := isBlank) (l := cs.reverse))
  rw [List.reverse_append, List.reverse_reverse] at hsplit
  refine ⟨(cs.reverse.takeWhile isBlank).reverse, ?_, hsplit.symm, ?_⟩
  · intro c hc
    exact List.mem_takeWhile_imp (List.mem_reverse.mp hc)
  · intro c hc
    rw [trimEnd, List.getLast?_reverse] at hc
    exact blank_of_head_dropWhile hc

/-- A text is what trimming leaves of it, with white space around. -/
theorem exists_trim (cs : List Char) : ∃ v w, (∀ c ∈ v, isBlank c = true) ∧
    (∀ c ∈ w, isBlank c = true) ∧ cs = v ++ trim cs ++ w ∧ IsTrimmed (trim cs) := by
  obtain ⟨w, hw, hend, hlast⟩ := exists_trimEnd (trimStart cs)
  refine ⟨cs.takeWhile isBlank, w, fun c hc => List.mem_takeWhile_imp hc, hw, ?_, ?_, hlast⟩
  · rw [List.append_assoc, trim, ← hend]
    exact List.takeWhile_append_dropWhile.symm
  · intro c hc
    have hhead : (trimStart cs).head? = some c := by
      rw [trim] at hc
      rw [hend, List.head?_append, hc]
      rfl
    exact blank_of_head_dropWhile hhead

theorem mem_of_mem_trim {c : Char} (h : c ∈ trim cs) : c ∈ cs := by
  obtain ⟨v, w, -, -, hcs, -⟩ := exists_trim cs
  rw [hcs]
  exact List.mem_append_left _ (List.mem_append_right _ h)

theorem isTrimmed_trim (cs : List Char) : IsTrimmed (trim cs) := by
  obtain ⟨v, w, hv, hw, hcs, htrimmed⟩ := exists_trim cs
  exact htrimmed

theorem trim_trim (cs : List Char) : trim (trim cs) = trim cs :=
  (isTrimmed_trim cs).trim

theorem trim_append_left (hv : ∀ c ∈ v, isBlank c = true) (cs : List Char) :
    trim (v ++ cs) = trim cs := by
  rw [trim, trimStart_append hv, trim]

theorem trim_append_right (hw : ∀ c ∈ w, isBlank c = true) (cs : List Char) :
    trim (cs ++ w) = trim cs := by
  obtain ⟨v, u, hv, hu, hcs, htrimmed⟩ := exists_trim cs
  have huw : ∀ c ∈ u ++ w, isBlank c = true := by
    intro c hc
    exact (List.mem_append.mp hc).elim (hu c) (hw c)
  calc trim (cs ++ w) = trim (v ++ trim cs ++ (u ++ w)) := by rw [← List.append_assoc, ← hcs]
    _ = trim cs := trim_append hv huw htrimmed

theorem trim_trimStart (cs : List Char) : trim (trimStart cs) = trim cs := by
  have hstart : trimStart (trimStart cs) = trimStart cs :=
    trimStart_of_head fun c hc => blank_of_head_dropWhile hc
  rw [trim, hstart, trim]

theorem trim_trimEnd (cs : List Char) : trim (trimEnd cs) = trim cs := by
  obtain ⟨w, hw, hcs, -⟩ := exists_trimEnd cs
  have hend : trim (trimEnd cs ++ w) = trim (trimEnd cs) := trim_append_right hw _
  rw [← hend, ← hcs]

theorem trim_ne_nil {c : Char} (hc : c ∈ cs) (hblank : isBlank c = false) : trim cs ≠ [] := by
  intro hnil
  obtain ⟨v, w, hv, hw, hcs, _⟩ := exists_trim cs
  rw [hnil, List.append_nil] at hcs
  rw [hcs, List.mem_append] at hc
  have hall : isBlank c = true := hc.elim (hv c) (hw c)
  exact absurd hall (by simp [hblank])

section

variable {sep cs v : List Char} {c : Char}

theorem suffix_of_afterLast? (h : afterLast? sep cs = some v) : sep ++ v <:+ cs := by
  induction cs with
  | nil =>
    rw [afterLast?] at h
    exact ⟨[], (eq_append_of_isPrefixOf? h).symm⟩
  | cons c cs ih =>
    rw [afterLast?] at h
    rcases Option.or_eq_some_iff.mp h with h | ⟨_, h⟩
    · exact (ih h).trans (List.suffix_cons c cs)
    · exact ⟨[], (eq_append_of_isPrefixOf? h).symm⟩

theorem isPrefixOf?_append_cons (hc : c ∉ sep) (l cs : List Char) :
    sep.isPrefixOf? (l ++ c :: cs) = (sep.isPrefixOf? l).map (· ++ c :: cs) := by
  induction sep generalizing l with
  | nil => rfl
  | cons a sep ih =>
    obtain ⟨ha, hsep⟩ := not_or.mp (mt List.mem_cons.mpr hc)
    cases l with
    | nil =>
      change (if a == c then sep.isPrefixOf? cs else none) = none
      simp [Ne.symm ha]
    | cons x l =>
      change (if a == x then sep.isPrefixOf? (l ++ c :: cs) else none) =
        (if a == x then sep.isPrefixOf? l else none).map (· ++ c :: cs)
      split
      · exact ih hsep l
      · rfl

/-- A separator is found in one of the two texts around a character that does not occur in it. -/
theorem afterLast?_append_cons (hsep : sep ≠ []) (hc : c ∉ sep) (n cs : List Char) :
    afterLast? sep (n ++ c :: cs) =
      (afterLast? sep cs).or ((afterLast? sep n).map (· ++ c :: cs)) := by
  induction n with
  | nil =>
    have hnil : sep.isPrefixOf? [] = none := by
      cases sep with
      | nil => exact absurd rfl hsep
      | cons a sep => rfl
    have hprefix := isPrefixOf?_append_cons hc [] cs
    rw [List.nil_append, hnil] at hprefix
    rw [List.nil_append, afterLast?.eq_2, hprefix, afterLast?.eq_1, hnil]
  | cons x n ih =>
    have hprefix := isPrefixOf?_append_cons hc (x :: n) cs
    rw [List.cons_append] at hprefix
    rw [List.cons_append, afterLast?, afterLast?, ih, hprefix]
    cases afterLast? sep cs <;> cases afterLast? sep n <;> rfl

end

end EndpointDocs.Chars
