import EndpointDocs.Proofs.TypeText.Binding
import EndpointDocs.Proofs.TypeText.Expression

namespace EndpointDocs.TypeText

open Chars

/-- White space in front of the text does not count: the text is over, or a comma, an angle bracket
or `[]` comes next. -/
def closesGap : List Char → Bool
  | [] => true
  | c :: cs => !decide (IsPlain c) || (c = '[' && cs.head? = some ']')

/-- The text without the white space next to commas and angle brackets, in front of `[]` and at the
end. That at the start is left out as well if `opened`, which tells that a comma or an angle
bracket, or nothing, comes before. -/
def squeezeChars (opened : Bool) : List Char → List Char
  | [] => []
  | c :: cs =>
    if isBlank c then
      (if opened || closesGap (trimStart cs) then [] else [c]) ++ squeezeChars opened cs
    else c :: squeezeChars (!decide (IsPlain c)) cs

/-- The text without the white space next to commas and angle brackets, in front of `[]` and at both
ends. -/
def squeeze (text : String) : String :=
  String.ofList (squeezeChars true text.toList)

variable {opened : Bool} {a b x y w cs : List Char} {c e s : Char}

theorem squeezeChars_blank (hc : isBlank c = true) (opened : Bool) (cs : List Char) :
    squeezeChars opened (c :: cs) =
      (if opened || closesGap (trimStart cs) then [] else [c]) ++ squeezeChars opened cs := by
  rw [squeezeChars, if_pos hc]

theorem squeezeChars_cons (hc : isBlank c = false) (opened : Bool) (cs : List Char) :
    squeezeChars opened (c :: cs) = c :: squeezeChars (!decide (IsPlain c)) cs := by
  rw [squeezeChars, if_neg (by simp [hc])]

theorem isBlank_of_not_isPlain (hs : ¬ IsPlain s) : isBlank s = false := by
  cases hblank : isBlank s with
  | false => rfl
  | true => exact absurd (isPlain_of_isBlank hblank) hs

theorem trimStart_cons_blank (hc : isBlank c = true) (cs : List Char) :
    trimStart (c :: cs) = trimStart cs := by
  simp [trimStart, hc]

theorem trimStart_cons (hc : isBlank c = false) (cs : List Char) :
    trimStart (c :: cs) = c :: cs := by
  simp [trimStart, hc]

/-- Only white space is left out. -/
theorem mem_squeezeChars (hc : isBlank c = false) :
    c ∈ squeezeChars opened cs ↔ c ∈ cs := by
  induction cs generalizing opened with
  | nil => rfl
  | cons d cs ih =>
    cases hd : isBlank d with
    | true =>
      have hne : c ≠ d := by
        rintro rfl
        simp [hd] at hc
      rw [squeezeChars_blank hd, List.mem_append, ih]
      split <;> simp [hne]
    | false => rw [squeezeChars_cons hd, List.mem_cons, List.mem_cons, ih]

theorem squeezeChars_of_blank (h : ∀ c ∈ w, isBlank c = true) : squeezeChars opened w = [] := by
  induction w with
  | nil => rfl
  | cons c w ih =>
    obtain ⟨hc, hw⟩ := List.forall_mem_cons.mp h
    have hstart : trimStart w = [] := List.dropWhile_eq_nil_iff.mpr hw
    rw [squeezeChars_blank hc, ih hw, hstart]
    simp [closesGap]

theorem blank_of_squeezeChars_eq_nil (h : squeezeChars opened w = []) :
    ∀ c ∈ w, isBlank c = true := by
  intro c hc
  cases hblank : isBlank c with
  | true => rfl
  | false =>
    have hmem : c ∈ squeezeChars opened w := (mem_squeezeChars hblank).mpr hc
    rw [h] at hmem
    cases hmem

/-- What comes behind a gap is seen in the first text, unless that is white space. -/
theorem closesGap_append (h : closesGap (trimStart y) = true) :
    closesGap (trimStart (x ++ y)) = closesGap (trimStart x) := by
  induction x with
  | nil => rw [List.nil_append, h]; rfl
  | cons c x ih =>
    rw [List.cons_append]
    cases hc : isBlank c with
    | true => rw [trimStart_cons_blank hc, trimStart_cons_blank hc, ih]
    | false =>
      rw [trimStart_cons hc, trimStart_cons hc]
      cases x with
      | cons d x => rfl
      | nil =>
        -- A closing bracket at the start of the second text would not end the gap before it.
        have hhead : y.head? ≠ some ']' := by
          intro hhead
          obtain ⟨r, rfl⟩ := List.head?_eq_some_iff.mp hhead
          rw [trimStart_cons rfl] at h
          cases h
        simp [closesGap, hhead]

/-- Squeezing goes text by text where a gap between the two would not count. -/
theorem squeezeChars_append (h : closesGap (trimStart y) = true) (opened : Bool)
    (x : List Char) :
    squeezeChars opened (x ++ y) = squeezeChars opened x ++ squeezeChars true y := by
  induction x generalizing opened with
  | nil =>
    induction y with
    | nil => rfl
    | cons c y ih =>
      cases hc : isBlank c with
      | true =>
        rw [trimStart_cons_blank hc] at h
        have hrest := ih h
        rw [List.nil_append] at hrest ⊢
        rw [squeezeChars_blank hc, squeezeChars_blank hc, hrest, h]
        simp
      | false => rw [List.nil_append, squeezeChars_cons hc, squeezeChars_cons hc]; rfl
  | cons c x ih =>
    rw [List.cons_append]
    cases hc : isBlank c with
    | true =>
      rw [squeezeChars_blank hc, squeezeChars_blank hc, closesGap_append h, ih, List.append_assoc]
    | false => rw [squeezeChars_cons hc, squeezeChars_cons hc, ih, List.cons_append]

/-- Squeezing goes part by part around a sign. -/
theorem squeezeChars_append_sign (hs : ¬ IsPlain s) (opened : Bool) (a b : List Char) :
    squeezeChars opened (a ++ s :: b) = squeezeChars opened a ++ s :: squeezeChars true b := by
  have hblank := isBlank_of_not_isPlain hs
  have hgap : closesGap (trimStart (s :: b)) = true := by
    rw [trimStart_cons hblank]
    simp [closesGap, hs]
  rw [squeezeChars_append hgap, squeezeChars_cons hblank, decide_eq_false hs, Bool.not_false]

theorem squeezeChars_append_brackets (hw : ∀ c ∈ w, isBlank c = true) (opened : Bool)
    (a : List Char) :
    squeezeChars opened (a ++ '[' :: ']' :: w) = squeezeChars opened a ++ ['[', ']'] := by
  have hgap : closesGap (trimStart ('[' :: ']' :: w)) = true := by
    rw [trimStart_cons rfl]
    rfl
  rw [squeezeChars_append hgap, squeezeChars_cons rfl, squeezeChars_cons rfl,
    squeezeChars_of_blank hw]

theorem squeezeChars_blanks {v w : List Char} (hv : ∀ c ∈ v, isBlank c = true)
    (hw : ∀ c ∈ w, isBlank c = true) (cs : List Char) :
    squeezeChars true (v ++ cs ++ w) = squeezeChars true cs := by
  have hstart : trimStart w = [] := List.dropWhile_eq_nil_iff.mpr hw
  have hgap : closesGap (trimStart w) = true := by
    rw [hstart]
    rfl
  rw [squeezeChars_append hgap, squeezeChars_of_blank hw, List.append_nil]
  induction v with
  | nil => rfl
  | cons c v ih =>
    obtain ⟨hc, hv⟩ := List.forall_mem_cons.mp hv
    rw [List.cons_append, squeezeChars_blank hc, ih hv]
    simp

theorem squeezeChars_trim (cs : List Char) :
    squeezeChars true (trim cs) = squeezeChars true cs := by
  obtain ⟨v, w, hv, hw, hcs, _⟩ := exists_trim cs
  conv_rhs => rw [hcs, squeezeChars_blanks hv hw]

/-- Where more of a name comes behind a gap, the gap counts. -/
theorem closesGap_of_plain (h : ∀ c ∈ cs, IsPlain c ∧ c ≠ '[') (hne : cs ≠ [])
    (hlast : ∀ c, cs.getLast? = some c → isBlank c = false) :
    closesGap (trimStart cs) = false := by
  cases hstart : trimStart cs with
  | nil =>
    have hall := List.dropWhile_eq_nil_iff.mp hstart _ (List.getLast_mem hne)
    rw [hlast _ (List.getLast?_eq_some_getLast hne)] at hall
    cases hall
  | cons z zs =>
    have hz := h z ((List.dropWhile_suffix _).subset (hstart ▸ List.mem_cons_self))
    simp [closesGap, hz.1, hz.2]

/-- White space within a name is kept. -/
theorem squeezeChars_inner (h : ∀ c ∈ cs, IsPlain c ∧ c ≠ '[')
    (hlast : ∀ c, cs.getLast? = some c → isBlank c = false) : squeezeChars false cs = cs := by
  induction cs with
  | nil => rfl
  | cons c cs ih =>
    obtain ⟨⟨hplain, _⟩, hrest⟩ := List.forall_mem_cons.mp h
    cases cs with
    | nil =>
      rw [squeezeChars_cons (hlast c rfl)]
      rfl
    | cons d cs =>
      have hkept := ih hrest hlast
      cases hc : isBlank c with
      | false => rw [squeezeChars_cons hc, decide_eq_true hplain, Bool.not_true, hkept]
      | true =>
        rw [squeezeChars_blank hc, closesGap_of_plain hrest (List.cons_ne_nil d cs) hlast, hkept]
        rfl

/-- A name with white space around it is squeezed to what trimming leaves of it. -/
theorem squeezeChars_of_plain (h : ∀ c ∈ cs, IsPlain c ∧ c ≠ '[') :
    squeezeChars true cs = trim cs := by
  rw [← squeezeChars_trim]
  have htrimmed : IsTrimmed (trim cs) := isTrimmed_trim cs
  have hmem : ∀ c ∈ trim cs, IsPlain c ∧ c ≠ '[' := fun c hc => h c (mem_of_mem_trim hc)
  generalize trim cs = r at htrimmed hmem
  cases r with
  | nil => rfl
  | cons c r =>
    have hc := htrimmed.1 c rfl
    obtain ⟨⟨hplain, _⟩, hrest⟩ := List.forall_mem_cons.mp hmem
    rw [squeezeChars_cons hc, decide_eq_true hplain, Bool.not_true, squeezeChars_inner hrest fun d hd => ?_]
    refine htrimmed.2 d ?_
    rw [List.getLast?_cons, hd]
    rfl

/-- A character that is no white space is found in the text itself, between what is squeezed to
the texts around it. -/
theorem exists_of_squeezeChars (he : isBlank e = false) (h : squeezeChars opened cs = x ++ e :: y) :
    ∃ a b, cs = a ++ e :: b ∧ squeezeChars (!decide (IsPlain e)) b = y ∧
      (closesGap (e :: b) = true → squeezeChars opened a = x) := by
  induction cs generalizing opened x with
  | nil => cases x <;> cases h
  | cons c cs ih =>
    have hgap {a b : List Char} (hb : closesGap (e :: b) = true) :
        closesGap (trimStart (a ++ e :: b)) = closesGap (trimStart a) := by
      refine closesGap_append ?_
      rwa [trimStart_cons he]
    cases hc : isBlank c with
    | false =>
      rw [squeezeChars_cons hc] at h
      cases x with
      | nil =>
        obtain ⟨rfl, hrest⟩ := List.cons.inj h
        exact ⟨[], cs, rfl, hrest, fun _ => rfl⟩
      | cons d x =>
        obtain ⟨rfl, hrest⟩ := List.cons.inj h
        obtain ⟨a, b, rfl, hb, ha⟩ := ih hrest
        refine ⟨c :: a, b, rfl, hb, fun hclose => ?_⟩
        rw [squeezeChars_cons hc, ha hclose]
    | true =>
      rw [squeezeChars_blank hc] at h
      split at h
      · next hleft =>
        obtain ⟨a, b, rfl, hb, ha⟩ := ih h
        refine ⟨c :: a, b, rfl, hb, fun hclose => ?_⟩
        rw [hgap hclose] at hleft
        rw [squeezeChars_blank hc, if_pos hleft, ha hclose, List.nil_append]
      · next hkept =>
        cases x with
        | nil =>
          obtain ⟨rfl, _⟩ := List.cons.inj h
          rw [he] at hc
          cases hc
        | cons d x =>
          obtain ⟨rfl, hrest⟩ := List.cons.inj h
          obtain ⟨a, b, rfl, hb, ha⟩ := ih hrest
          refine ⟨c :: a, b, rfl, hb, fun hclose => ?_⟩
          rw [hgap hclose] at hkept
          rw [squeezeChars_blank hc, if_neg hkept, ha hclose, List.singleton_append]

/-- Commas and angle brackets cut a text and what it is squeezed to alike. -/
theorem exists_of_squeezeChars_sign (hs : ¬ IsPlain s)
    (h : squeezeChars opened cs = x ++ s :: y) :
    ∃ a b, cs = a ++ s :: b ∧ squeezeChars opened a = x ∧ squeezeChars true b = y := by
  obtain ⟨a, b, rfl, hb, ha⟩ := exists_of_squeezeChars (isBlank_of_not_isPlain hs) h
  have hclose : closesGap (s :: b) = true := by simp [closesGap, hs]
  rw [decide_eq_false hs, Bool.not_false] at hb
  exact ⟨a, b, rfl, ha hclose, hb⟩

/-- White space in front of a bracket that does not follow an opening one is kept. -/
theorem exists_of_squeezeChars_close (h : squeezeChars false cs = [']']) :
    ∃ w, cs = ']' :: w ∧ ∀ c ∈ w, isBlank c = true := by
  induction cs with
  | nil => cases h
  | cons c cs ih =>
    cases hc : isBlank c with
    | false =>
      rw [squeezeChars_cons hc] at h
      obtain ⟨rfl, hrest⟩ := List.cons.inj h
      exact ⟨cs, rfl, blank_of_squeezeChars_eq_nil hrest⟩
    | true =>
      rw [squeezeChars_blank hc, Bool.false_or] at h
      split at h
      · next hgap =>
        obtain ⟨w, rfl, _⟩ := ih h
        rw [trimStart_cons rfl] at hgap
        cases hgap
      · obtain ⟨rfl, _⟩ := List.cons.inj h
        cases hc

/-- The brackets of an array stand together at the end of the text. -/
theorem exists_of_squeezeChars_brackets (h : squeezeChars opened cs = x ++ ['[', ']']) :
    ∃ a w, cs = a ++ '[' :: ']' :: w ∧ (∀ c ∈ w, isBlank c = true) ∧ squeezeChars opened a = x := by
  obtain ⟨a, b, rfl, hb, ha⟩ := exists_of_squeezeChars rfl h
  obtain ⟨w, rfl, hw⟩ := exists_of_squeezeChars_close hb
  exact ⟨a, w, rfl, hw, ha rfl⟩

/-- A list of arguments is cut at the same commas before and after squeezing. -/
theorem map_squeezeChars_pieces (depth : Nat) (cs : List Char) :
    (pieces depth cs).map (squeezeChars true) = pieces depth (squeezeChars true cs) := by
  have hclosed {a : List Char} (ha : ∀ c ∈ a, IsPlain c) : Closed 0 a := closed_of_plain ha
  have hone (depth : Nat) {a : List Char} (ha : ∀ c ∈ a, IsPlain c) : pieces depth a = [a] := by
    have hpieces := hclosed ha depth (Nat.zero_le _) []
    rwa [List.append_nil, pieces, List.modifyHead_cons, List.append_nil] at hpieces
  have hsqueezed {a : List Char} (ha : ∀ c ∈ a, IsPlain c) :
      ∀ c ∈ squeezeChars true a, IsPlain c := by
    intro c hc
    cases hblank : isBlank c with
    | true => exact isPlain_of_isBlank hblank
    | false => exact ha c ((mem_squeezeChars hblank).mp hc)
  have hall {a : List Char} (ha : ∀ c ∈ a, decide (IsPlain c) = true) : ∀ c ∈ a, IsPlain c :=
    fun c hc => of_decide_eq_true (ha c hc)
  induction cs using cut_induction (p := fun c => decide (IsPlain c)) generalizing depth with
  | all a ha => rw [hone depth (hall ha), hone depth (hsqueezed (hall ha)), List.map_singleton]
  | cut a s b ha hs ih =>
    have hs : ¬ IsPlain s := of_decide_eq_false hs
    rw [squeezeChars_append_sign hs, hclosed (hall ha) depth (Nat.zero_le _),
      hclosed (hsqueezed (hall ha)) depth (Nat.zero_le _), pieces_cons, pieces_cons]
    split
    · simp [ih]
    · rw [← ih]
      cases h : pieces (depthAfter depth s) b with
      | nil => exact absurd h (pieces_ne_nil _ _)
      | cons q qs => simp [squeezeChars_append_sign hs]

end EndpointDocs.TypeText
