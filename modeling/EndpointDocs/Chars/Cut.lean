namespace EndpointDocs.Chars

/-- The text before the first `sep` and the text after it. -/
def cutAtFirst (sep : Char) : List Char → Option (List Char × List Char)
  | [] => none
  | c :: cs =>
    if c = sep then some ([], cs)
    else (cutAtFirst sep cs).map fun (before, after) => (c :: before, after)

/-- The text before the last `sep`. -/
def beforeLast (sep : Char) : List Char → Option (List Char)
  | [] => none
  | c :: cs =>
    match beforeLast sep cs with
    | some before => some (c :: before)
    | none => if c = sep then some [] else none

/-- The text after the first `sep`, which may be longer than a character. -/
def afterFirst? (sep : List Char) : List Char → Option (List Char)
  | [] => sep.isPrefixOf? []
  | c :: cs => (sep.isPrefixOf? (c :: cs)).or (afterFirst? sep cs)

/-- The text after the last `sep`, which may be longer than a character. -/
def afterLast? (sep : List Char) : List Char → Option (List Char)
  | [] => sep.isPrefixOf? []
  | c :: cs => (afterLast? sep cs).or (sep.isPrefixOf? (c :: cs))

/-- The text after the last `sep`, all of it when there is none. -/
def afterLast (sep cs : List Char) : List Char :=
  (afterLast? sep cs).getD cs

/-- The lines of a text: each ends before a line feed, with a carriage return in front of that
left out, and a final line feed opens no further line. -/
def lines (cs : List Char) : List (List Char) :=
  let pieces := cs.splitOn '\n'
  let ended := pieces.dropLast.map fun l => (['\r'].isSuffixOf? l).getD l
  match pieces.getLast? with
  | some [] | none => ended
  | some last => ended ++ [last]

/-- Replaces each character by a text. -/
def escape (f : Char → Option (List Char)) (cs : List Char) : List Char :=
  cs.flatMap fun c => (f c).getD [c]

theorem cutAtFirst_eq_some {sep : Char} {cs before after : List Char}
    (h : cutAtFirst sep cs = some (before, after)) :
    cs = before ++ sep :: after ∧ sep ∉ before := by
  induction cs generalizing before with
  | nil => simp [cutAtFirst] at h
  | cons c cs ih =>
    unfold cutAtFirst at h
    split at h
    · simp_all
    · obtain ⟨⟨b, a⟩, hcut, heq⟩ := Option.map_eq_some_iff.1 h
      simp only [Prod.mk.injEq] at heq
      obtain ⟨rfl, rfl⟩ := heq
      obtain ⟨rfl, hb⟩ := ih hcut
      exact ⟨rfl, by simp only [List.mem_cons, not_or]; exact ⟨fun e => absurd e.symm ‹_›, hb⟩⟩

theorem beforeLast_length {sep : Char} {cs before : List Char}
    (h : beforeLast sep cs = some before) : before.length < cs.length := by
  induction cs generalizing before with
  | nil => simp [beforeLast] at h
  | cons c cs ih =>
    unfold beforeLast at h
    split at h
    · next b hb => cases h; simpa using ih hb
    · split at h
      · cases h; simp
      · cases h

theorem eq_append_of_isPrefixOf? {p cs rest : List Char} (h : p.isPrefixOf? cs = some rest) :
    cs = p ++ rest := by
  induction p generalizing cs with
  | nil => exact Option.some.inj h
  | cons a p ih =>
    cases cs with
    | nil => cases h
    | cons b cs =>
      change (if a == b then p.isPrefixOf? cs else none) = some rest at h
      split at h
      · next hab => rw [ih h, beq_iff_eq.1 hab]; rfl
      · cases h

theorem eq_append_of_isSuffixOf? {p cs rest : List Char} (h : p.isSuffixOf? cs = some rest) :
    cs = rest ++ p := by
  obtain ⟨r, hr, rfl⟩ := Option.map_eq_some_iff.1 h
  have := congrArg List.reverse (eq_append_of_isPrefixOf? hr)
  simpa using this

theorem length_of_isSuffixOf? {p cs rest : List Char} (h : p.isSuffixOf? cs = some rest) :
    cs.length = rest.length + p.length := by
  rw [eq_append_of_isSuffixOf? h, List.length_append]

end EndpointDocs.Chars
