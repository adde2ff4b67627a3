import EndpointDocs.DocComment
import EndpointDocs.Proofs.Chars.Words

namespace EndpointDocs

open Chars

/-- A tag as it is written: its name behind `@`, then the words of its value. -/
def DocTag.words (t : DocTag) : List (List Char) :=
  ('@' :: t.name.toList) :: Chars.words t.value.toList

namespace DocComment

variable {l : Line} {ls : List Line} {t : DocTag}

namespace Line

def words : Line → List (List Char)
  | .opening name value => ('@' :: name) :: Chars.words value
  | .running line => Chars.words line

/-- The name that a line opens a tag with. -/
def tagName? : Line → Option String
  | .opening name _ => some (String.ofList name)
  | .running _ => none

/-- Nothing but names and texts without white space around them. -/
def IsClean : Line → Prop
  | .opening name value => name ≠ [] ∧ (∀ c ∈ name, isBlank c = false) ∧ IsTrimmed value
  | .running line => IsTrimmed line

/-- A line goes on with what came before, or it is `@`, a name and white space with a value. -/
theorem read_cases (line : List Char) :
    read line = .running line ∨
      ∃ name value, read line = .opening name (trim value) ∧ line = '@' :: name ++ value ∧
        name ≠ [] ∧ (∀ c ∈ name, isBlank c = false) ∧
          ∀ c, value.head? = some c → isBlank c = true := by
  unfold read
  split
  · next rest =>
    split
    · exact .inl rfl
    · next hname =>
      refine .inr ⟨_, rest.dropWhile (! isBlank ·), rfl, ?_, hname, ?_, ?_⟩
      · rw [List.cons_append, List.takeWhile_append_dropWhile]
      · intro c hc
        simpa using List.mem_takeWhile_imp hc
      · intro c hc
        have hhead := List.head?_dropWhile_not (! isBlank ·) rest
        rw [hc] at hhead
        simpa using hhead
  · exact .inl rfl

private theorem words_read (line : List Char) : (read line).words = Chars.words line := by
  rcases read_cases line with hread | ⟨name, value, hread, rfl, -, hname, hvalue⟩
  · rw [hread, words]
  · have hfree : ∀ c ∈ '@' :: name, isBlank c = false := List.forall_mem_cons.mpr ⟨rfl, hname⟩
    rw [hread, words, words_trim, words_eq, words_eq,
      wordsBy_free_append (List.cons_ne_nil _ _) hfree hvalue]

private theorem isClean_read {line : List Char} (h : IsTrimmed line) : (read line).IsClean := by
  rcases read_cases line with hread | ⟨name, value, hread, -, hne, hname, -⟩
  · rw [hread]
    exact h
  · rw [hread]
    exact ⟨hne, hname, isTrimmed_trim value⟩

end Line

theorem gather_running (line : List Char) (ls : List Line) :
    gather (.running line :: ls) = (line :: (gather ls).1, (gather ls).2) :=
  rfl

/-- The parts of a value, over all its lines, with one space between them. -/
def joined (parts : List (List Char)) : List Char :=
  List.intercalate [' '] (parts.filter (! ·.isEmpty))

theorem gather_opening (name value : List Char) (ls : List Line) :
    gather (.opening name value :: ls) =
      ([], ⟨String.ofList name, String.ofList (joined (value :: (gather ls).1))⟩ ::
        (gather ls).2) :=
  rfl

private theorem words_joined (parts : List (List Char)) :
    Chars.words (joined parts) = parts.flatMap Chars.words := by
  have hblank : isBlank ' ' = true := rfl
  rw [words_eq, joined, wordsBy_intercalate hblank]
  induction parts with
  | nil => rfl
  | cons p parts ih =>
    rw [List.flatMap_cons, ← ih]
    cases p with
    | nil => rfl
    | cons c p => rw [words_eq]; rfl

/-- No word is lost, and none changes its place. -/
theorem words_gather (ls : List Line) :
    (gather ls).1.flatMap Chars.words ++ (gather ls).2.flatMap DocTag.words =
      ls.flatMap Line.words := by
  induction ls with
  | nil => rfl
  | cons l ls ih =>
    cases l with
    | running line => rw [gather_running, List.flatMap_cons, List.append_assoc, ih]; rfl
    | opening name value =>
      rw [gather_opening, List.flatMap_cons, List.flatMap_cons, ← ih, DocTag.words, Line.words]
      simp [words_joined]

/-- The tags are those that lines open, in their order. -/
theorem map_name_gather (ls : List Line) :
    (gather ls).2.map (·.name) = ls.filterMap Line.tagName? := by
  induction ls with
  | nil => rfl
  | cons l ls ih =>
    cases l with
    | running line => rw [gather_running, ih]; rfl
    | opening name value => rw [gather_opening, List.map_cons, ih]; rfl

private theorem isTrimmed_joined {parts : List (List Char)} (h : ∀ p ∈ parts, IsTrimmed p) :
    IsTrimmed (joined parts) := by
  apply isTrimmed_intercalate
  intro p hp
  obtain ⟨hmem, hne⟩ := List.mem_filter.mp hp
  exact ⟨by simpa using hne, h p hmem⟩

/-- A name without white space, and a value without it at the ends. -/
structure IsTag (t : DocTag) : Prop where
  named : t.name ≠ ""
  unbroken : ∀ c ∈ t.name.toList, isBlank c = false
  trimmed : Text.trim t.value = t.value

private theorem isTag_gather {ls : List Line} (h : ∀ l ∈ ls, l.IsClean) :
    (∀ p ∈ (gather ls).1, IsTrimmed p) ∧ ∀ t ∈ (gather ls).2, IsTag t := by
  induction ls with
  | nil => exact ⟨List.forall_mem_nil _, List.forall_mem_nil _⟩
  | cons l ls ih =>
    obtain ⟨hl, hls⟩ := List.forall_mem_cons.mp h
    obtain ⟨hfront, htags⟩ := ih hls
    cases l with
    | running line => exact ⟨List.forall_mem_cons.mpr ⟨hl, hfront⟩, htags⟩
    | opening name value =>
      obtain ⟨hne, hname, hvalue⟩ := hl
      have hparts : IsTrimmed (joined (value :: (gather ls).1)) :=
        isTrimmed_joined (List.forall_mem_cons.mpr ⟨hvalue, hfront⟩)
      rw [gather_opening]
      refine ⟨List.forall_mem_nil _, List.forall_mem_cons.mpr ⟨⟨?_, ?_, ?_⟩, htags⟩⟩
      · simpa using hne
      · simpa using hname
      · rw [Text.trim, String.toList_ofList, hparts.trim]

/-- What the lines of a text say, freed of their decoration. -/
def readLines (raw : String) : List Line :=
  (lines raw.toList).map (Line.read ∘ cleanLine)

private theorem text_parse (raw : String) :
    (parse raw).text = String.ofList (trim (List.intercalate ['\n'] (gather (readLines raw)).1)) :=
  rfl

private theorem isTrimmed_cleanLine (line : List Char) : IsTrimmed (cleanLine line) :=
  isTrimmed_trim _

private theorem words_readLines (raw : String) :
    (readLines raw).flatMap Line.words =
      (lines raw.toList).flatMap fun l => words (cleanLine l) := by
  simp only [readLines, List.flatMap_map, Function.comp_apply, Line.words_read]

private theorem isClean_readLines (raw : String) : ∀ l ∈ readLines raw, l.IsClean := by
  intro l hl
  obtain ⟨line, -, rfl⟩ := List.mem_map.mp hl
  exact Line.isClean_read (isTrimmed_cleanLine line)

/-- The words of the lines without decoration are those of the text, and then for each tag its name
behind `@` and the words of its value. There is a tag for each line that opens one; its name has no
white space in it, and neither the text nor a value has any around it. -/
theorem words_parse (raw : String) :
    ((lines raw.toList).flatMap fun l => words (cleanLine l)) =
        words (parse raw).text.toList ++
          ((parse raw).tags.flatMap fun t => ('@' :: t.name.toList) :: words t.value.toList) ∧
      (parse raw).tags.map (·.name) =
        ((lines raw.toList).map (Line.read ∘ cleanLine)).filterMap Line.tagName? ∧
      (∀ t ∈ (parse raw).tags, t.name ≠ "" ∧ (∀ c ∈ t.name.toList, isBlank c = false) ∧
        Text.trim t.value = t.value) ∧
      Text.trim (parse raw).text = (parse raw).text := by
  have hbreak : isBlank '\n' = true := rfl
  have htext : words (parse raw).text.toList = (gather (readLines raw)).1.flatMap words := by
    rw [text_parse, String.toList_ofList, words_trim, words_eq, wordsBy_intercalate hbreak,
      ← funext words_eq]
  refine ⟨?_, map_name_gather _, fun t ht => ?_, ?_⟩
  · rw [htext, ← words_readLines, ← words_gather]
    rfl
  · have htag : IsTag t := (isTag_gather (isClean_readLines raw)).2 t ht
    exact ⟨htag.named, htag.unbroken, htag.trimmed⟩
  · rw [text_parse, Text.trim, String.toList_ofList, trim_trim]

end DocComment

end EndpointDocs
