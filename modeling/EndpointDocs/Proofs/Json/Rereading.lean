import EndpointDocs.Json.Printer
import EndpointDocs.Json.Reader
import EndpointDocs.Proofs.Record.Reading

namespace EndpointDocs.Json

open Node

variable {seen rest cs : List Char} {c : Char} {level fuel : Nat}

/-- The digits by which a control character is written. -/
theorem fourDigits?_control : ∀ n < 32,
    fourDigits? '0' '0' (hexDigit (n / 16)) (hexDigit n) = some n := by
  decide

private theorem readText_code (h : c.toNat < 32) :
    readText (some seen)
        ('\\' :: 'u' :: '0' :: '0' :: hexDigit (c.toNat / 16) :: hexDigit c.toNat :: cs) =
      readText (some (c :: seen)) cs := by
  have hlow : ¬0xd800 ≤ c.toNat ∧ ¬0xdc00 ≤ c.toNat := by omega
  rw [readText, fourDigits?_control _ h]
  simp [hlow]

private theorem readText_escape (c : Char) :
    readText (some seen) (escape c ++ cs) = readText (some (c :: seen)) cs := by
  unfold escape
  split
  -- Seven characters have letters of their own, control characters a number.
  · rfl
  · rfl
  · rfl
  · rfl
  · rfl
  · rfl
  · rfl
  · next hquote hslash _ _ _ _ _ =>
    split
    · next hcontrol => exact readText_code hcontrol
    · next hcontrol =>
      rw [List.singleton_append, readText.eq_def]
      split
      · simp_all
      · simp_all
      · simp_all
      · next heq =>
        obtain ⟨rfl, rfl⟩ := List.cons.inj heq
        exact if_neg hcontrol
      · simp_all

private theorem readText_quoted (seen rest s : List Char) :
    readText (some seen) (s.flatMap escape ++ '"' :: rest) =
      some (some (String.ofList (seen.reverse ++ s)), rest) := by
  induction s generalizing seen with
  | nil =>
    rw [List.append_nil]
    rfl
  | cons c s ih =>
    rw [List.flatMap_cons, List.append_assoc, readText_escape, ih, List.reverse_cons,
      List.append_assoc, List.singleton_append]

theorem skip_cons (h : isSpace c = false) : skip (c :: cs) = c :: cs := by
  rw [skip, List.dropWhile_cons, h, if_neg Bool.false_ne_true]

private theorem skip_newLine (level : Nat) (cs : List Char) :
    skip (newLine level ++ cs) = skip cs := by
  rw [newLine, List.cons_append, skip, List.dropWhile_cons, if_pos (by decide)]
  induction 2 * level with
  | zero => rfl
  | succ n ih =>
    rw [List.replicate_succ, List.cons_append, List.dropWhile_cons, if_pos (by decide), ih]

/-- What is printed starts with no blank and does not look like the end of a list. -/
theorem exists_print (level : Nat) (d : Document) :
    ∃ c cs, print level d = c :: cs ∧ isSpace c = false ∧ c ≠ ']' := by
  cases d with
  | null => exact ⟨_, _, rfl, by decide, by decide⟩
  | bool b => cases b <;> exact ⟨_, _, rfl, by decide, by decide⟩
  | text s => exact ⟨_, _, rfl, by decide, by decide⟩
  | list ds => cases ds <;> exact ⟨_, _, rfl, by decide, by decide⟩
  | record es => cases es <;> exact ⟨_, _, rfl, by decide, by decide⟩

/-- What is printed takes a step to read. -/
theorem exists_fuel {d : Document} (h : (print level d).length ≤ fuel) : ∃ m, fuel = m + 1 := by
  obtain ⟨c, cs, hprint, _⟩ := exists_print level d
  rw [hprint, List.length_cons] at h
  exact ⟨fuel - 1, by omega⟩

private theorem skip_print (level : Nat) (d : Document) (cs : List Char) :
    skip (print level d ++ cs) = print level d ++ cs ∧
      ∀ rest, print level d ++ cs ≠ ']' :: rest := by
  obtain ⟨c, tail, hprint, hspace, hbracket⟩ := exists_print level d
  rw [hprint, List.cons_append]
  exact ⟨skip_cons hspace, fun rest heq => hbracket (List.cons.inj heq).1⟩

/-- What holds of a document once it holds of what it consists of holds of every document. -/
theorem document_induction {P : Document → Prop} (null : P .null) (bool : ∀ b, P (.bool b))
    (text : ∀ s, P (.text s)) (list : ∀ ds, (∀ d ∈ ds, P d) → P (.list ds))
    (record : ∀ es, (∀ e ∈ es, P e.2) → P (.record es)) (d : Document) : P d := by
  induction hsize : sizeOf d using Nat.strongRecOn generalizing d with
  | _ size ih =>
    cases d with
    | null => exact null
    | bool b => exact bool b
    | text s => exact text s
    | list ds =>
      refine list ds fun d hd => ih _ ?_ d rfl
      have hlt := List.sizeOf_lt_of_mem hd
      simp only [← hsize, Document.list.sizeOf_spec]
      omega
    | record es =>
      refine record es fun e he => ih _ ?_ e.2 rfl
      have hlt := List.sizeOf_lt_of_mem he
      obtain ⟨k, d⟩ := e
      simp only [← hsize, Document.record.sizeOf_spec, Prod.mk.sizeOf_spec] at hlt ⊢
      omega

/-- Whether a document is read from what was printed of it, whatever follows. -/
def ReadsBack (d : Document) : Prop :=
  ∀ level fuel rest, (print level d).length ≤ fuel →
    ∃ n, readValue fuel (print level d ++ rest) = some (n, rest) ∧ tells d n = true

private theorem readsBack_text (s : String) : ReadsBack (.text s) := by
  intro level fuel rest hfuel
  obtain ⟨fuel, rfl⟩ := exists_fuel hfuel
  refine ⟨.leaf { text := some s }, ?_, by simp [tells, text?, choice?, presence]⟩
  have hread := readText_quoted [] rest s.toList
  rw [List.reverse_nil, List.nil_append, String.ofList_toList] at hread
  simp only [print, quoted, List.cons_append, List.append_assoc, List.nil_append]
  rw [readValue, skip_cons (by decide)]
  simp [hread]

/-- Blanks in front of a value are passed over. -/
theorem readValue_congr {cs cs' : List Char} (h : skip cs = skip cs') (fuel : Nat) :
    readValue fuel cs = readValue fuel cs' := by
  cases fuel with
  | zero => rfl
  | succ fuel => rw [readValue, readValue, h]

private theorem readItems_newLine (fuel level : Nat) (cs : List Char) :
    readItems fuel (newLine level ++ cs) = readItems fuel cs := by
  cases fuel with
  | zero => rfl
  | succ fuel => rw [readItems, readItems, readValue_congr (skip_newLine level cs)]

private theorem readEntries_newLine (fuel level : Nat) (cs : List Char) :
    readEntries fuel (newLine level ++ cs) = readEntries fuel cs := by
  cases fuel with
  | zero => rfl
  | succ fuel => rw [readEntries, readEntries, skip_newLine]

/-- The items of a list are read up to its end. The induction is on the further items. -/
theorem readItems_print {d : Document} {ds : List Document} (fuel level outer : Nat)
    (rest : List Char)
    (hd : ∀ x ∈ d :: ds, ReadsBack x)
    (hfuel : (print level d ++ printItems level ds).length < fuel) :
    ∃ ns, readItems fuel (print level d ++ printItems level ds ++ (newLine outer ++ ']' :: rest)) =
      some (ns, rest) ∧ itemsTell (d :: ds) ns = true := by
  induction ds generalizing d fuel with
  | nil =>
    obtain ⟨fuel, rfl⟩ : ∃ m, fuel = m + 1 := ⟨fuel - 1, by omega⟩
    obtain ⟨n, hn, htells⟩ := hd d List.mem_cons_self level fuel (newLine outer ++ ']' :: rest)
      (by simp [printItems] at hfuel; omega)
    refine ⟨[n], ?_, by simp [itemsTell, htells]⟩
    rw [printItems, List.append_nil, readItems, hn]
    simp only [skip_newLine]
    rw [skip_cons (by decide)]
    rfl
  | cons d' ds ih =>
    obtain ⟨fuel, rfl⟩ : ∃ m, fuel = m + 1 := ⟨fuel - 1, by omega⟩
    obtain ⟨hfirst, hothers⟩ := List.forall_mem_cons.mp hd
    simp only [printItems, List.length_append, List.length_cons] at hfuel
    obtain ⟨n, hn, htells⟩ := hfirst level fuel
      (printItems level (d' :: ds) ++ (newLine outer ++ ']' :: rest)) (by omega)
    obtain ⟨ns, hns, htell⟩ := ih fuel hothers (by simp; omega)
    refine ⟨n :: ns, ?_, by simp [itemsTell, htells] at htell ⊢; exact htell⟩
    rw [List.append_assoc, readItems, hn]
    simp only [printItems, List.cons_append, List.append_assoc]
    rw [skip_cons (by decide)]
    simp only [List.append_assoc] at hns
    simp only [readItems_newLine, hns]
    rfl

/-- The key of an entry and the colon behind it are read in front of its value, and then what stands
behind that. -/
theorem readEntries_entry {k : String} {d : Document} {n : Node} {after : List Char}
    (hn : readValue fuel (print level d ++ after) = some (n, after)) :
    (∀ cs, skip after = '\x7d' :: cs →
      readEntries (fuel + 1) (printEntry level (k, d) ++ after) =
        some ([(.leaf { text := some k }, n)], cs)) ∧
      ∀ cs, skip after = ',' :: cs →
        readEntries (fuel + 1) (printEntry level (k, d) ++ after) =
          (readEntries fuel cs).map fun (es, cs) => ((.leaf { text := some k }, n) :: es, cs) := by
  have hkey := readText_quoted [] (':' :: ' ' :: (print level d ++ after)) k.toList
  rw [List.reverse_nil, List.nil_append, String.ofList_toList] at hkey
  have hblank : skip (' ' :: (print level d ++ after)) = skip (print level d ++ after) := rfl
  have hvalue : readValue fuel (' ' :: (print level d ++ after)) = some (n, after) :=
    (readValue_congr hblank fuel).trans hn
  simp only [printEntry, quoted, List.cons_append, List.append_assoc, List.nil_append]
  rw [readEntries, skip_cons (by decide)]
  simp only [hkey]
  rw [skip_cons (by decide)]
  simp only [hvalue]
  constructor
  · intro cs hend
    rw [hend]
    rfl
  · intro cs hcomma
    rw [hcomma]
    rfl

/-- The entries of a record are read up to its end. The induction is on the further entries. -/
theorem readEntries_print {e : String × Document} {es : List (String × Document)}
    (fuel level outer : Nat) (rest : List Char)
    (he : ∀ x ∈ e :: es, ReadsBack x.2)
    (hfuel : (printEntry level e ++ printEntries level es).length < fuel) :
    ∃ entries, readEntries fuel
        (printEntry level e ++ printEntries level es ++ (newLine outer ++ '\x7d' :: rest)) =
      some (entries, rest) ∧ entriesTell (e :: es) entries = true := by
  induction es generalizing e fuel with
  | nil =>
    obtain ⟨k, d⟩ := e
    obtain ⟨fuel, rfl⟩ : ∃ m, fuel = m + 1 := ⟨fuel - 1, by omega⟩
    have hd : ReadsBack d := he (k, d) List.mem_cons_self
    obtain ⟨n, hn, htells⟩ := hd level fuel (newLine outer ++ '\x7d' :: rest)
      (by simp [printEntries, printEntry] at hfuel; omega)
    refine ⟨[(.leaf { text := some k }, n)], ?_, by simp [entriesTell, entryTells, text?, htells]⟩
    rw [printEntries, List.append_nil]
    exact (readEntries_entry hn).1 rest (by rw [skip_newLine, skip_cons (by decide)])
  | cons e' es ih =>
    obtain ⟨k, d⟩ := e
    obtain ⟨fuel, rfl⟩ : ∃ m, fuel = m + 1 := ⟨fuel - 1, by omega⟩
    have hd : ReadsBack d := he (k, d) List.mem_cons_self
    have hothers := (List.forall_mem_cons.mp he).2
    simp only [printEntries, printEntry, List.length_append, List.length_cons] at hfuel
    obtain ⟨n, hn, htells⟩ := hd level fuel
      (printEntries level (e' :: es) ++ (newLine outer ++ '\x7d' :: rest)) (by omega)
    obtain ⟨entries, hentries, htell⟩ := ih fuel hothers (by simp; omega)
    refine ⟨(.leaf { text := some k }, n) :: entries, ?_, ?_⟩
    · -- Behind the comma the next entry stands on a line of its own.
      have hcomma : skip (printEntries level (e' :: es) ++ (newLine outer ++ '\x7d' :: rest)) =
          ',' :: (newLine level ++ (printEntry level e' ++ printEntries level es ++
            (newLine outer ++ '\x7d' :: rest))) := by
        simp only [printEntries, List.cons_append, List.append_assoc]
        exact skip_cons (by decide)
      rw [List.append_assoc, (readEntries_entry hn).2 _ hcomma, readEntries_newLine, hentries]
      rfl
    · rw [entriesTell, entryTells, htells, htell, text?]
      simp

private theorem readsBack_list {ds : List Document} (h : ∀ d ∈ ds, ReadsBack d) :
    ReadsBack (.list ds) := by
  intro level fuel rest hfuel
  obtain ⟨fuel, rfl⟩ := exists_fuel hfuel
  cases ds with
  | nil => exact ⟨.list [], rfl, rfl⟩
  | cons d ds =>
    simp only [print, List.length_append, List.length_cons] at hfuel
    obtain ⟨ns, hns, htell⟩ := readItems_print fuel (level + 1) level rest h
      (by simp [newLine] at hfuel ⊢; omega)
    refine ⟨.list ns, ?_, htell⟩
    simp only [print, List.cons_append, List.append_assoc, List.nil_append] at hns ⊢
    obtain ⟨hskip, hopening⟩ := skip_print (level + 1) d
      (printItems (level + 1) ds ++ (newLine level ++ ']' :: rest))
    rw [readValue, skip_cons (by decide)]
    simp only [skip_newLine]
    rw [hskip]
    split
    · next heq => exact absurd heq (hopening _)
    · rw [hns]

private theorem readsBack_record {es : List (String × Document)} (h : ∀ e ∈ es, ReadsBack e.2) :
    ReadsBack (.record es) := by
  intro level fuel rest hfuel
  obtain ⟨fuel, rfl⟩ := exists_fuel hfuel
  cases es with
  | nil => exact ⟨.map [], rfl, rfl⟩
  | cons e es =>
    simp only [print, List.length_append, List.length_cons] at hfuel
    obtain ⟨entries, hentries, htell⟩ := readEntries_print fuel (level + 1) level rest h
      (by simp [newLine] at hfuel ⊢; omega)
    refine ⟨.map entries, ?_, htell⟩
    obtain ⟨k, d⟩ := e
    simp only [print, printEntry, quoted, List.cons_append, List.append_assoc, List.nil_append]
      at hentries ⊢
    rw [readValue, skip_cons (by decide)]
    simp only [skip_newLine]
    rw [skip_cons (by decide)]
    split
    · next heq => cases heq
    · rw [hentries]

theorem readsBack (d : Document) : ReadsBack d := by
  induction d using document_induction with
  | null =>
    intro level fuel rest hfuel
    obtain ⟨fuel, rfl⟩ := exists_fuel hfuel
    exact ⟨_, rfl, rfl⟩
  | bool b =>
    intro level fuel rest hfuel
    obtain ⟨fuel, rfl⟩ := exists_fuel hfuel
    cases b <;> exact ⟨_, rfl, rfl⟩
  | text s => exact readsBack_text s
  | list ds ih => exact readsBack_list ih
  | record es ih => exact readsBack_record ih

/-- A document that was printed is read from its text. -/
theorem parse_render (d : Document) : ∃ n, parse (render d) = some n ∧ tells d n = true := by
  -- `parse` reads with this much fuel.
  have hlength : (print 0 d).length ≤ 2 * (render d).length + 2 := by
    rw [render, String.length_ofList]
    omega
  obtain ⟨n, hn, htells⟩ := readsBack d 0 _ [] hlength
  rw [List.append_nil] at hn
  refine ⟨n, ?_, htells⟩
  rw [parse, render, String.toList_ofList, ← render, hn]
  rfl

end EndpointDocs.Json
