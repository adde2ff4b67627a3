namespace EndpointDocs.Chars

/-- The characters with the Unicode property `White_Space`. -/
def isBlank (c : Char) : Bool :=
  c == ' ' || ('\t' ≤ c && c ≤ '\r') || c == '\x85' || c == '\u00a0' || c == '\u1680' ||
  ('\u2000' ≤ c && c ≤ '\u200a') || c == '\u2028' || c == '\u2029' || c == '\u202f' ||
  c == '\u205f' || c == '\u3000'

def trimStart (cs : List Char) : List Char :=
  cs.dropWhile isBlank

def trimEnd (cs : List Char) : List Char :=
  (cs.reverse.dropWhile isBlank).reverse

def trim (cs : List Char) : List Char :=
  trimEnd (trimStart cs)

/-- Adds `c` to the first of `ws`, opening a word when there is none. -/
def extendFirst (c : Char) : List (List Char) → List (List Char)
  | [] => [[c]]
  | w :: ws => (c :: w) :: ws

/-- The chunks between blanks, blank ones included. -/
def chunks : List Char → List (List Char)
  | [] => [[]]
  | c :: cs => if isBlank c then [] :: chunks cs else extendFirst c (chunks cs)

/-- The maximal blank-free pieces, in order. -/
def words (cs : List Char) : List (List Char) :=
  (chunks cs).filter (! ·.isEmpty)

theorem trimStart_length_le (cs : List Char) : (trimStart cs).length ≤ cs.length :=
  (List.dropWhile_suffix _).length_le

theorem trimEnd_length_le (cs : List Char) : (trimEnd cs).length ≤ cs.length := by
  simpa [trimEnd] using (List.dropWhile_suffix (p := isBlank) (l := cs.reverse)).length_le

theorem trim_length_le (cs : List Char) : (trim cs).length ≤ cs.length :=
  Nat.le_trans (trimEnd_length_le _) (trimStart_length_le _)

end EndpointDocs.Chars
