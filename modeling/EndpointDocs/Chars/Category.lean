import EndpointDocs.Chars.Blank
import EndpointDocs.Chars.Category.Table

namespace EndpointDocs.Chars

/-- The values of the Unicode property `General_Category`, by their short names. -/
inductive Category
  | lu | ll | lt | lm | lo
  | mn | mc | me
  | nd | nl | no
  | pc | pd | ps | pe | pi | pf | po
  | sm | sc | sk | so
  | zs | zl | zp
  | cc | cf | cs | co | cn
  deriving DecidableEq

namespace Category

def ofShortName : List Char → Option Category
  | ['L', 'u'] => some .lu | ['L', 'l'] => some .ll | ['L', 't'] => some .lt
  | ['L', 'm'] => some .lm | ['L', 'o'] => some .lo | ['M', 'n'] => some .mn
  | ['M', 'c'] => some .mc | ['M', 'e'] => some .me | ['N', 'd'] => some .nd
  | ['N', 'l'] => some .nl | ['N', 'o'] => some .no | ['P', 'c'] => some .pc
  | ['P', 'd'] => some .pd | ['P', 's'] => some .ps | ['P', 'e'] => some .pe
  | ['P', 'i'] => some .pi | ['P', 'f'] => some .pf | ['P', 'o'] => some .po
  | ['S', 'm'] => some .sm | ['S', 'c'] => some .sc | ['S', 'k'] => some .sk
  | ['S', 'o'] => some .so | ['Z', 's'] => some .zs | ['Z', 'l'] => some .zl
  | ['Z', 'p'] => some .zp | ['C', 'c'] => some .cc | ['C', 'f'] => some .cf
  | ['C', 's'] => some .cs | ['C', 'o'] => some .co | ['C', 'n'] => some .cn
  | _ => none

end Category

/-- The value of a hexadecimal digit, either case. -/
def hexDigit? (c : Char) : Option Nat :=
  if '0' ≤ c && c ≤ '9' then some (c.toNat - 48)
  else if 'a' ≤ c && c ≤ 'f' then some (c.toNat - 87)
  else if 'A' ≤ c && c ≤ 'F' then some (c.toNat - 55)
  else none

/-- The number that hexadecimal digits write; other characters count as zero. -/
def hexValue (cs : List Char) : Nat :=
  cs.foldl (fun n c => 16 * n + (hexDigit? c).getD 0) 0

/-- Code points `first` to `last`, as `first-last` or as one number in lower case hexadecimal,
and what follows the numbers. -/
def readSpan (cs : List Char) : Nat × Nat × List Char :=
  let isDigit c := ('0' ≤ c && c ≤ '9') || ('a' ≤ c && c ≤ 'f')
  let first := hexValue (cs.takeWhile isDigit)
  match cs.dropWhile isDigit with
  | '-' :: rest => (first, hexValue (rest.takeWhile isDigit), rest.dropWhile isDigit)
  | rest => (first, first, rest)

/-- Consecutive code points whose categories alternate between two, which may be the same. -/
structure CategoryRun where
  first : Nat
  last : Nat
  even : Category
  odd : Category

def CategoryRun.read (cs : List Char) : Option CategoryRun :=
  let (first, last, names) := readSpan cs
  match Category.ofShortName (names.take 2), Category.ofShortName (names.drop 2) with
  | some even, some odd => some ⟨first, last, even, odd⟩
  | some even, none => some ⟨first, last, even, even⟩
  | none, _ => none

def categoryRuns : Array CategoryRun :=
  ((words Category.table.toList).filterMap CategoryRun.read).toArray

/-- The run that holds `n`, sought among those from `low` up to `high`. -/
def findRun (runs : Array CategoryRun) (n low high : Nat) : Option CategoryRun :=
  if low < high then
    let middle := (low + high) / 2
    match runs[middle]? with
    | none => none
    | some run =>
      if n < run.first then findRun runs n low middle
      else if run.last < n then findRun runs n (middle + 1) high
      else some run
  else none
termination_by high - low

/-- The general category of a code point. -/
def categoryAt (n : Nat) : Category :=
  match findRun categoryRuns n 0 categoryRuns.size with
  | some run => if (n - run.first) % 2 = 0 then run.even else run.odd
  | none => .cn

def category (c : Char) : Category :=
  categoryAt c.toNat

/-- Code points `first` to `last`. -/
structure Span where
  first : Nat
  last : Nat
  deriving DecidableEq

def Span.contains (r : Span) (n : Nat) : Bool :=
  r.first ≤ n && n ≤ r.last

/-- Spans written in hexadecimal and separated by spaces. -/
def readSpans (text : String) : List Span :=
  (words text.toList).map fun cs => let (first, last, _) := readSpan cs; ⟨first, last⟩

end EndpointDocs.Chars
