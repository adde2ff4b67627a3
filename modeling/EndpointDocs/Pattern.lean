import EndpointDocs.Pattern.CharSet

namespace EndpointDocs

/-- Conditions on a position between two characters. -/
inductive Pattern.Assertion
  | textStart | textEnd
  | lineStart | lineEnd
  | crlfStart | crlfEnd
  | wordBoundary (word : Pattern.CharSet)
  | notWordBoundary (word : Pattern.CharSet)
  | wordStart (word : Pattern.CharSet)
  | wordEnd (word : Pattern.CharSet)
  | wordStartHalf (word : Pattern.CharSet)
  | wordEndHalf (word : Pattern.CharSet)
  deriving DecidableEq

/-- Regular expressions with assertions about positions. -/
inductive Pattern
  | nothing
  | epsilon
  | chars (set : Pattern.CharSet)
  | assertion (a : Pattern.Assertion)
  | seq (p q : Pattern)
  | alt (p q : Pattern)
  /-- At least `low` times and, if there is a bound, at most that many times. -/
  | repeated (p : Pattern) (low : Nat) (high : Option Nat)
  deriving DecidableEq

namespace Pattern

/-- Whether the assertion holds between the two characters; there is none beyond an end. -/
def Assertion.holds (before after : Option Char) (a : Assertion) : Bool :=
  let inWord (word : CharSet) (c : Option Char) : Bool := c.any fun c => word.contains c.toNat
  match a with
  | .textStart => before.isNone
  | .textEnd => after.isNone
  | .lineStart => before.all (· = '\n')
  | .lineEnd => after.all (· = '\n')
  | .crlfStart => before.all fun c => c = '\n' || (c = '\r' && after ≠ some '\n')
  | .crlfEnd => after.all fun c => c = '\r' || (c = '\n' && before ≠ some '\r')
  | .wordBoundary w => inWord w before ≠ inWord w after
  | .notWordBoundary w => inWord w before = inWord w after
  | .wordStart w => !inWord w before && inWord w after
  | .wordEnd w => inWord w before && !inWord w after
  | .wordStartHalf w => !inWord w before
  | .wordEndHalf w => !inWord w after

/-- Whether the pattern matches no characters at all between the two. -/
def matchesEmpty (before after : Option Char) : Pattern → Bool
  | .nothing => false
  | .epsilon => true
  | .chars _ => false
  | .assertion a => a.holds before after
  | .seq p q => p.matchesEmpty before after && q.matchesEmpty before after
  | .alt p q => p.matchesEmpty before after || q.matchesEmpty before after
  | .repeated p low high => high.all (low ≤ ·) && (low = 0 || p.matchesEmpty before after)

/-- A sequence of which an empty first part is left out. -/
def seqAfter (p q : Pattern) : Pattern :=
  if p = .epsilon then q else .seq p q

/-- What may be left to match after `c`, which stands behind `before`: the partial derivatives of
the pattern, finitely many for all texts. -/
def afterChar (before : Option Char) (c : Char) : Pattern → List Pattern
  | .nothing | .epsilon | .assertion _ => []
  | .chars set => if set.contains c.toNat then [.epsilon] else []
  | .seq p q =>
    (p.afterChar before c).map (seqAfter · q) ++
      if p.matchesEmpty before (some c) then q.afterChar before c else []
  | .alt p q => p.afterChar before c ++ q.afterChar before c
  | .repeated p low high =>
    if high = some 0 || !high.all (low ≤ ·) then []
    else
      let low := if p.matchesEmpty before (some c) then 0 else low - 1
      (p.afterChar before c).map (seqAfter · (.repeated p low (high.map (· - 1))))

/-- Whether one of the patterns matches from here, or `p` from here or later on. -/
def findsFrom (p : Pattern) (before : Option Char) (states : List Pattern) : List Char → Bool
  | [] => (p :: states).any (·.matchesEmpty before none)
  | c :: cs =>
    let states := (p :: states).eraseDups
    states.any (·.matchesEmpty before (some c)) ||
      findsFrom p (some c) (states.flatMap (·.afterChar before c)) cs

/-- Whether the pattern matches some part of the text. -/
def finds (p : Pattern) (text : String) : Bool :=
  findsFrom p none [] text.toList

end Pattern

end EndpointDocs
