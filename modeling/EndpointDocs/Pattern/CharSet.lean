import EndpointDocs.Chars.Blank
import EndpointDocs.Chars.Case

namespace EndpointDocs.Pattern

open Chars (Span Category)

/-- Sets of characters, built from spans of code points and Unicode properties by the operations of
sets and by closing a set under case. -/
inductive CharSet
  | spans (spans : List Span)
  | categories (categories : List Category)
  | alphabetic
  | uppercase
  | lowercase
  | blank
  | union (a b : CharSet)
  | inter (a b : CharSet)
  | compl (a : CharSet)
  /-- With each character, all that are the same but for case. -/
  | caseless (a : CharSet)
  /-- With each ASCII letter, its other case. -/
  | asciiCaseless (a : CharSet)
  deriving DecidableEq

namespace CharSet

def contains : CharSet → Nat → Bool
  | .spans rs, n => rs.any (·.contains n)
  | .categories cs, n => Chars.categoryAt n ∈ cs
  | .alphabetic, n => Chars.isAlphabetic (Char.ofNat n)
  | .uppercase, n => Chars.isUppercase (Char.ofNat n)
  | .lowercase, n => Chars.isLowercase (Char.ofNat n)
  | .blank, n => Chars.isBlank (Char.ofNat n)
  | .union a b, n => a.contains n || b.contains n
  | .inter a b, n => a.contains n && b.contains n
  | .compl a, n => !a.contains n
  | .caseless a, n => (Chars.foldClass n).any a.contains
  | .asciiCaseless a, n =>
    a.contains n ||
      (if 65 ≤ n && n ≤ 90 then a.contains (n + 32)
       else if 97 ≤ n && n ≤ 122 then a.contains (n - 32) else false)

def empty : CharSet := .spans []

def all : CharSet := .spans [⟨0, 0x10ffff⟩]

def single (c : Char) : CharSet := .spans [⟨c.toNat, c.toNat⟩]

def diff (a b : CharSet) : CharSet := .inter a (.compl b)

def symmDiff (a b : CharSet) : CharSet := .union (a.diff b) (b.diff a)

def unionAll (sets : List CharSet) : CharSet :=
  match sets with
  | [] => empty
  | s :: ss => ss.foldl .union s

/-- The characters of words: alphabetic ones, marks, decimal digits, connectors and joiners. -/
def word : CharSet :=
  unionAll [.alphabetic, .categories [.mn, .mc, .me, .nd, .pc], .spans [⟨0x200c, 0x200d⟩]]

def digit : CharSet := .categories [.nd]

def asciiWord : CharSet := .spans [⟨48, 57⟩, ⟨65, 90⟩, ⟨95, 95⟩, ⟨97, 122⟩]

def asciiDigit : CharSet := .spans [⟨48, 57⟩]

def asciiBlank : CharSet := .spans [⟨9, 13⟩, ⟨32, 32⟩]

/-- The sets that `[:name:]` stands for. -/
def ofAsciiName? : List Char → Option CharSet
  | name => [
    ("alnum", [⟨48, 57⟩, ⟨65, 90⟩, ⟨97, 122⟩]), ("alpha", [⟨65, 90⟩, ⟨97, 122⟩]),
    ("ascii", [⟨0, 127⟩]), ("blank", [⟨9, 9⟩, ⟨32, 32⟩]), ("cntrl", [⟨0, 31⟩, ⟨127, 127⟩]),
    ("digit", [⟨48, 57⟩]), ("graph", [⟨33, 126⟩]), ("lower", [⟨97, 122⟩]),
    ("print", [⟨32, 126⟩]), ("punct", [⟨33, 47⟩, ⟨58, 64⟩, ⟨91, 96⟩, ⟨123, 126⟩]),
    ("space", [⟨9, 13⟩, ⟨32, 32⟩]), ("upper", [⟨65, 90⟩]),
    ("word", [⟨48, 57⟩, ⟨65, 90⟩, ⟨95, 95⟩, ⟨97, 122⟩]),
    ("xdigit", [⟨48, 57⟩, ⟨65, 70⟩, ⟨97, 102⟩])].lookup (String.ofList name) |>.map .spans

end CharSet

end EndpointDocs.Pattern
