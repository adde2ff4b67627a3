import EndpointDocs.Chars.Letter

namespace EndpointDocs.Yaml

/-- How a scalar is written. Lines are folded only in texts that others have written. -/
inductive Style
  | plain
  | single
  | double
  | literal
  | folded
  deriving DecidableEq

def isNull (cs : List Char) : Bool :=
  ["", "~", "null", "Null", "NULL"].any (·.toList = cs)

def bool? (cs : List Char) : Option Bool :=
  if ["true", "True", "TRUE"].any (·.toList = cs) then some true
  else if ["false", "False", "FALSE"].any (·.toList = cs) then some false
  else none

/-- The text without its sign. -/
def withoutSign : List Char → List Char
  | '+' :: cs | '-' :: cs => cs
  | cs => cs

/-- Several decimal digits of which the first is zero. They are not a number. -/
def isPadded (cs : List Char) : Bool :=
  match withoutSign cs with
  | '0' :: c :: cs => (c :: cs).all Chars.isAsciiDigit
  | _ => false

/-- The value of the digits to a base, if that is what all of them are, and there is one. -/
def digits? (base : Nat) (cs : List Char) : Option Nat :=
  if cs.isEmpty then none
  else
    cs.foldlM (fun n c =>
      match Chars.hexDigit? c with
      | some d => if d < base then some (n * base + d) else none
      | none => none) 0

/-- Whether the digits write a whole number of at most `largest`. -/
def isUpTo (largest base : Nat) (cs : List Char) : Bool :=
  (digits? base cs).any (· ≤ largest)

/-- Whether this is a natural number of 128 bits, written to base 16, 8, 2 or 10. -/
def isNatural (cs : List Char) : Bool :=
  match cs with
  | '0' :: 'x' :: ds => isUpTo (Nat.pow 2 128 - 1) 16 ds
  | '0' :: 'o' :: ds => isUpTo (Nat.pow 2 128 - 1) 8 ds
  | '0' :: 'b' :: ds => isUpTo (Nat.pow 2 128 - 1) 2 ds
  | ds => !isPadded ds && isUpTo (Nat.pow 2 128 - 1) 10 ds

/-- Whether a minus sign in front of this makes a number of 128 bits. -/
def isNegatable (cs : List Char) : Bool :=
  match cs with
  | '0' :: 'x' :: ds => isUpTo (Nat.pow 2 127) 16 ds
  | '0' :: 'o' :: ds => isUpTo (Nat.pow 2 127) 8 ds
  | '0' :: 'b' :: ds => isUpTo (Nat.pow 2 127) 2 ds
  | ds => !isPadded ds && isUpTo (Nat.pow 2 127) 10 ds

def isInteger : List Char → Bool
  | '+' :: cs => isNatural cs
  | '-' :: cs => isNegatable cs
  | cs => isNatural cs

/-- A decimal number: its digits and the power of ten that they are multiplied with. -/
structure Decimal where
  digits : Nat
  exponent : Int

/-- Reads the part of a decimal number that may follow its digits. -/
def exponent? : List Char → Option Int
  | [] => some 0
  | 'e' :: '-' :: cs | 'E' :: '-' :: cs => (digits? 10 cs).map fun n => -(n : Int)
  | 'e' :: '+' :: cs | 'E' :: '+' :: cs => (digits? 10 cs).map fun n => (n : Int)
  | 'e' :: cs | 'E' :: cs => (digits? 10 cs).map fun n => (n : Int)
  | _ => none

/-- A decimal number without a sign. There is a digit before or behind the point. -/
def Decimal.read? (cs : List Char) : Option Decimal :=
  let whole := cs.takeWhile Chars.isAsciiDigit
  let rest := cs.dropWhile Chars.isAsciiDigit
  let (fraction, rest) := match rest with
    | '.' :: cs => (cs.takeWhile Chars.isAsciiDigit, cs.dropWhile Chars.isAsciiDigit)
    | cs => ([], cs)
  match digits? 10 (whole ++ fraction), exponent? rest with
  | some digits, some e => some ⟨digits, e - fraction.length⟩
  | _, _ => none

/-- Whether the number is nearer to a number of double precision than to infinity, for which it has
to be less than `2 ^ 1024 - 2 ^ 970`. Numbers of over 310 places are not written out for that. -/
def Decimal.isFinite (d : Decimal) : Bool :=
  let places : Int := (Nat.toDigits 10 d.digits).length + d.exponent
  if d.digits = 0 || places < 309 then true
  else if 309 < places then false
  else
    d.digits * Nat.pow 10 d.exponent.toNat <
      (Nat.pow 2 1024 - Nat.pow 2 970) * Nat.pow 10 (-d.exponent).toNat

/-- Whether this is a number of double precision, infinity or not a number. -/
def isFloat (cs : List Char) : Bool :=
  let unsigned := match cs with
    | '+' :: cs => cs
    | cs => cs
  [".inf", ".Inf", ".INF"].any (fun s => s.toList = unsigned || '-' :: s.toList = cs) ||
    [".nan", ".NaN", ".NAN"].any (·.toList = cs) ||
    (Decimal.read? (withoutSign cs)).any Decimal.isFinite

/-- Whether the text, standing without quotation marks, is the text itself. -/
def isText (cs : List Char) : Bool :=
  !(isNull cs || (bool? cs).isSome || isInteger cs || isPadded cs || isFloat cs)

end EndpointDocs.Yaml
