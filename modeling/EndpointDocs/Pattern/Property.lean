import EndpointDocs.Pattern.CharSet
import EndpointDocs.Pattern.Property.Table

namespace EndpointDocs.Pattern.Property

open Chars (Span)

/-- Scripts by their names. -/
def scripts : List (List String × List Span) :=
  (Chars.words scriptTable.toList).foldr
    (fun cs (spans, found) =>
      if cs.getLast? = some ':' then
        ([], ((cs.dropLast.splitOn '/').map String.ofList, spans) :: found)
      else
        let (first, last, _) := Chars.readSpan cs
        (⟨first, last⟩ :: spans, found))
    (([] : List Span), ([] : List (List String × List Span))) |>.2

def script? (name : String) : Option CharSet :=
  (scripts.find? fun s => name ∈ s.1).map fun s => .spans s.2

/-- The general categories and their groups. -/
def generalCategory? (name : String) : Option CharSet :=
  let table : List (List String × CharSet) := [
    (["lu", "uppercaseletter"], .categories [.lu]),
    (["ll", "lowercaseletter"], .categories [.ll]),
    (["lt", "titlecaseletter"], .categories [.lt]),
    (["lc", "casedletter"], .categories [.lu, .ll, .lt]),
    (["lm", "modifierletter"], .categories [.lm]),
    (["lo", "otherletter"], .categories [.lo]),
    (["l", "letter"], .categories [.lu, .ll, .lt, .lm, .lo]),
    (["mn", "nonspacingmark"], .categories [.mn]),
    (["mc", "spacingmark"], .categories [.mc]),
    (["me", "enclosingmark"], .categories [.me]),
    (["m", "mark", "combiningmark"], .categories [.mn, .mc, .me]),
    (["nd", "decimalnumber", "digit"], .categories [.nd]),
    (["nl", "letternumber"], .categories [.nl]),
    (["no", "othernumber"], .categories [.no]),
    (["n", "number"], .categories [.nd, .nl, .no]),
    (["pc", "connectorpunctuation"], .categories [.pc]),
    (["pd", "dashpunctuation"], .categories [.pd]),
    (["ps", "openpunctuation"], .categories [.ps]),
    (["pe", "closepunctuation"], .categories [.pe]),
    (["pi", "initialpunctuation"], .categories [.pi]),
    (["pf", "finalpunctuation"], .categories [.pf]),
    (["po", "otherpunctuation"], .categories [.po]),
    (["p", "punctuation", "punct"], .categories [.pc, .pd, .ps, .pe, .pi, .pf, .po]),
    (["sm", "mathsymbol"], .categories [.sm]),
    (["sc", "currencysymbol"], .categories [.sc]),
    (["sk", "modifiersymbol"], .categories [.sk]),
    (["so", "othersymbol"], .categories [.so]),
    (["s", "symbol"], .categories [.sm, .sc, .sk, .so]),
    (["zs", "spaceseparator"], .categories [.zs]),
    (["zl", "lineseparator"], .categories [.zl]),
    (["zp", "paragraphseparator"], .categories [.zp]),
    (["z", "separator"], .categories [.zs, .zl, .zp]),
    (["cc", "control", "cntrl"], .categories [.cc]),
    (["cf", "format"], .categories [.cf]),
    (["cs", "surrogate"], .categories [.cs]),
    (["co", "privateuse"], .categories [.co]),
    (["cn", "unassigned"], .categories [.cn]),
    (["c", "other"], .categories [.cc, .cf, .cs, .co, .cn]),
    (["any"], .all),
    (["assigned"], .compl (.categories [.cn])),
    (["ascii"], .spans [⟨0, 127⟩])]
  (table.find? fun row => name ∈ row.1).map Prod.snd

/-- Properties that a character has or has not. -/
def binary? (name : String) : Option CharSet :=
  let table : List (List String × CharSet) := [
    (["alphabetic", "alpha"], .alphabetic),
    (["uppercase", "upper"], .uppercase),
    (["lowercase", "lower"], .lowercase),
    (["whitespace", "wspace", "space"], .blank),
    (["asciihexdigit", "ahex"], .spans [⟨48, 57⟩, ⟨65, 70⟩, ⟨97, 102⟩]),
    (["hexdigit", "hex"], .spans [⟨48, 57⟩, ⟨65, 70⟩, ⟨97, 102⟩, ⟨0xff10, 0xff19⟩,
      ⟨0xff21, 0xff26⟩, ⟨0xff41, 0xff46⟩]),
    (["joincontrol", "joinc"], .spans [⟨0x200c, 0x200d⟩])]
  (table.find? fun row => name ∈ row.1).map Prod.snd

/-- A name in the form in which names are compared: a leading `is` goes first, then spaces,
hyphens, low lines and all that is not ASCII. -/
def symbolic (name : List Char) : String :=
  let keep (cs : List Char) : List Char := cs.filterMap fun c =>
    if c = ' ' || c = '_' || c = '-' || c.toNat > 127 then none else some (Chars.asciiLower c)
  let kept :=
    if (name.take 2).map Chars.asciiLower = ['i', 's'] then
      match keep (name.drop 2) with
      | ['c'] => ['i', 's', 'c']
      | rest => rest
    else keep name
  String.ofList kept

/-- The set that `\p` with a name stands for. -/
def ofName? (name : List Char) : Option CharSet :=
  let name := symbolic name
  let binary := if name ∈ ["cf", "sc", "lc"] then none else binary? name
  (binary.or (generalCategory? name)).or (script? name)

/-- The set that `\p` with a property and a value stands for. -/
def ofNameAndValue? (name value : List Char) : Option CharSet :=
  let value := symbolic value
  if symbolic name ∈ ["gc", "generalcategory"] then generalCategory? value
  else if symbolic name ∈ ["sc", "script", "scx", "scriptextensions"] then script? value
  else none

end EndpointDocs.Pattern.Property
