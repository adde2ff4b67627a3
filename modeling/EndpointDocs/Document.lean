namespace EndpointDocs

/-- The values that records are turned into before they get a text. -/
inductive Document
  | null
  | bool (b : Bool)
  | text (s : String)
  | list (items : List Document)
  | record (entries : List (String × Document))
  deriving Inhabited

namespace Document

def texts (ts : List String) : Document :=
  .list (ts.map .text)

/-- `null` stands for nothing. -/
def ofOption {α : Type} (write : α → Document) : Option α → Document
  | none => .null
  | some a => write a

/-- An entry that is there only if there is something to write. -/
def entry? {α : Type} (key : String) (write : α → Document) (a : Option α) :
    List (String × Document) :=
  match a with
  | none => []
  | some a => [(key, write a)]

/-- An entry that is there only if the list is not empty. -/
def entryUnlessEmpty {α : Type} (key : String) (write : α → Document) (as : List α) :
    List (String × Document) :=
  match as with
  | [] => []
  | as => [(key, .list (as.map write))]

/-- A map, its entries in order. -/
def ofMap {α : Type} (write : α → Document) (entries : List (String × α)) : Document :=
  .record (entries.map fun (k, a) => (k, write a))

end Document

end EndpointDocs
