import EndpointDocs.Path

namespace EndpointDocs

/-- Files by their places. Every place above a file is a directory, and there are others without
files. -/
structure Disk where
  files : List (Place × String) := []
  /-- Directories, among them all in which nothing lies. -/
  directories : List Place := []

/-- Why a file cannot be written. -/
inductive Obstacle
  /-- A directory lies where the file should. -/
  | isDirectory
  /-- A file lies where the directory of the file should. -/
  | isTaken
  /-- A file lies further up on the way. -/
  | isCut
  deriving DecidableEq

def Obstacle.message : Obstacle → String
  | .isDirectory => "Is a directory (os error 21)"
  | .isTaken => "File exists (os error 17)"
  | .isCut => "Not a directory (os error 20)"

namespace Disk

/-- The text at a place among files. -/
def find? (p : Place) : List (Place × String) → Option String
  | [] => none
  | (q, text) :: fs => if q = p then some text else find? p fs

def textAt? (d : Disk) (p : Place) : Option String :=
  find? p d.files

def isFileAt (d : Disk) (p : Place) : Bool :=
  (d.textAt? p).isSome

def isDirectoryAt (d : Disk) (p : Place) : Bool :=
  p = [] || (d.directories.any fun q => p.isPrefixOf q) || d.files.any fun (q, _) => q.isBelow p

/-- Where a path leads to, unless it goes on behind something that is no directory. -/
def place? (d : Disk) (path : String) : Option Place :=
  let step (p : Place) (part : String) : Option Place :=
    if (part = "." || part = "..") && !d.isDirectoryAt p then none else some (p.step part)
  let endsInside (p : Place) : Bool :=
    path.toList.getLast? ≠ some '/' || d.isDirectoryAt p
  if path = "" then none
  else ((Path.parts path).foldlM step (Place.start path)).filter endsInside

def isFile (d : Disk) (path : String) : Bool :=
  (d.place? path).any d.isFileAt

def isDirectory (d : Disk) (path : String) : Bool :=
  (d.place? path).any d.isDirectoryAt

def text? (d : Disk) (path : String) : Option String :=
  (d.place? path).bind d.textAt?

/-- The files with a text put at the place. -/
def put (p : Place) (text : String) : List (Place × String) → List (Place × String)
  | [] => [(p, text)]
  | (q, t) :: fs => if q = p then (p, text) :: fs else (q, t) :: put p text fs

def obstacle? (d : Disk) (p : Place) : Option Obstacle :=
  if d.isFileAt p.dropLast then some .isTaken
  else if d.files.any fun (q, _) => p.isBelow q then some .isCut
  else if d.isDirectoryAt p then some .isDirectory
  else none

/-- Writes a file, and makes the directories that it lies in. -/
def write (d : Disk) (path text : String) : Except Obstacle Disk :=
  let p := Place.ofPath path
  if path.toList.getLast? = some '/' then throw .isDirectory
  else
    match d.obstacle? p with
    | some o => throw o
    | none => return { d with files := put p text d.files }

/-- The order of places: name by name, and names character by character. -/
def isBefore (a b : Place × String) : Bool :=
  !List.lex b.1 a.1 fun n m => List.lex n.toList m.toList (· < ·)

/-- All files, in the order of their places. -/
def listing (d : Disk) : List (Place × String) :=
  d.files.mergeSort isBefore

/-- The files below a place, with what remains of the way to them, in order. -/
def below (d : Disk) (p : Place) : List (Place × String) :=
  d.listing.filterMap fun (q, text) =>
    match p.isPrefixOf? q with
    | none | some [] => none
    | some rest => some (rest, text)

theorem find?_put (p q : Place) (text : String) (fs : List (Place × String)) :
    find? q (put p text fs) = if p = q then some text else find? q fs := by
  induction fs with
  | nil => simp [put, find?]
  | cons f fs ih =>
    obtain ⟨r, t⟩ := f
    by_cases hr : r = p
    · by_cases hq : p = q <;> simp [put, find?, hr, hq]
    · by_cases hq : r = q
      · subst hq
        simp [put, find?, hr, Ne.symm hr]
      · simp [put, find?, hr, hq, ih]

end Disk

end EndpointDocs
