import LoxLexer.SystemError

/-!
A working directory and what reading a path in it gives. A path is walked one name at a time, by
whoever reads an entry and by whoever puts one there, so all paths that lead to one place share what
is in it. The first name that cannot be passed decides the error of a reader.
-/

namespace LoxLexer

inductive Entry
  | file (content : List UInt8)
  | directory
  deriving DecidableEq

/--
The names that lead to a place without a detour, from the working directory. A place outside it has
a slash in front, or as many pairs of dots as there are steps up.
-/
abbrev Place := List String

namespace Place

def origin (path : String) : Place := if path.startsWith "/" then ["/"] else []

/-- The place that a name leads to. The pair of dots leads back, but nothing lies above the root. -/
def enter (place : Place) (name : String) : Place :=
  if name = "" ∨ name = "." then place
  else if name = ".." then
    match place.getLast? with
    | some "/" => place
    | some ".." | none => place ++ [".."]
    | some _ => place.dropLast
  else place ++ [name]

def isGiven (place : Place) : Bool := place == ["/"] || place.all (· == "..")

def passed (place : Place) : List String → List Place
  | [] => []
  | name :: rest => place :: (place.enter name).passed rest

end Place

structure Directory where
  entries : List (Place × Entry)

namespace Directory

def empty : Directory := ⟨[]⟩

def names (path : String) : List String := (path.toList.splitOn '/').map String.ofList

def target (path : String) : Place := (names path).foldl Place.enter (.origin path)

def through (path : String) : List Place := (Place.origin path).passed (names path)

def insert (d : Directory) (path : String) (entry : Entry) : Directory :=
  ⟨(target path, entry) :: d.entries ++ (through path).map fun place => (place, .directory)⟩

def entryAt (d : Directory) (place : Place) : Option Entry :=
  if place.isGiven then some .directory else d.entries.lookup place

def longestName : Nat := 255

def longestPath : Nat := 4095

def walk (d : Directory) (place : Place) : List String → Except SystemError Entry
  | [] =>
    match d.entryAt place with
    | some entry => .ok entry
    | none => .error .notFound
  | name :: rest =>
    match d.entryAt place with
    | none => .error .notFound
    | some (.file _) => .error .notDirectory
    | some .directory =>
      if longestName < name.utf8ByteSize then .error .nameTooLong
      else d.walk (place.enter name) rest

def find (d : Directory) (path : String) : Except SystemError Entry :=
  if path = "" then .error .notFound
  else if longestPath < path.utf8ByteSize then .error .nameTooLong
  else d.walk (.origin path) (names path)

def read (d : Directory) (path : String) : Except SystemError (List UInt8) :=
  match d.find path with
  | .ok (.file content) => .ok content
  | .ok .directory => .error .isDirectory
  | .error e => .error e

end Directory

end LoxLexer
