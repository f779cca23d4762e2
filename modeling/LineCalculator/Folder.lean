/-!
# Paths and what lies at them

A path is given by its text, in which repeated slashes and single dots do not count.  A folder
answers what lies at a path that starts from it; `Folder.ofFiles` is one that holds given files.
-/

namespace LineCalculator

/-- The pieces of a text between slashes. -/
def betweenSlashes : List Char → List (List Char)
  | [] => [[]]
  | '/' :: cs => [] :: betweenSlashes cs
  | c :: cs =>
    match betweenSlashes cs with
    | [] => [[c]]
    | piece :: pieces => (c :: piece) :: pieces

/-- The names on a path, without empty ones and single dots. -/
def pathNames (path : String) : List String :=
  ((betweenSlashes path.toList).filter fun name => name ≠ [] ∧ name ≠ ['.']).map String.ofList

/-- The slashes that a path starts with: none, one, or exactly two; more count as one. -/
def pathRoot (path : String) : String :=
  match path.toList.takeWhile (· = '/') with
  | [] => ""
  | ['/', '/'] => "//"
  | _ => "/"

/-- A path in its plainest form. -/
def plainPath (path : String) : String :=
  let plain := pathRoot path ++ "/".intercalate (pathNames path)
  if plain = "" then "." else plain

/-- What lies at a path.  A file may be there that must not be read, and a path may be too long for
anything to be looked for there. -/
inductive Content where
  | missing
  | folder
  | unreadable
  | file (text : String)
  | tooLong
  deriving DecidableEq, Repr

/-- A folder: where it lies, and what lies at the paths that start from it. -/
structure Folder where
  location : String
  content : String → Content

namespace Folder

/-- The most bytes of a name on a path. -/
def mostNameBytes : Nat := 255

/-- The most bytes of a path. -/
def mostPathBytes : Nat := 4095

/-- Whether a name is too long to be looked for. -/
def isLongName (name : String) : Bool :=
  mostNameBytes < name.utf8ByteSize

/-- What lies where a sequence of names leads from the top of a folder with the given files. -/
def contentAt (files : List (List String × String)) (names : List String) : Content :=
  match files.lookup names with
  | some text => .file text
  | none => if names = [] ∨ files.any fun file => names.isPrefixOf file.1 then .folder else .missing

/-- Follows names from a folder of which nothing is known but the folders around it. -/
def followOutside (names : List String) : Content :=
  match names.dropWhile (· = "..") with
  | [] => .folder
  | name :: _ => if isLongName name then .tooLong else .missing

/-- Follows names, one by one, from a place inside a folder with the given files.  Two dots lead back,
and only a folder can be left for another place. -/
def follow (files : List (List String × String)) (place : List String) : List String → Content
  | [] => contentAt files place
  | name :: names =>
    match contentAt files place with
    | .folder =>
      if name = ".." then
        if place = [] then followOutside names else follow files place.dropLast names
      else if isLongName name then .tooLong
      else follow files (place ++ [name]) names
    | _ => .missing

/-- A folder with the given files, each under its path.  At a path with a null character lies
nothing, however long it is. -/
def ofFiles (location : String) (files : List (String × String)) : Folder where
  location := location
  content path :=
    if '\x00' ∈ path.toList then .missing
    else if mostPathBytes < (plainPath path).utf8ByteSize then .tooLong
    else if pathRoot path = "" then
      follow (files.map fun file => (pathNames file.1, file.2)) [] (pathNames path)
    else followOutside (pathNames path)

end Folder

end LineCalculator
