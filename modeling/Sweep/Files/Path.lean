/-!
# Paths

A path names a file by the directories that lead to it, with slashes between them. The functions
here work on the text of a path alone: empty components and dots in between do not count, and the
text of what remains is kept as it was written.
-/

namespace Sweep.Path

/-- Cuts a path at its slashes. -/
def cut : List Char → List (List Char)
  | [] => [[]]
  | c :: rest =>
    if c = '/' then [] :: cut rest
    else
      match cut rest with
      | [] => [[c]]
      | piece :: pieces => (c :: piece) :: pieces

/-- The pieces between the slashes of a path that are not empty. -/
def pieces (path : String) : List String :=
  ((cut path.toList).filter fun piece => !piece.isEmpty).map String.ofList

def isAbsolute (path : String) : Bool := path.toList.head? == some '/'

/-- Whether a path asks for a directory by ending in a slash. -/
def endsInSlash (path : String) : Bool := path.toList.getLast? == some '/'

/-- A path as seen from a directory. -/
def join (directory path : String) : String :=
  if isAbsolute path || directory.isEmpty then path
  else if endsInSlash directory then directory ++ path
  else directory ++ "/" ++ path

/-- The number of components of a path: the root, a leading dot, and every other piece that is not
a dot. -/
def componentCount (path : String) : Nat :=
  let counted := ((pieces path).filter fun piece => piece != ".").length
  if isAbsolute path || (pieces path).head? == some "." then counted + 1 else counted

/-- A path, given from its end, without slashes and dots at the end. -/
def trimEnd : List Char → List Char
  | '/' :: rest => if rest.isEmpty then ['/'] else trimEnd rest
  | '.' :: '/' :: rest => trimEnd ('/' :: rest)
  | path => path
termination_by path => path.length

/-- The last component of a path, unless it leads to a directory by dots or is the root. -/
def fileName? (path : String) : Option String :=
  let name := ((trimEnd path.toList.reverse).takeWhile fun c => c != '/').reverse
  if name.isEmpty || name == ['.'] || name == ['.', '.'] then none
  else some (String.ofList name)

/-- The path without its last component. -/
def parent? (path : String) : Option String :=
  let trimmed := trimEnd path.toList.reverse
  if trimmed.isEmpty || trimmed == ['/'] then none
  else
    let above := trimmed.dropWhile fun c => c != '/'
    some (String.ofList (trimEnd above).reverse)

/-- A name from its end, cut at its last dot; a dot at the front does not count. -/
def splitExtension (reversedName : List Char) : List Char × Option (List Char) :=
  let after := reversedName.takeWhile fun c => c != '.'
  match reversedName.dropWhile fun c => c != '.' with
  | _ :: stem => if stem.isEmpty then (reversedName, none) else (stem, some after)
  | [] => (reversedName, none)

/-- What follows the last dot of a file's name. -/
def extension? (path : String) : Option String :=
  (fileName? path).bind fun name =>
    (splitExtension name.toList.reverse).2.map fun e => String.ofList e.reverse

/-- The path with another extension of its file's name, if it names a file. -/
def withExtension (path extension : String) : String :=
  match fileName? path with
  | none => path
  | some name =>
    let trimmed := trimEnd path.toList.reverse
    let stem := (splitExtension name.toList.reverse).1
    let above := trimmed.drop name.length
    String.ofList (above.reverse ++ stem.reverse) ++ "." ++ extension

end Sweep.Path
