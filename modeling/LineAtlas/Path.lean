/-!
# Paths

Paths of slash-separated names. Two spellings of one path have the same normal form: empty and `.`
components are dropped and `..` takes back the name before it. Two leading slashes are kept apart from one,
three or more count as one.
-/

namespace LineAtlas.Path

def pieces : List Char → List (List Char)
  | [] => [[]]
  | c :: cs =>
    if c = '/' then [] :: pieces cs
    else
      match pieces cs with
      | [] => [[c]]
      | piece :: rest => (c :: piece) :: rest

def components (path : String) : List String :=
  (pieces path.toList).map String.ofList

def isAbsolute (path : String) : Bool :=
  path.toList.head? == some '/'

def root (path : String) : String :=
  match path.toList with
  | '/' :: '/' :: '/' :: _ => "/"
  | '/' :: '/' :: _ => "//"
  | '/' :: _ => "/"
  | _ => ""

def push (absolute : Bool) (kept : List String) (piece : String) : List String :=
  if piece = "" ∨ piece = "." then kept
  else if piece = ".." then
    match kept with
    | [] => if absolute then [] else [".."]
    | last :: before => if last = ".." then ".." :: kept else before
  else piece :: kept

def normalize (path : String) : String :=
  let kept := ((components path).foldl (push (isAbsolute path)) []).reverse
  let text := root path ++ "/".intercalate kept
  if text = "" then "." else text

/-- The path as seen from a directory; an absolute path is not changed. -/
def join (directory path : String) : String :=
  if isAbsolute path then path
  else if directory = "" ∨ directory.toList.getLast? = some '/' then directory ++ path
  else directory ++ "/" ++ path

end LineAtlas.Path
