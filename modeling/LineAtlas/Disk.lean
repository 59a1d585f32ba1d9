import LineAtlas.Keyed
import LineAtlas.Path

/-!
# Files and directories

The part of a file system that source files are looked up in. Places are lists of names from the root. A
path is followed component by component, so `..` leads out of a directory only if that exists, and a
trailing slash asks for a directory. A path that is too long leads nowhere.
-/

namespace LineAtlas

structure FileView where
  workingPath : String
  contents? : String → Option (List UInt8)

namespace FileView

def isFile (v : FileView) (path : String) : Bool :=
  (v.contents? path).isSome

end FileView

structure Disk where
  workingDirectory : List String
  directories : List (List String)
  files : Keyed (List String) (List UInt8)

namespace Disk

/-- Every directory on the way to a place, the root first and the place itself last. -/
def ancestors (place : List String) : List (List String) :=
  (List.range (place.length + 1)).map fun n => place.take n

def empty (workingDirectory : List String) : Disk :=
  ⟨workingDirectory, ancestors workingDirectory, []⟩

def workingPath (d : Disk) : String :=
  "/" ++ "/".intercalate d.workingDirectory

def enter? (d : Disk) (place : List String) (piece : String) : Option (List String) :=
  if place ∉ d.directories then none
  else if piece = "" ∨ piece = "." then some place
  else if piece = ".." then some place.dropLast
  else
    let next := place ++ [piece]
    if next ∈ d.directories ∨ (d.files.get? next).isSome then some next else none

def longestPath : Nat := 4095

def locate? (d : Disk) (path : String) : Option (List String) :=
  if path = "" ∨ longestPath < path.utf8ByteSize then none
  else
    (Path.components path).foldlM d.enter? (if Path.isAbsolute path then [] else d.workingDirectory)

def contents? (d : Disk) (path : String) : Option (List UInt8) :=
  (d.locate? path).bind d.files.get?

def view (d : Disk) : FileView :=
  ⟨d.workingPath, d.contents?⟩

def target (d : Disk) (path : String) : List String :=
  let start := if Path.isAbsolute path then [] else d.workingDirectory
  ((Path.components path).foldl (Path.push true) start.reverse).reverse

def write (d : Disk) (path : String) (bytes : List UInt8) : Disk :=
  let place := d.target path
  { d with
    directories := d.directories ++
      (ancestors place.dropLast).filter fun a => !d.directories.contains a
    files := d.files.put place bytes }

def remove (d : Disk) (path : String) : Disk :=
  let place := d.target path
  { d with files := d.files.filter fun (p, _) => p != place }

end Disk

end LineAtlas
