import LineAtlas.Disk
import LineAtlas.Logged
import LineAtlas.Text.Lines
import LineAtlas.Text.Utf8

/-!
# Source files

Source files are recorded by the compiler under paths that need not be absolute. A relative path is tried in
the compilation directory, the search directories and the working directory. What has been read under a
path is remembered; a file that was not found is looked for again.
-/

namespace LineAtlas

open Text

structure SourceReader where
  compilationDirectory : Option String
  searchDirectories : List String
  cache : Keyed String (List String)

namespace SourceReader

def new (compilationDirectory : Option String) (searchDirectories : List String) : SourceReader :=
  ⟨compilationDirectory, searchDirectories, []⟩

/-- The directories to try before the working directory; an empty compilation directory counts as unknown. -/
def namedDirectories (r : SourceReader) : List String :=
  (r.compilationDirectory.filter (· ≠ "")).toList ++ r.searchDirectories

def bases (r : SourceReader) (workingPath : String) : List String :=
  r.namedDirectories ++ [workingPath]

def choices (r : SourceReader) (workingPath path : String) : List String :=
  if Path.isAbsolute path then [path] else (r.bases workingPath).map fun base => Path.join base path

def resolve? (r : SourceReader) (v : FileView) (path : String) : Option String :=
  (r.choices v.workingPath path).find? v.isFile

def decodeLines (bytes : List UInt8) : List String :=
  (splitLines (Utf8.decodeReplacing bytes)).map String.ofList

def read (r : SourceReader) (v : FileView) (path : String) : SourceReader × Option (List String) :=
  match r.cache.get? path with
  | some lines => (r, some lines)
  | none =>
    match (r.resolve? v path).bind v.contents? with
    | none => (r, none)
    | some bytes =>
      let lines := decodeLines bytes
      ({ r with cache := r.cache.put path lines }, some lines)

def missingNotice (path : String) : Notice :=
  ⟨.warning, s!"Source file not found: {path}"⟩

def readNotices (path : String) (lines : Option (List String)) : List Notice :=
  if lines.isSome then [] else [missingNotice path]

end SourceReader

end LineAtlas
