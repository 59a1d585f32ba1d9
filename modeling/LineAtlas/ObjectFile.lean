import LineAtlas.Logged
import LineAtlas.Text.Utf8

/-!
# Inspecting an object

Before an object is dumped it is looked at: whether it can be opened, whether it is an object at all and
whether it has debug information. The compilation directory is that of the first compilation unit that
states one; a damaged unit before it leaves the directory unknown.
-/

namespace LineAtlas

open Text

inductive UnitDirectory
  | silent
  | text (value : String)
  | bytes (value : List UInt8)
  | otherValue
  | damaged (reason : String)

inductive ObjectFile
  | unreadable (reason : String)
  | invalid (reason : String)
  | withoutDebugInfo
  | damagedDebugInfo (machine reason : String)
  | object (machine : String) (units : List UnitDirectory)

structure ObjectInfo where
  path : String
  machine : String
  compilationDirectory : Option String
  deriving DecidableEq, Repr

namespace ObjectFile

def damageNotice (reason : String) : Notice :=
  ⟨.warning, s!"Could not read compilation directory: {reason}"⟩

/-- The directory of the first unit that states one; a value that is no text states none. -/
def firstDirectory : List UnitDirectory → List Notice × Option String
  | [] => ([], none)
  | .silent :: rest => firstDirectory rest
  | .text value :: _ => ([], some value)
  | .bytes value :: _ => ([], some (String.ofList (Utf8.decodeDropping value)))
  | .otherValue :: _ => ([], none)
  | .damaged reason :: _ => ([damageNotice reason], none)

def conclude (path machine : String) (notices : List Notice) (directory : Option String) :
    Logged ObjectInfo := do
  Logged.say notices
  let shown := directory.getD "None"
  Logged.notice .debug s!"Object {path}: machine {machine}, compilation directory {shown}"
  return ⟨path, machine, directory⟩

def inspect (path : String) : ObjectFile → Logged ObjectInfo
  | .unreadable reason => do
    Logged.notice .error s!"Could not read object file {path}: {reason}"
    Logged.fail (.unreadableObject path reason)
  | .invalid reason => do
    Logged.notice .error s!"Invalid ELF file {path}: {reason}"
    Logged.fail (.notAnObject path reason)
  | .withoutDebugInfo => Logged.fail (.noDebugInfo path)
  | .damagedDebugInfo machine reason => conclude path machine [damageNotice reason] none
  | .object machine units =>
    let (notices, directory) := firstDirectory units
    conclude path machine notices directory

end ObjectFile

end LineAtlas
