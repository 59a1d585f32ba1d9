import LineAtlas.Text.Template

/-!
# Faults

The reasons for which no answer can be given, with the words that tell them. The kind says where in the
work the fault arose; a fault reported by an outside inspection carries its own words.
-/

namespace LineAtlas

inductive FaultKind
  | general
  | objectLoad
  | dumpCommand
  | missingDebugInfo
  | structural
  | template
  | unknownGroup
  | noSuchInstruction
  | missingValue
  | emptySequence
  | notFromFile
  | numeral
  | overflow
  | undecodable
  deriving DecidableEq, Repr

/-- Whether a fault tells that an object cannot be loaded. Such a fault is reported; any other breaks off
what is being done. -/
def FaultKind.isReported : FaultKind → Bool
  | general | objectLoad | dumpCommand | missingDebugInfo | structural => true
  | template | unknownGroup | noSuchInstruction | missingValue | emptySequence | notFromFile | numeral
  | overflow | undecodable => false

inductive Fault
  | unreadableObject (path reason : String)
  | notAnObject (path reason : String)
  | noDebugInfo (path : String)
  | commandNotRun (command reason : String)
  | commandFailed (command : String) (status : Int) (complaint : String)
  | statementBeforeFiles (statement : String)
  | template (defect : Text.Template.Defect)
  | noSuchInstruction (index : Nat)
  | missingValue
  | emptySequence
  | notFromFile
  | numeralTooLong (digits : Nat)
  | quotientTooLarge
  | undecodableOutput (command : String)
  | reported (kind : FaultKind) (message : String)
  deriving DecidableEq, Repr

namespace Fault

def kind : Fault → FaultKind
  | unreadableObject .. => .objectLoad
  | notAnObject .. => .missingDebugInfo
  | noDebugInfo .. => .missingDebugInfo
  | commandNotRun .. => .dumpCommand
  | commandFailed .. => .dumpCommand
  | statementBeforeFiles .. => .structural
  | template .malformed => .template
  | template (.unknownGroup _) => .unknownGroup
  | noSuchInstruction _ => .noSuchInstruction
  | missingValue => .missingValue
  | emptySequence => .emptySequence
  | notFromFile => .notFromFile
  | numeralTooLong _ => .numeral
  | quotientTooLarge => .overflow
  | undecodableOutput _ => .undecodable
  | reported k _ => k

def message : Fault → String
  | unreadableObject path reason => s!"Could not read object file {path}: {reason}"
  | notAnObject path reason => s!"Invalid ELF file {path}: {reason}"
  | noDebugInfo path => s!"No DWARF debug information in {path}"
  | commandNotRun command reason => s!"Failed to run {command}: {reason}"
  | commandFailed command status complaint =>
    s!"{command} exited with status {status}: {complaint}"
  | statementBeforeFiles statement =>
    s!"Line number statement before any file table: '{statement}'"
  | template .malformed => "malformed replacement template"
  | template (.unknownGroup name) => s!"unknown group name '{name}'"
  | noSuchInstruction index => s!"a listing has no instruction {index}"
  | missingValue => "a value is missing"
  | emptySequence => "a sequence without rows has no bounds"
  | notFromFile => "Snapshot was not loaded from a file"
  | numeralTooLong digits => s!"a numeral of {digits} digits is too long to be read"
  | quotientTooLarge => "a quotient is too large for a double"
  | undecodableOutput command => s!"the output of {command} is not text"
  | reported _ text => text

end Fault

end LineAtlas
