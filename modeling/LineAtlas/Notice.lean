/-!
# Notices

What a run has to say besides its answer, each with its severity.
-/

namespace LineAtlas

inductive Severity
  | debug
  | info
  | warning
  | error
  deriving DecidableEq, Repr

namespace Severity

def rank : Severity → Nat
  | debug => 0
  | info => 1
  | warning => 2
  | error => 3

def label : Severity → String
  | debug => "DEBUG"
  | info => "INFO"
  | warning => "WARNING"
  | error => "ERROR"

end Severity

structure Notice where
  severity : Severity
  text : String
  deriving DecidableEq, Repr

namespace Notice

def line (n : Notice) : String :=
  n.severity.label ++ ": " ++ n.text

def atLeast (s : Severity) (ns : List Notice) : List Notice :=
  ns.filter fun n => s.rank ≤ n.severity.rank

end Notice

end LineAtlas
