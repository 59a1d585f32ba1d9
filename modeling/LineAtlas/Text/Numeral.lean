import LineAtlas.Fault
import LineAtlas.Text.Scan

/-!
# Decimal numbers in dumps

A number is recognised by its digits and read only where it is used. One with too many digits, leading zeros
among them, is a fault then, whatever it stands for.
-/

namespace LineAtlas.Text

structure Numeral where
  digits : List Char
  deriving DecidableEq, Repr

namespace Numeral

def value (n : Numeral) : Nat :=
  decimalValue n.digits

def text (n : Numeral) : String :=
  String.ofList n.digits

def read (n : Numeral) : Except Fault Nat :=
  if n.digits.length ≤ maxDigits then .ok n.value else .error (.numeralTooLong n.digits.length)

theorem read_eq_ok_iff {n : Numeral} {v : Nat} :
    n.read = .ok v ↔ n.digits.length ≤ maxDigits ∧ n.value = v := by
  rw [read]
  split <;> simp [*]

theorem read_eq_error_iff {n : Numeral} {f : Fault} :
    n.read = .error f ↔ maxDigits < n.digits.length ∧ f = .numeralTooLong n.digits.length := by
  rw [read]
  split
  · simp [Nat.not_lt.2 ‹_›]
  · simp [Nat.not_le.1 ‹_›, eq_comm]

end Numeral

def numeral? (cs : List Char) : Option (Numeral × List Char) :=
  (digits? cs).map fun (ds, rest) => (⟨ds⟩, rest)

end LineAtlas.Text
