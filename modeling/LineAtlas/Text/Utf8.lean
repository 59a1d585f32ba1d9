/-!
# UTF-8 with damage

Bytes as characters. Where the bytes are not well formed, each longest start of a character that is broken
off, and each byte that starts none, counts as one damaged place: it is shown as a replacement character
or left out.
-/

namespace LineAtlas.Text.Utf8

structure Pending where
  bits : Nat
  low : Nat
  high : Nat
  missing : Nat

inductive Opening
  | whole (c : Char)
  | lead (p : Pending)
  | damage

/-- The second byte is limited after some leads, so that no character has two encodings, none is a
surrogate and none lies beyond the last code point. -/
def opening (b : Nat) : Opening :=
  if b < 0x80 then .whole (Char.ofNat b)
  else if b < 0xC2 then .damage
  else if b < 0xE0 then .lead ⟨b - 0xC0, 0x80, 0xBF, 1⟩
  else if b < 0xF0 then
    .lead ⟨b - 0xE0, if b = 0xE0 then 0xA0 else 0x80, if b = 0xED then 0x9F else 0xBF, 2⟩
  else if b < 0xF5 then
    .lead ⟨b - 0xF0, if b = 0xF0 then 0x90 else 0x80, if b = 0xF4 then 0x8F else 0xBF, 3⟩
  else .damage

/-- The characters of the bytes, `none` for each damaged place. -/
def decodeFrom : Option Pending → List UInt8 → List (Option Char)
  | none, [] => []
  | some _, [] => [none]
  | pending, b :: bs =>
    let fresh : Unit → List (Option Char) := fun _ =>
      match opening b.toNat with
      | .whole c => some c :: decodeFrom none bs
      | .lead p => decodeFrom (some p) bs
      | .damage => none :: decodeFrom none bs
    match pending with
    | none => fresh ()
    | some p =>
      if p.low ≤ b.toNat ∧ b.toNat ≤ p.high then
        let bits := 64 * p.bits + b.toNat % 64
        if p.missing ≤ 1 then some (Char.ofNat bits) :: decodeFrom none bs
        else decodeFrom (some ⟨bits, 0x80, 0xBF, p.missing - 1⟩) bs
      else none :: fresh ()

def decode (bytes : List UInt8) : List (Option Char) :=
  decodeFrom none bytes

def decodeReplacing (bytes : List UInt8) : List Char :=
  (decode bytes).map fun c => c.getD '\uFFFD'

def decodeDropping (bytes : List UInt8) : List Char :=
  (decode bytes).filterMap id

end LineAtlas.Text.Utf8
