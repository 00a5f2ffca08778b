import Runbook.Text.Basic

/-!
UTF-8. Decoding splits bytes into characters and ill-formed runs: the longest start of a well-formed
sequence that breaks off, or one stray byte. Strict decoding refuses such runs, lenient decoding replaces
each by one character.
-/
namespace Runbook

abbrev Bytes := List UInt8

namespace Utf8

def encode (t : Text) : Bytes := t.flatMap String.utf8EncodeChar

/-- Where decoding stands between two bytes: at a character border, or inside a sequence with the
bits read so far, the bounds of the next byte and the number of bytes after that one. -/
inductive State where
  | idle
  | inside (bits : Nat) (lo hi : UInt8) (after : Nat)
deriving DecidableEq, Repr

/-- The first byte of a character: what it completes and where it leads. -/
def lead (b : UInt8) : List (Option Char) × State :=
  if b < 0x80 then ([some (Char.ofNat b.toNat)], .idle)
  else if b < 0xC2 then ([none], .idle)
  else if b < 0xE0 then ([], .inside (b.toNat - 0xC0) 0x80 0xBF 0)
  else if b = 0xE0 then ([], .inside 0 0xA0 0xBF 1)
  else if b = 0xED then ([], .inside 0xD 0x80 0x9F 1)
  else if b < 0xF0 then ([], .inside (b.toNat - 0xE0) 0x80 0xBF 1)
  else if b = 0xF0 then ([], .inside 0 0x90 0xBF 2)
  else if b < 0xF4 then ([], .inside (b.toNat - 0xF0) 0x80 0xBF 2)
  else if b = 0xF4 then ([], .inside 4 0x80 0x8F 2)
  else ([none], .idle)

/-- One byte: a byte that cannot continue the open sequence ends it as a run and starts afresh. -/
def step : State → UInt8 → List (Option Char) × State
  | .idle, b => lead b
  | .inside bits lo hi after, b =>
    if lo ≤ b ∧ b ≤ hi then
      let bits := bits * 64 + (b.toNat - 0x80)
      match after with
      | 0 => ([some (Char.ofNat bits)], .idle)
      | n + 1 => ([], .inside bits 0x80 0xBF n)
    else (none :: (lead b).1, (lead b).2)

/-- Characters in order, with `none` for each ill-formed run. -/
def scan : State → Bytes → List (Option Char)
  | .idle, [] => []
  | .inside .., [] => [none]
  | s, b :: rest => (step s b).1 ++ scan (step s b).2 rest

def decode (bs : Bytes) : Option Text := (scan .idle bs).mapM id

/-- The text of any bytes, with U+FFFD for each ill-formed run. -/
def decodeLenient (bs : Bytes) : Text := (scan .idle bs).map (·.getD '�')

end Utf8

end Runbook
