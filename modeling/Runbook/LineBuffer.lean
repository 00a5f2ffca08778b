import Runbook.Text.Utf8

/-!
Cutting a stream of bytes into lines while it arrives in chunks.
-/
namespace Runbook

structure LineBuffer where
  pending : Bytes := []
deriving DecidableEq, Repr

namespace LineBuffer

/-- The complete lines of the bytes, without their line feeds, and what is left. -/
def cutLines : Bytes → List Bytes × Bytes
  | [] => ([], [])
  | b :: rest =>
    match cutLines rest with
    | (lines, left) =>
      if b = 10 then ([] :: lines, left)
      else
        match lines with
        | [] => ([], b :: left)
        | line :: more => ((b :: line) :: more, left)

/-- The text of a line; one carriage return at its end is dropped. -/
def decodeLine (bytes : Bytes) : Text :=
  Utf8.decodeLenient (if bytes.getLast? = some 13 then bytes.dropLast else bytes)

def push (b : LineBuffer) (chunk : Bytes) : List Text × LineBuffer :=
  let (lines, left) := cutLines (b.pending ++ chunk)
  (lines.map decodeLine, ⟨left⟩)

def finish (b : LineBuffer) : Option Text × LineBuffer :=
  (if b.pending = [] then none else some (decodeLine b.pending), ⟨[]⟩)

end LineBuffer

end Runbook
