import Runbook.Path
import Runbook.Text.Utf8

/-!
The shell works on bytes. A text of the shell holds one character for each byte, so that lengths and
patterns count bytes and no output is lost that is not valid text.
-/
namespace Runbook.Shell

def octets (t : Text) : Text := (Utf8.encode t).map fun b => Char.ofNat b.toNat

def ofBytes (bytes : Bytes) : Text := bytes.map fun b => Char.ofNat b.toNat

def toBytes (t : Text) : Bytes := t.map fun c => c.toNat.toUInt8

def decoded (t : Text) : Text := Utf8.decodeLenient (toBytes t)

end Runbook.Shell
