import Runbook.Text.Blank

/-!
How the bodies of rules are kept from changing files.
-/
namespace Runbook

inductive Isolation where
  | namespaced
  | passthrough
deriving DecidableEq, Repr

namespace Isolation

def name : Isolation → Text
  | namespaced => "privileged-namespace"
  | passthrough => "passthrough"

def mode : Isolation → Text
  | namespaced => "namespace"
  | passthrough => "none"

structure Host where
  linux : Bool
  commands : List Text
  passwordlessSudo : Bool

def select (h : Host) : Isolation :=
  if h.linux && h.commands.contains "unshare" && h.commands.contains "sudo" && h.passwordlessSudo then
    namespaced
  else passthrough

def choose (value : Option Text) (h : Host) : Isolation :=
  match value.map Text.trim with
  | some v =>
    if v = namespaced.mode then namespaced
    else if v = passthrough.mode then passthrough
    else select h
  | none => select h

end Isolation

end Runbook
