import Runbook.Program
import Runbook.Shell.Startup

/-!
The shell and the programs tied together: the shell starts programs, and programs start other ones, a
shell among them.
-/
namespace Runbook.Interpreter
open Kernel Shell

def shellNames : List Text := ["bash", "sh"]

def become (e : Engine) (path : Text) (args : List Text) (env : Environment) : Proc Unit := do
  let found ← Proc.call fun pid => do
    return (← Sys.disk).content (← Sys.stat pid true path)
  match found with
  | .ok (.program name) =>
    if name ∈ shellNames then Startup.start e args env
    else
      match Program.table.lookup name with
      | some program => do
        program ⟨args.headD name, args.drop 1, env, e.become⟩
        Proc.exit 0
      | none => Proc.exit 127
  | _ => Proc.exit 127

def engine : Nat → Engine
  | 0 => ⟨fun _ => pure (), fun _ _ => pure (), fun _ _ => pure (), fun _ _ _ => Proc.exit 126⟩
  | n + 1 =>
    { run := fun c => Execution.run (engine n) c
      runText := fun source t => RunText.run (engine n) source t
      runWords := fun m ws => Simple.runWords (engine n) m ws
      become := fun path args env => become (engine n) path args env }

def depth : Nat := 100000

def shell (args : List Text) (env : Environment) : Proc Unit := Startup.start (engine depth) args env

end Runbook.Interpreter
