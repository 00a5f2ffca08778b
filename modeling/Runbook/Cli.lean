import Runbook.Run

/-!
The command line: what its arguments ask for, and doing it.
-/
namespace Runbook.Cli

inductive Request where
  | build (target : Option Path) (path : Path)
  | run (request : RunRequest)
  | init (workspace : Path)
  | version
  | help (topic : Option Text)

inductive UsageError where
  | mismatch (problem : Text)
  | missingValue (argument : Text)
deriving DecidableEq, Repr

inductive Pending where
  | target (value : Option Text)
  | operand (value : Text)

/-- What a command takes: an option for the target or not, one operand, and behind it any arguments
or none. `operand` is the name of the operand in messages. -/
structure Form where
  takesTarget : Bool
  operand : Text
  trailing : Bool

structure Collected where
  target : Option Text := none
  operand : Option Text := none
  args : List Text := []
  pending : Option Pending := none

def targetName : Text := "--target <TARGET>"

/-- Starts like an option; a dash alone is an operand. -/
def isOption (t : Text) : Bool := t.head? = some '-' && t.length > 1

def mismatch {α : Type} (problem : Text) : Except UsageError α := .error (.mismatch problem)

def unexpected {α : Type} (t : Text) : Except UsageError α :=
  mismatch ("unexpected argument '" ++ t ++ "' found")

/-- Checks the value that was named last: it must be there, a target may be given once, and neither
a target nor an operand may be empty. -/
def Collected.settle (form : Form) (c : Collected) : Except UsageError Collected :=
  match c.pending with
  | none => .ok c
  | some (.target none) => .error (.missingValue targetName)
  | some (.target (some value)) =>
    if c.target.isSome then mismatch ("the argument '" ++ targetName ++ "' cannot be used multiple times")
    else if value = [] then .error (.missingValue targetName)
    else .ok { c with target := some value, pending := none }
  | some (.operand value) =>
    if value = [] then .error (.missingValue form.operand)
    else .ok { c with operand := some value, pending := none }

def Collected.hasOperand (c : Collected) : Bool :=
  c.operand.isSome || c.pending matches some (.operand _)

inductive OptionKind where
  | helpFlag
  | target (value : Option Text)
  | unknown
deriving DecidableEq, Repr

/-- `lenient` tells that arguments which are not known may stand here as they are. Letters behind one
dash are read one after the other. -/
def optionKind (form : Form) (lenient : Bool) (t : Text) : OptionKind :=
  match t with
  | '-' :: '-' :: name =>
    if name = "help" then .helpFlag
    else if !form.takesTarget then .unknown
    else if name = "target" then .target none
    else
      match "target=".toList.isPrefixOf? name with
      | some value => .target (some value)
      | none => .unknown
  | _ =>
    let letters := t.drop 1
    if letters.head? = some 'h' ∧ (!lenient ∨ letters.all (· == 'h')) then .helpFlag else .unknown

/-- Collects options and operands. Behind the operand of a command that takes further arguments, the
first one that is no option known here starts them. Gives none where help is asked for. -/
def collect (form : Form) : List Text → Collected → Except UsageError (Option Collected)
  | [], c => return some (← c.settle form)
  | t :: rest, c => do
    let lenient := form.trailing && c.hasOperand
    let fill : Except UsageError (Option Collected) :=
      match c.pending with
      | some (.target none) => collect form rest { c with pending := some (.target (some t)) }
      | _ => do
        if lenient then return some { ← c.settle form with args := t :: rest }
        else if c.hasOperand then unexpected t
        else collect form rest { ← c.settle form with pending := some (.operand t) }
    if t = "--" then
      match rest with
      | [] => return some (← c.settle form)
      | first :: more =>
        if lenient then return some { ← c.settle form with args := rest }
        else if c.hasOperand then unexpected first
        else
          let c := { ← c.settle form with pending := some (.operand first) }
          match form.trailing, more with
          | _, [] => return some (← c.settle form)
          | true, _ => return some { ← c.settle form with args := more }
          | false, extra :: _ => unexpected extra
    else if isOption t then
      match optionKind form lenient t with
      | .helpFlag => do
        let _ ← c.settle form
        return none
      | .target value => do
        let c ← c.settle form
        let c := { c with pending := some (.target value) }
        if value.isSome then collect form rest (← c.settle form) else collect form rest c
      | .unknown => if lenient then fill else unexpected t
    else fill

def buildForm : Form := ⟨true, "[PATH]", false⟩

def runForm : Form := ⟨true, "<FILE>", true⟩

def initForm : Form := ⟨false, "[WORKSPACE]", false⟩

def Request.ofCommand (command : Text) (rest : List Text) : Except UsageError Request := do
  match String.ofList command with
  | "build" =>
    match ← collect buildForm rest {} with
    | none => return .help (some command)
    | some c => return .build (c.target.map Path.mk) ⟨c.operand.getD "./"⟩
  | "run" =>
    match ← collect runForm rest {} with
    | none => return .help (some command)
    | some c =>
      match c.operand with
      | none => mismatch "the following required arguments were not provided:\n  <FILE>"
      | some file => return .run ⟨⟨file⟩, c.target.map Path.mk, c.args⟩
  | "init" =>
    match ← collect initForm rest {} with
    | none => return .help (some command)
    | some c => return .init ⟨c.operand.getD "."⟩
  | _ => mismatch ("unrecognized subcommand '" ++ command ++ "'")

def commandNames : List Text := ["build", "run", "init", "help"]

/-- Reads the arguments. A source file in first place is short for running it. -/
def Request.parse (files : FileTree) (args : List Text) : Except UsageError Request :=
  match args with
  | [] => mismatch "a subcommand is required"
  | first :: rest =>
    let path : Path := ⟨first⟩
    if path.isSource ∧ files.isFile path then Request.ofCommand "run" args
    else
      match first with
      | '-' :: 'V' :: _ => .ok .version
      | '-' :: 'h' :: _ => .ok (.help none)
      | _ =>
        match String.ofList first with
        | "--version" => .ok .version
        | "--help" => .ok (.help none)
        | "help" =>
          match rest with
          | [] => .ok (.help none)
          | [topic] =>
            if topic ∈ commandNames then .ok (.help (some topic))
            else mismatch ("unrecognized subcommand '" ++ topic ++ "'")
          | _ :: further :: _ => mismatch ("unrecognized subcommand '" ++ further ++ "'")
        | _ => if isOption first then unexpected first else Request.ofCommand first rest

def usage : Option Text → Text
  | none => "Usage: jaiph <COMMAND>"
  | some command =>
    match String.ofList command with
    | "build" => "Usage: jaiph build [OPTIONS] [PATH]"
    | "run" => "Usage: jaiph run [OPTIONS] <FILE> [ARGS]..."
    | "init" => "Usage: jaiph init [WORKSPACE]"
    | _ => "Usage: jaiph <COMMAND>"

def helpLines : Option Text → List Text
  | none =>
    [ "Compile and run jaiph workflows", [], usage none, [], "Commands:",
      "  build  Compile one file, or every source file under a directory",
      "  run    Run the \x60default\x60 workflow of a file",
      "  init   Scaffold \x60.jaiph/\x60 in a workspace",
      "  help   Print this message or the help of the given subcommand(s)", [], "Options:",
      "  -h, --help     Print help", "  -V, --version  Print version" ]
  | some command => [usage (some command), [], "Options:", "  -h, --help  Print help"]

structure Outcome where
  code : Nat
  written : Written
  files : FileTree

def said (files : FileTree) (lines : List Text) : Outcome :=
  ⟨0, .toOut (lines.flatMap (· ++ ['\n'])), files⟩

def failed (files : FileTree) (written : Written) (message : Text) : Outcome :=
  ⟨1, written ++ .toErr (message ++ "\n"), files⟩

def Request.perform (s : Surroundings) (files : FileTree) : Request → Outcome
  | .version => said files [("jaiph " : Text) ++ Runbook.version]
  | .help topic => said files (helpLines topic)
  | .build target path =>
    match (Build.build path target).run files with
    | (.ok [], files) => said files ["no .jph files found"]
    | (.ok outputs, files) =>
      said files (outputs.map fun o => "built " ++ (Path.absolute files.cwd o.output).text)
    | (.error e, files) => failed files {} e.message
  | .init workspace =>
    let outcome := Scaffold.init files workspace
    match outcome.error with
    | none => ⟨0, .toOut outcome.report, outcome.tree⟩
    | some e => failed outcome.tree (.toOut outcome.report) e.message
  | .run request =>
    match (Run.run s request).run files with
    | (.ok (status, written), files) => ⟨if status.code < 256 then status.code else 1, written, files⟩
    | (.error e, files) => failed files {} e.message

def UsageError.message (command : Option Text) : UsageError → Text
  | mismatch problem =>
    "error: " ++ problem ++ "\n\n" ++ usage command ++ "\n\nFor more information, try '--help'.\n"
  | missingValue argument =>
    "error: a value is required for '" ++ argument ++
      "' but none was supplied\n\nFor more information, try '--help'.\n"

def execute (s : Surroundings) (files : FileTree) (args : List Text) : Outcome :=
  match Request.parse files args with
  | .ok request => request.perform s files
  | .error e => ⟨2, .toErr (e.message args.head?), files⟩

end Runbook.Cli
