import Runbook.Source.Line
import Runbook.Source.Module
import Runbook.Source.ParseError
import Runbook.Text.Lines

/-!
Reading a source text into a module, one line after the other. Between two lines the reader holds
the module read so far, the comments that wait for a declaration, and the block it is in.
-/
namespace Runbook

structure Heading where
  name : Text
  comments : List Text
  exported : Bool
  line : Nat
deriving DecidableEq, Repr

def Heading.loc (h : Heading) : Location := ⟨h.line, 1⟩

/-- The block that the next line belongs to. A conditional or a prompt lies in a workflow with the
steps read before it. -/
inductive Block where
  | top
  | rule (head : Heading) (commands : List Text)
  | function (head : Heading) (commands : List Text)
  | workflow (head : Heading) (steps : List Step)
  | conditional (head : Heading) (steps : List Step) (line : Nat) (rule : Reference)
    (commands : List ShellLine)
  | conditionalEnd (head : Heading) (steps : List Step) (line : Nat) (rule workflow : Reference)
  | prompt (head : Heading) (steps : List Step) (loc : Location) (text : Text)
deriving DecidableEq, Repr

structure Reader where
  module : Module
  comments : List Text
  block : Block
deriving DecidableEq, Repr

variable (r : Reader) (head : Heading)

namespace Reader

def fail {α : Type} (line col : Nat) (cause : ParseCause) : Except ParseError α :=
  .error ⟨⟨line, col⟩, cause⟩

def start (file : Path) : Reader := ⟨.empty file, [], .top⟩

/-- The names exported so far, with that of a finished declaration if it is exported. -/
def exportedWith : List Text :=
  if head.exported then r.module.exported ++ [head.name] else r.module.exported

def routine (commands : List Text) : Routine :=
  ⟨head.name, head.comments, commands, head.loc⟩

def closeRule (commands : List Text) : Reader :=
  { r with
    module := { r.module with
      exported := r.exportedWith head
      rules := r.module.rules ++ [routine head commands] }
    block := .top }

def closeFunction (commands : List Text) : Reader :=
  { r with
    module := { r.module with functions := r.module.functions ++ [routine head commands] }
    block := .top }

def closeWorkflow (steps : List Step) : Reader :=
  { r with
    module := { r.module with
      exported := r.exportedWith head
      workflows := r.module.workflows ++ [⟨head.name, head.comments, steps, head.loc⟩] }
    block := .top }

def openBlock (line : Nat) (comments : List Text) (text : Text) (exported : Bool) (decl : Text) :
    Except ParseError Block :=
  let word := decl.firstWord
  let heading (name : Text) : Heading := ⟨name, comments, exported, line⟩
  if word = "rule" then
    match declaredName "rule" false decl with
    | some name => .ok (.rule (heading name) [])
    | none => fail line 1 .ruleForm
  else if word = "function" then
    match declaredName "function" true decl with
    | some name => if exported then fail line 1 .functionForm else .ok (.function (heading name) [])
    | none => fail line 1 .functionForm
  else if word = "workflow" then
    match declaredName "workflow" false decl with
    | some name => .ok (.workflow (heading name) [])
    | none => fail line 1 .workflowForm
  else fail line 1 (.unknownStatement text)

/-- A line outside all blocks. The first line may name an interpreter. -/
def topLine (line : Nat) (raw : Text) : Except ParseError Reader :=
  let text := raw.trim
  if line = 1 ∧ text.startsWith "#!" then .ok r
  else
    match TopLine.of text with
    | .blank => .ok { r with comments := [] }
    | .comment => .ok { r with comments := r.comments ++ [text] }
    | .importing rest =>
      match importParts rest with
      | some (path, owner) =>
        .ok { r with
          module := { r.module with
            imports := r.module.imports ++ [⟨path, owner, ⟨line, keywordCol "import" raw⟩⟩] }
          comments := [] }
      | none => fail line 1 .importForm
    | .declaration exported decl =>
      (openBlock line r.comments text exported decl).map fun block =>
        { r with comments := [], block := block }

def ruleLine (commands : List Text) (line : Nat) (raw : Text) :
    Except ParseError Reader :=
  let text := raw.trim
  if text = [] then .ok r
  else if text = ['}'] then .ok (r.closeRule head commands)
  else if !isComment text && (afterKeyword "run" text).isSome then
    fail line (keywordCol "run" raw) .ruleRuns
  else .ok { r with block := .rule head (commands ++ [text]) }

/-- A line inside a function; a leading `run` is dropped. -/
def functionLine (commands : List Text) (raw : Text) : Reader :=
  let text := raw.trim
  if text = [] then r
  else if text = ['}'] then r.closeFunction head commands
  else
    let command := if isComment text then text else (afterKeyword "run" text).getD text
    { r with block := .function head (commands ++ [command]) }

def promptStep (steps : List Step) (loc : Location) (text : Text)
    (line : Nat) (raw rest : Text) : Except ParseError Reader :=
  if rest.trim = [] then .ok { r with block := .workflow head (steps ++ [.prompt text loc]) }
  else fail line (raw.byteLength - rest.trimStart.byteLength + 1) .promptTail

def openPrompt (steps : List Step) (line : Nat) (raw : Text) :
    Except ParseError Reader :=
  let (before, after) := (Text.cut "prompt" raw).getD ([], raw)
  let loc : Location := ⟨line, before.byteLength + 1⟩
  match after.trimStart with
  | '"' :: rest =>
    match cutQuote [] rest with
    | some (text, tail) => r.promptStep head steps loc text line raw tail
    | none => .ok { r with block := .prompt head steps loc rest }
  | _ => fail line loc.col .promptForm

def promptLine (steps : List Step) (loc : Location) (text : Text)
    (line : Nat) (raw : Text) : Except ParseError Reader :=
  match cutQuote [] raw with
  | some (more, tail) => r.promptStep head steps loc (text ++ '\n' :: more) line raw tail
  | none => .ok { r with block := .prompt head steps loc (text ++ '\n' :: raw) }

def workflowLine (steps : List Step) (line : Nat) (raw : Text) :
    Except ParseError Reader :=
  let text := raw.trim
  let push (s : Step) : Except ParseError Reader :=
    .ok { r with block := .workflow head (steps ++ [s]) }
  match BodyLine.of text with
  | .blank => .ok r
  | .close => .ok (r.closeWorkflow head steps)
  | .comment | .shell => push (.shell text ⟨line, 1⟩)
  | .conditional rule =>
    .ok { r with block := .conditional head steps line ⟨rule, ⟨line, keywordCol "ensure" raw⟩⟩ [] }
  | .prompt => r.openPrompt head steps line raw
  | .ensure body =>
    let (rule, args) := ensureParts body
    if isReference rule then push (.ensure ⟨rule, ⟨line, keywordCol "ensure" raw⟩⟩ args)
    else fail line 1 .ensureForm
  | .run target =>
    if isReference target then push (.run ⟨target, ⟨line, keywordCol "run" raw⟩⟩)
    else fail line 1 .runForm

def conditionalRun (commands : List ShellLine) (text : Text) : Option Text :=
  if commands = [] then (afterKeyword "run" text).filter isReference else none

def conditionalLine (steps : List Step) (start : Nat)
    (rule : Reference) (commands : List ShellLine) (line : Nat) (raw : Text) : Reader :=
  let text := raw.trim
  if text = [] ∨ isComment text then r
  else if text = "fi" then
    { r with block := .workflow head (steps ++ [.unlessShell rule commands]) }
  else
    match conditionalRun commands text with
    | some target =>
      let workflow : Reference := ⟨target, ⟨line, keywordCol "run" raw⟩⟩
      { r with block := .conditionalEnd head steps start rule workflow }
    | none =>
      let commands := commands ++ [⟨text, ⟨line, indentCol raw⟩⟩]
      { r with block := .conditional head steps start rule commands }

def conditionalEndLine (steps : List Step) (rule workflow : Reference)
    (line : Nat) (raw : Text) : Except ParseError Reader :=
  let text := raw.trim
  if text = [] ∨ isComment text then .ok r
  else if text = "fi" then
    .ok { r with block := .workflow head (steps ++ [.unlessRun rule workflow]) }
  else fail line 1 .conditionalEnd

def step (line : Nat) (raw : Text) : Except ParseError Reader :=
  match r.block with
  | .top => r.topLine line raw
  | .rule head commands => r.ruleLine head commands line raw
  | .function head commands => .ok (r.functionLine head commands raw)
  | .workflow head steps => r.workflowLine head steps line raw
  | .conditional head steps start rule commands =>
    .ok (r.conditionalLine head steps start rule commands line raw)
  | .conditionalEnd head steps _ rule workflow =>
    r.conditionalEndLine head steps rule workflow line raw
  | .prompt head steps loc text => r.promptLine head steps loc text line raw

def steps (r : Reader) (line : Nat) : List Text → Except ParseError Reader
  | [] => .ok r
  | raw :: rest => r.step line raw >>= fun r => r.steps (line + 1) rest

/-- The end of the source: no block may be open. -/
def finish : Except ParseError Module :=
  match r.block with
  | .top => .ok r.module
  | .rule head _ => fail head.line 1 (.openRule head.name)
  | .function head _ => fail head.line 1 (.openFunction head.name)
  | .workflow head _ => fail head.line 1 (.openWorkflow head.name)
  | .conditional _ _ start .. => fail start 1 .openConditional
  | .conditionalEnd _ _ start .. => fail start 1 .openConditional
  | .prompt _ _ loc _ => .error ⟨loc, .openPrompt⟩

end Reader

/-- The module that a source text declares. `file` is recorded only. -/
def Module.parse (file : Path) (source : Text) : Except ParseError Module :=
  (Reader.start file).steps 1 source.lines >>= Reader.finish

end Runbook
