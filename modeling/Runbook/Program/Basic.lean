import Runbook.Shell.Engine

/-!
What all programs share: how they are started, what they say when something fails, their options and
their output.
-/
namespace Runbook.Program
open Kernel
open Shell (Environment)

/-- What a program is given: the name it was started by, its arguments, its environment, and how to
become another program. -/
structure Launch where
  name : Text
  args : List Text
  env : Environment
  become : (path : Text) → (args : List Text) → Environment → Proc Unit

variable (l : Launch)

/-! How names are written in messages. -/

def isMarked (isFirst isAlone : Bool) (c : Char) : Bool :=
  c ∈ (" !\"$&()*;<=>[^`|?'\\" : Text) || ((c == '#' || c == '~') && isFirst) ||
    ((c == '\x7b' || c == '\x7d') && isAlone)

def isTame (isFirst isAlone : Bool) (c : Char) : Bool :=
  c.isAlphanum || c ∈ ("%+,-./:]_' " : Text) || ((c == '#' || c == '~') && isFirst) ||
    ((c == '\x7b' || c == '\x7d') && isAlone)

def escapeOf (c : Char) : Text :=
  match c.toNat with
  | 7 => "\\a"
  | 8 => "\\b"
  | 9 => "\\t"
  | 10 => "\\n"
  | 11 => "\\v"
  | 12 => "\\f"
  | 13 => "\\r"
  | _ => Shell.octalEscape c

/-- The inside of single quotes. Escapes stand in quotes of their own; `isOpen` tells that such quotes
are open. -/
def quotedFrom (isOpen : Bool) : Text → Text
  | [] => []
  | c :: rest =>
    if Shell.isPrintable c then
      let shown : Text := if c = '\'' then "'\\''" else [c]
      (if isOpen then "''".toList else []) ++ shown ++ quotedFrom false rest
    else (if isOpen then [] else "'$'".toList) ++ escapeOf c ++ quotedFrom true rest

def quoted (t : Text) : Text :=
  let isAlone := t.length == 1
  let marks := t.zipIdx.map fun (c, i) => isTame (i == 0) isAlone c
  if '\'' ∈ t ∧ marks.all id then '"' :: t ++ ['"']
  else '\'' :: quotedFrom false t ++ ['\'']

def shown (t : Text) : Text :=
  let isAlone := t.length == 1
  let isPlain := t.zipIdx.all fun (c, i) =>
    Shell.isPrintable c && c != ':' && !isMarked (i == 0) isAlone c
  if t ≠ [] ∧ isPlain then t else quoted t

def cited (t : Text) : Text :=
  let one (c : Char) : Text :=
    if c = '\'' ∨ c = '\\' then ['\\', c] else if Shell.isPrintable c then [c] else escapeOf c
  '\'' :: t.flatMap one ++ ['\'']

/-! Messages. -/

def say (t : Text) : Proc Unit := do
  let _ ← Proc.write 2 (l.name ++ ": " ++ t ++ ['\n'])

def fail {α : Type} (t : Text) (status : Nat := 1) : Proc α := do
  say l t
  Proc.exit status

def hint : Text := "Try '" ++ l.name ++ " --help' for more information.\n"

def misuse {α : Type} (t : Text) (status : Nat := 1) : Proc α := do
  let _ ← Proc.write 2 (l.name ++ ": " ++ t ++ '\n' :: hint l)
  Proc.exit status

def emit (t : Text) (status : Nat := 1) : Proc Unit := do
  if t = [] then return ()
  match ← Proc.write 1 t with
  | .ok () => return ()
  | .error f => fail l ("write error: " ++ f.message) status

def done {α : Type} (ok : Bool) : Proc α := Proc.exit (if ok then 0 else 1)

/-! Options. -/

inductive Takes where
  | nothing
  | value
  | maybe

/-- The options that a program knows: letters, and long names with the key they are known by. -/
structure OptionForm where
  letters : List (Char × Takes)
  names : List (Text × Text × Takes)

def lettersOf : Text → List (Char × Takes)
  | [] => []
  | c :: ':' :: ':' :: rest => (c, .maybe) :: lettersOf rest
  | c :: ':' :: rest => (c, .value) :: lettersOf rest
  | c :: rest => (c, .nothing) :: lettersOf rest

def longOf (t : Text) : Text × Text × Takes :=
  let (head, key) := (Text.cutAt (· == '=') t).getD (t, [])
  let name := head.takeWhile (· != ':')
  let takes := if head.length = name.length then Takes.nothing else if head.length = name.length + 1 then .value else .maybe
  (name, if key = [] then name else key, takes)

def OptionForm.of (letters names : Text) : OptionForm :=
  ⟨lettersOf letters, ((names.splitOn ' ').filter (· ≠ [])).map longOf⟩

structure Given where
  options : List (Text × Text) := []
  operands : List Text := []

namespace Given

variable (g : Given)

def has (key : Text) : Bool := g.options.any (·.1 = key)

def last? (key : Text) : Option Text := (g.options.reverse.find? (·.1 = key)).map (·.2)

def inputs : List Text := if g.operands = [] then [['-']] else g.operands

/-- The end of a line, which option `z` changes. -/
def stop : Char := if g.has "z" then '\x00' else '\n'

def lastOf (keys : List Text) : Option Text := (g.options.reverse.find? (·.1 ∈ keys)).map (·.1)

end Given

def clusterFrom (form : OptionForm) : Text → List (Text × Text) → Except Text (List (Text × Text) × Option Char)
  | [], got => .ok (got, none)
  | c :: rest, got =>
    match form.letters.lookup c with
    | none => .error ("invalid option -- '" ++ [c] ++ "'")
    | some .nothing => clusterFrom form rest (got ++ [([c], [])])
    | some .maybe => .ok (got ++ [([c], rest)], none)
    | some .value => if rest = [] then .ok (got, some c) else .ok (got ++ [([c], rest)], none)

def findLong (form : OptionForm) (name : Text) : Except Text (Text × Text × Takes) :=
  match form.names.find? (·.1 = name) with
  | some found => .ok found
  | none =>
    match form.names.filter fun (n, _) => Text.startsWith n name with
    | [] => .error ("unrecognized option '--" ++ name ++ "'")
    | [found] => .ok found
    | found :: more =>
      if more.all fun (_, key, _) => key = found.2.1 then .ok found
      else
        .error ("option '--" ++ name ++ "' is ambiguous; possibilities:" ++
          (found :: more).flatMap fun (n, _) => " '--".toList ++ n ++ ['\''])

/-- Tells options from operands, which may stand anywhere unless `isStrict`. -/
def parseFrom (form : OptionForm) (isStrict : Bool) : List Text → Given → Except Text Given
  | [], g => .ok g
  | t :: rest, g =>
    match t with
    | ['-', '-'] => .ok { g with operands := g.operands ++ rest }
    | '-' :: '-' :: long =>
      let cutName := Text.cutAt (· == '=') long
      let (name, value) :=
        match cutName with
        | some (a, b) => (a, some b)
        | none => (long, none)
      match findLong form name with
      | .error e => .error e
      | .ok (full, key, takes) =>
        match takes, value with
        | .nothing, some _ => .error ("option '--" ++ full ++ "' doesn't allow an argument")
        | .nothing, none => parseFrom form isStrict rest { g with options := g.options ++ [(key, [])] }
        | .maybe, v => parseFrom form isStrict rest { g with options := g.options ++ [(key, v.getD [])] }
        | .value, some v => parseFrom form isStrict rest { g with options := g.options ++ [(key, v)] }
        | .value, none =>
          match rest with
          | v :: more => parseFrom form isStrict more { g with options := g.options ++ [(key, v)] }
          | [] => .error ("option '--" ++ full ++ "' requires an argument")
    | '-' :: c :: letters =>
      match clusterFrom form (c :: letters) [] with
      | .error e => .error e
      | .ok (got, none) => parseFrom form isStrict rest { g with options := g.options ++ got }
      | .ok (got, some last) =>
        match rest with
        | v :: more => parseFrom form isStrict more { g with options := g.options ++ got ++ [([last], v)] }
        | [] => .error ("option requires an argument -- '" ++ [last] ++ "'")
    | t =>
      if isStrict then .ok { g with operands := g.operands ++ t :: rest }
      else parseFrom form isStrict rest { g with operands := g.operands ++ [t] }

def options (form : OptionForm) (status : Nat := 1) : Proc Given :=
  match parseFrom form false l.args {} with
  | .ok g => return g
  | .error e => misuse l e status

/-- As `options`, but the first operand ends them. -/
def leadingOptions (form : OptionForm) (status : Nat := 1) : Proc Given :=
  match parseFrom form true l.args {} with
  | .ok g => return g
  | .error e => misuse l e status

/-! Input. -/

def statusAt (follow : Bool) (path : Text) : Proc (Except Fault Sys.FileStatus) :=
  Proc.call fun pid => Sys.status pid follow path

def openOutput (path : Text) (access : Access) (mode : Nat := 0o666) : Proc (Except Fault Nat) :=
  Proc.opening path access fun pid => Sys.openFrom pid 3 path access mode

def openInput (path : Text) : Proc (Except Fault Nat) := openOutput path .forReading 0

def closeFile (fd : Nat) : Proc Unit := do
  let _ ← Proc.call fun pid => Sys.close pid fd

def readOperand (path : Text) : Proc (Except Fault Text) := do
  if path = ['-'] then Proc.readAll 0
  else
    match ← openInput path with
    | .error f => return .error f
    | .ok fd =>
      let r ← Proc.readAll fd
      closeFile fd
      return r

def openOperand (path : Text) : Proc (Except Fault Nat) :=
  if path = ['-'] then return .ok 0 else openInput path

def refused (path : Text) (f : Fault) : Text := shown path ++ ": " ++ f.message

def chunks (stop : Char) : Text → List Text
  | [] => []
  | c :: rest =>
    if c = stop then [c] :: chunks stop rest
    else
      match chunks stop rest with
      | [] => [[c]]
      | line :: more => (c :: line) :: more

def linesOf (stop : Char) (t : Text) : List Text :=
  (chunks stop t).map fun l => if l.getLast? = some stop then l.dropLast else l

def sized? (t : Text) : Option Nat :=
  let digits := t.takeWhile Char.isDigit
  match natural? digits with
  | none => none
  | some n =>
    let rest := String.ofList (t.drop digits.length)
    let powers : List (String × Nat) :=
      [("", 1), ("b", 512), ("kB", 1000), ("KB", 1000), ("k", 1024), ("K", 1024), ("KiB", 1024), ("MB", 1000000),
        ("M", 1048576), ("m", 1048576), ("MiB", 1048576), ("GB", 1000000000), ("G", 1073741824),
        ("GiB", 1073741824)]
    (powers.lookup rest).map (n * ·)

/-! Other programs. -/

inductive Refusal where
  | missing
  | denied (f : Fault)

def locateIn (pid : Nat) : List Text → Sys (Option (Text × Content × Nat))
  | [] => return none
  | path :: rest => do
    let found ← (try
        let i ← Sys.stat pid true path
        return some ((← Sys.disk).node i)
      catch _ => return none : Sys (Option Inode))
    match found with
    | some n =>
      match n.content with
      | .directory .. => locateIn pid rest
      | c => if n.mode &&& 0o111 = 0 then locateIn pid rest else return some (path, c, n.mode)
    | none => locateIn pid rest

def replace (words : List Text) (env : Environment) : Proc Refusal := do
  match words with
  | [] => return .missing
  | name :: rest =>
    let search : Text := (env.get? "PATH").getD "/bin:/usr/bin"
    let places : List Text :=
      if '/' ∈ name then [name]
      else (search.splitOn ':').map fun d => if d = [] then name else d ++ '/' :: name
    let found := (← Proc.call fun pid => locateIn pid places).toOption.getD none
    match found with
    | none =>
      if '/' ∈ name then
        match ← Proc.call fun pid => Sys.stat pid true name with
        | .ok _ => return .denied .denied
        | .error .notFound => return .missing
        | .error f => return .denied f
      else return .missing
    | some (path, content, _) =>
      let start (program : Text) (args : List Text) : Proc Unit := do
        let _ ← Proc.call fun pid => Sys.startProgram pid
        l.become program args env
      match content with
      | .data t =>
        match Shell.Engine.interpreter? t with
        | some (program, argument) => start program (program :: argument.toList ++ path :: rest)
        | none => start "/bin/sh" ("sh" :: path :: rest)
      | _ => start path (name :: rest)
      Proc.exit 0

end Runbook.Program
