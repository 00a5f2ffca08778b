import Runbook.Program.Listing
import Runbook.Program.Process
import Runbook.Program.Searching

/-!
The program that walks through directories and decides by an expression what happens to each file.
-/
namespace Runbook.Program
open Kernel
open Shell (Regex)

variable (l : Launch)

/-! Expressions. -/

structure Amount where
  order : Ordering
  count : Nat

def Amount.fits (a : Amount) (n : Nat) : Bool := compare n a.count = a.order

inductive ModeRule where
  | exactly
  | all
  | any

inductive FileQuestion where
  | name (pattern : Text) (foldsCase : Bool)
  | path (pattern : Text) (foldsCase : Bool)
  | target (pattern : Text) (foldsCase : Bool)
  | wholePath (expression : Regex) (foldsCase : Bool)
  | kind (letters : Text) (behindLinks : Bool)
  | empty
  | size (amount : Amount) (unit : Nat)
  | age (amount : Amount) (seconds : Nat)
  | newer (moment : Nat)
  | mode (rule : ModeRule) (bits : Nat)
  | links (amount : Amount)
  | number (amount : Amount)
  | runs
  | always (answer : Bool)

/-- What can be done with a file. `gather` keeps its path for a command that is run for many. -/
inductive FileDeed where
  | print (stop : Char)
  | format (t : Text)
  | run (words : List Text) (inside : Bool)
  | gather (place : Nat)
  | delete
  | prune
  | quit

inductive Finding where
  | ask (q : FileQuestion)
  | act (d : FileDeed)
  | no (e : Finding)
  | both (a b : Finding)
  | either (a b : Finding)
  | inTurn (a b : Finding)

namespace Finding

def isBusy : Finding → Bool
  | ask _ => false
  | act .prune | act .quit => false
  | act _ => true
  | no e => e.isBusy
  | both a b | either a b | inTurn a b => a.isBusy || b.isBusy

def deletes : Finding → Bool
  | act .delete => true
  | ask _ | act _ => false
  | no e => e.deletes
  | both a b | either a b | inTurn a b => a.deletes || b.deletes

end Finding

/-! Reading expressions. -/

structure Walk where
  leastDepth : Nat := 0
  mostDepth : Option Nat := none
  insideFirst : Bool := false
  followsLinks : Bool := false
  followsGiven : Bool := false
  grammar : Text := []
  commands : List (List Text × Bool) := []

inductive FindToken where
  | part (e : Finding)
  | opening
  | closing
  | no (written : Text)
  | and (written : Text)
  | or (written : Text)
  | comma

def markedName (t : Text) : Text := '\x60' :: t ++ ['\'']

def amount? (t : Text) : Option (Amount × Text) :=
  let (order, rest) : Ordering × Text :=
    match t with
    | '+' :: r => (.gt, r)
    | '-' :: r => (.lt, r)
    | r => (.eq, r)
  let digits := rest.takeWhile Char.isDigit
  (natural? digits).map fun n => (⟨order, n⟩, rest.drop digits.length)

def extendedForm : Text → Text
  | '\\' :: c :: rest =>
    (if c ∈ ("()|" : Text) then [c] else ['\\', c]) ++ extendedForm rest
  | c :: rest =>
    (if c ∈ ("()|\x7b\x7d" : Text) then ['\\', c] else [c]) ++ extendedForm rest
  | [] => []

def regexGrammars : List (Text × Bool) :=
  [("posix-extended", true), ("egrep", true), ("posix-egrep", true), ("awk", true), ("posix-awk", true),
    ("gnu-awk", true), ("posix-basic", false), ("ed", false), ("sed", false), ("grep", false),
    ("posix-minimal-basic", false)]

def readWholePath (grammar t : Text) : Option Regex :=
  let compiled :=
    match regexGrammars.lookup grammar with
    | some extended => Regex.ofText { extended := extended } t
    | none => Regex.ofText { extended := true } (extendedForm t)
  compiled.toOption.map (·.regex)

def sizeUnits : List (Char × Nat) :=
  [('b', 512), ('c', 1), ('w', 2), ('k', 1024), ('M', 1048576), ('G', 1073741824)]

def commandWords : List Text → Text → List Text → Option (List Text × Bool × List Text)
  | [], _, _ => none
  | t :: rest, before, got =>
    if t = [';'] then some (got.reverse, false, rest)
    else if t = ['+'] ∧ before = "\x7b\x7d" then some (got.reverse.dropLast, true, rest)
    else commandWords rest t (t :: got)

def kindLetters (name t : Text) : Except Text Text :=
  let parts := t.splitOn ','
  match parts.find? (·.length ≠ 1) with
  | some [] => .error ("Last file type in list argument to " ++ name ++ " is missing, i.e., list is ending on: ','")
  | some (c :: _) =>
    if c ∈ ("bcdDflps" : Text) then .error ("Must separate multiple arguments to " ++ name ++ " using: ','")
    else .error ("Unknown argument to " ++ name ++ ": " ++ [c])
  | none =>
    match parts.flatten.find? (· ∉ ("bcdDflps" : Text)) with
    | some c => .error ("Unknown argument to " ++ name ++ ": " ++ [c])
    | none => .ok parts.flatten

def modeBits? (t : Text) : Option Nat := (Mode.parse? t).map (Mode.apply false 0 0)

abbrev FindM := ExceptT Text Proc

def referred (path : Text) : FindM Sys.FileStatus := do
  match ← (statusAt true path : Proc _) with
  | .ok st => return st
  | .error f => throw (quoted path ++ ": " ++ f.message)

def questionOf (w : Walk) (name value : Text) : FindM FileQuestion := do
  let wrong {α : Type} : FindM α := throw ("invalid argument " ++ markedName value ++ " to " ++ markedName name)
  let number : FindM Amount :=
    match amount? value with
    | some (a, []) => return a
    | _ => wrong
  match String.ofList name with
  | "-name" => return .name value false
  | "-iname" => return .name value true
  | "-path" | "-wholename" => return .path value false
  | "-ipath" | "-iwholename" => return .path value true
  | "-lname" => return .target value false
  | "-ilname" => return .target value true
  | "-regex" | "-iregex" =>
    match readWholePath w.grammar value with
    | some e => return .wholePath e (name = "-iregex")
    | none => throw ("failed to compile regular expression " ++ quoted value ++ ": Invalid regular expression")
  | "-type" | "-xtype" =>
    match kindLetters name value with
    | .ok letters => return .kind letters (name = "-xtype")
    | .error t => throw t
  | "-size" =>
    match amount? value with
    | some (a, []) => return .size a 512
    | some (a, [c]) =>
      match sizeUnits.lookup c with
      | some unit => return .size a unit
      | none => throw ("invalid -size type " ++ markedName [c])
    | _ => throw ("invalid -size type " ++ markedName (value.reverse.take 1))
  | "-mtime" | "-ctime" | "-atime" => return .age (← number) 86400
  | "-mmin" | "-cmin" | "-amin" => return .age (← number) 60
  | "-newer" | "-anewer" | "-cnewer" => return .newer (← referred value).changed
  | "-samefile" => return .number ⟨.eq, (← referred value).number⟩
  | "-perm" =>
    let (rule, bits) : ModeRule × Text :=
      match value with
      | '-' :: r => (.all, r)
      | '/' :: r => (.any, r)
      | r => (.exactly, r)
    match modeBits? bits with
    | some n => return .mode rule n
    | none => throw ("invalid mode " ++ quoted value)
  | "-links" => return .links (← number)
  | "-inum" => return .number (← number)
  | "-user" | "-uid" | "-group" | "-gid" =>
    if value = "root" ∨ value = ['0'] then return .always true
    else if value.all Char.isDigit then return .always false
    else if name = "-group" then throw (quoted value ++ " is not the name of an existing group")
    else throw (quoted value ++ " is not the name of a known user")
  | _ => return .always true

def wordQuestions : List Text :=
  List.splitOn ' ' ("-name -iname -path -wholename -ipath -iwholename -lname -ilname -regex -iregex -type " ++
    "-xtype -size -mtime -ctime -atime -mmin -cmin -amin -newer -anewer -cnewer -samefile -perm -links -inum -user " ++
    "-uid -group -gid" : Text)

def plainPart? (name : Text) : Option Finding :=
  match String.ofList name with
  | "-print" => some (.act (.print '\n'))
  | "-print0" => some (.act (.print '\x00'))
  | "-delete" => some (.act .delete)
  | "-prune" => some (.act .prune)
  | "-quit" => some (.act .quit)
  | "-empty" => some (.ask .empty)
  | "-true" | "-readable" | "-writable" => some (.ask (.always true))
  | "-false" | "-nouser" | "-nogroup" => some (.ask (.always false))
  | "-executable" => some (.ask .runs)
  | "-noleaf" | "-mount" | "-xdev" | "-daystart" | "-warn" | "-nowarn" | "-ignore_readdir_race" |
    "-noignore_readdir_race" => some (.ask (.always true))
  | _ => none

def tokensFrom : Nat → List Text → Walk → List FindToken → FindM (Walk × List FindToken)
  | 0, _, w, got => return (w, got.reverse)
  | _, [], w, got => return (w, got.reverse)
  | fuel + 1, t :: rest, w, got =>
    let on (rest : List Text) (w : Walk) (k : FindToken) := tokensFrom fuel rest w (k :: got)
    let valued : FindM (Text × List Text) :=
      match rest with
      | v :: more => return (v, more)
      | [] => throw ("missing argument to " ++ markedName t)
    let constant (rest : List Text) (w : Walk) := on rest w (.part (.ask (.always true)))
    let depth : FindM (Nat × List Text) := do
      let (v, more) ← valued
      match natural? v with
      | some n => return (n, more)
      | none => throw ("Expected a positive decimal integer argument to " ++ t ++ ", but got " ++ quoted v)
    match String.ofList t with
    | "(" => on rest w .opening
    | ")" => on rest w .closing
    | "!" | "-not" => on rest w (.no t)
    | "-a" | "-and" => on rest w (.and t)
    | "-o" | "-or" => on rest w (.or t)
    | "," => on rest w .comma
    | "-maxdepth" => do
      let (n, more) ← depth
      constant more { w with mostDepth := some n }
    | "-mindepth" => do
      let (n, more) ← depth
      constant more { w with leastDepth := n }
    | "-depth" | "-d" => constant rest { w with insideFirst := true }
    | "-follow" => constant rest { w with followsLinks := true }
    | "-regextype" => do
      let (v, more) ← valued
      constant more { w with grammar := v }
    | "-printf" => do
      let (v, more) ← valued
      on more w (.part (.act (.format v)))
    | "-exec" | "-execdir" =>
      let inside := t == "-execdir"
      match commandWords rest [] [] with
      | some (words, false, more) =>
        if words = [] then throw ("invalid argument \x60;' to " ++ markedName t)
        else on more w (.part (.act (.run words inside)))
      | some (words, true, more) =>
        on more { w with commands := w.commands ++ [(words, inside)] } (.part (.act (.gather w.commands.length)))
      | none => throw ("missing argument to " ++ markedName t)
    | _ =>
      match plainPart? t with
      | some e => on rest w (.part e)
      | none =>
        if t ∈ wordQuestions then do
          let (v, more) ← valued
          on more w (.part (.ask (← questionOf w t v)))
        else if t.head? = some '-' ∧ t ≠ ['-'] then throw ("unknown predicate " ++ markedName t)
        else throw ("paths must precede expression: " ++ markedName t)

def expected (written : Text) : Text := "expected an expression after " ++ quoted written

def expressionFrom : Nat → Nat → List FindToken → Except Text (Finding × List FindToken)
  | 0, _, _ => .error []
  | _, _, [] => .error "invalid expression"
  | fuel + 1, 0, ts => do
    let (a, rest) ← expressionFrom fuel 1 ts
    match rest with
    | .comma :: [] => .error (expected [','])
    | .comma :: more =>
      let (b, rest) ← expressionFrom fuel 0 more
      return (.inTurn a b, rest)
    | rest => return (a, rest)
  | fuel + 1, 1, ts => do
    let (a, rest) ← expressionFrom fuel 2 ts
    match rest with
    | .or t :: [] => .error (expected t)
    | .or _ :: more =>
      let (b, rest) ← expressionFrom fuel 1 more
      return (.either a b, rest)
    | rest => return (a, rest)
  | fuel + 1, 2, ts => do
    let (a, rest) ← expressionFrom fuel 3 ts
    match rest with
    | .and t :: [] => .error (expected t)
    | .and _ :: more =>
      let (b, rest) ← expressionFrom fuel 2 more
      return (.both a b, rest)
    | .part _ :: _ | .opening :: _ | .no _ :: _ =>
      let (b, rest) ← expressionFrom fuel 2 rest
      return (.both a b, rest)
    | rest => return (a, rest)
  | fuel + 1, _, t :: rest =>
    match t with
    | .part e => .ok (e, rest)
    | .no written => do
      if rest.isEmpty then .error (expected written)
      let (e, rest) ← expressionFrom fuel 3 rest
      return (.no e, rest)
    | .opening =>
      match rest with
      | .closing :: _ => .error "invalid expression; empty parentheses are not allowed."
      | [] =>
        .error ("invalid expression; expected to find a ')' but didn't see one. Perhaps you need an extra predicate " ++
          "after '('")
      | rest => do
        let (e, rest) ← expressionFrom fuel 0 rest
        match rest with
        | .closing :: more => return (e, more)
        | _ => .error "invalid expression; I was expecting to find a ')' somewhere but did not see one."
    | .closing => .error "invalid expression; you have too many ')'"
    | .and w | .or w =>
      .error ("invalid expression; you have used a binary operator " ++ quoted w ++ " with nothing before it.")
    | .comma => .error "invalid expression; you have used a binary operator ',' with nothing before it."

def expressionOf (ts : List FindToken) : Except Text Finding :=
  match ts with
  | [] => .ok (.ask (.always true))
  | ts => do
    let (e, rest) ← expressionFrom (ts.length * 5 + 5) 0 ts
    match rest with
    | [] => return e
    | _ => .error "you have too many ')'"

/-! Walking. -/

structure Found where
  path : Text
  start : Text
  depth : Nat
  status : Sys.FileStatus

structure FindState where
  ok : Bool := true
  prunes : Bool := false
  quits : Bool := false
  gathered : List (Nat × Text) := []

def kindOf (k : Sys.FileKind) : Char :=
  match k with
  | .regular => 'f'
  | .directory => 'd'
  | .link => 'l'
  | .queue => 'p'
  | .device => 'c'

def fitsPattern (pattern : Text) (foldsCase : Bool) (t : Text) : Bool :=
  let lower (t : Text) : Text := if foldsCase then t.map Char.toLower else t
  globMatches (lower pattern) (lower t)

def answer (now : Nat) (f : Found) : FileQuestion → Proc Bool
  | .name p fold => return fitsPattern p fold (lastName f.path)
  | .path p fold => return fitsPattern p fold f.path
  | .target p fold => do
    match ← linkTarget f.path with
    | some t => return fitsPattern p fold t
    | none => return false
  | .wholePath e fold =>
    let s : Regex.Subject := { text := f.path.toArray, foldsCase := fold }
    return s.text.size ∈ Regex.endsAt e s 0
  | .kind letters behind =>
    if behind ∧ f.status.kind = .link then
      return kindOf (((← statusAt true f.path).toOption.map (·.kind)).getD .link) ∈ letters
    else return kindOf f.status.kind ∈ letters
  | .empty =>
    match f.status.kind with
    | .regular => return f.status.size = 0
    | .directory => return (← namesIn f.path).isEmpty
    | _ => return false
  | .size a unit => return a.fits ((f.status.size + unit - 1) / unit)
  | .age a seconds => return a.fits ((now - f.status.changed / 1000000) / seconds)
  | .newer moment => return moment < f.status.changed
  | .mode .exactly bits => return f.status.mode &&& 0o7777 = bits
  | .mode .all bits => return f.status.mode &&& bits = bits
  | .mode .any bits => return bits = 0 || f.status.mode &&& bits ≠ 0
  | .links a => return a.fits f.status.links
  | .number a => return a.fits f.status.number
  | .runs => return f.status.kind = .directory || f.status.mode &&& 0o111 ≠ 0
  | .always b => return b

def belowStart (f : Found) : Text := (f.path.drop f.start.length).dropWhile (· == '/')

def aroundOf (f : Found) : Text :=
  match Text.cutAtLast (· == '/') (trimSlashes f.path) with
  | some (up, _) => up
  | none => ['.']

def fieldOf (f : Found) (c : Char) : Proc (Option Text) := do
  match c with
  | 'p' => return some f.path
  | 'f' => return some (lastName f.path)
  | 'h' => return some (aroundOf f)
  | 'P' => return some (belowStart f)
  | 'H' => return some f.start
  | 'd' => return some (Text.ofNat f.depth)
  | 'y' => return some [kindOf f.status.kind]
  | 'Y' =>
    match (← statusAt true f.path).toOption with
    | some st => return some [kindOf st.kind]
    | none => return some ['N']
  | 's' => return some (Text.ofNat f.status.size)
  | 'm' => return some (Mode.octal (f.status.mode &&& 0o7777))
  | 'M' => return some (kindLetter f.status.kind :: Mode.letters f.status.mode)
  | 'l' => return some ((← linkTarget f.path).getD [])
  | 'u' | 'g' => return some "root"
  | 'U' | 'G' => return some "0"
  | 'i' => return some (Text.ofNat f.status.number)
  | 'n' => return some (Text.ofNat f.status.links)
  | 'k' => return some (Text.ofNat (blocksOf f.status))
  | 'b' => return some (Text.ofNat (blocksOf f.status * 2))
  | 't' | 'c' | 'a' => return some (TimeFormat.format ⟨f.status.changed / 1000000⟩ "%a %b %e %H:%M:%S.0000000000 %Y")
  | '%' => return some ['%']
  | _ => return none

def momentField (f : Found) (c : Char) : Text :=
  if c = '@' then Text.ofNat (f.status.changed / 1000000) ++ '.' :: padded 10 (f.status.changed % 1000000 * 10000)
  else if c = '+' then TimeFormat.format ⟨f.status.changed / 1000000⟩ "%Y-%m-%d+%H:%M:%S.0000000000"
  else TimeFormat.format ⟨f.status.changed / 1000000⟩ ['%', c]

def formatFrom (f : Found) : Nat → Text → Text → Proc Text
  | 0, _, got => return got
  | _, [], got => return got
  | fuel + 1, '\\' :: c :: rest, got => do
    let octal := (c :: rest).takeWhile fun c => '0' ≤ c && c ≤ '7'
    if octal ≠ [] then
      let digits := octal.take 3
      let n := Nat.ofDigitChars 8 digits 0
      formatFrom f fuel ((c :: rest).drop digits.length) (got ++ [Char.ofNat (n % 256)])
    else
      match c with
      | 'n' => formatFrom f fuel rest (got ++ ['\n'])
      | 't' => formatFrom f fuel rest (got ++ ['\t'])
      | 'r' => formatFrom f fuel rest (got ++ ['\r'])
      | 'a' => formatFrom f fuel rest (got ++ ['\x07'])
      | 'b' => formatFrom f fuel rest (got ++ ['\x08'])
      | 'f' => formatFrom f fuel rest (got ++ ['\x0c'])
      | 'v' => formatFrom f fuel rest (got ++ ['\x0b'])
      | 'c' => return got
      | '\\' => formatFrom f fuel rest (got ++ ['\\'])
      | c => formatFrom f fuel rest (got ++ ['\\', c])
  | fuel + 1, '%' :: rest, got => do
    let isLeft := rest.head? = some '-'
    let flags := rest.takeWhile fun c => c == '-' || c == '0'
    let digits := (rest.drop flags.length).takeWhile Char.isDigit
    let width := (natural? digits).getD 0
    let fill (t : Text) : Text := if isLeft then padRight width t else padLeft width t
    match rest.drop (flags.length + digits.length) with
    | 'T' :: c :: more | 'A' :: c :: more | 'C' :: c :: more =>
      formatFrom f fuel more (got ++ fill (momentField f c))
    | c :: more =>
      match ← fieldOf f c with
      | some t => formatFrom f fuel more (got ++ fill t)
      | none => formatFrom f fuel more (got ++ '%' :: [c])
    | [] => return got ++ ['%']
  | fuel + 1, c :: rest, got => formatFrom f fuel rest (got ++ [c])

def runCommand (directory : Option Text) (words : List Text) : Proc Bool := do
  let child ← Proc.fork do
    match directory with
    | some d =>
      let _ ← attemptCall fun pid => Sys.chdir pid d
      pure ()
    | none => pure ()
    let name := words.headD []
    match ← replace l words l.env with
    | .missing => say l (quoted name ++ ": " ++ Fault.notFound.message)
    | .denied f => say l (quoted name ++ ": " ++ f.message)
    Proc.exit 1
  match ← Proc.await (awaitChild child) with
  | .ok (.exited 0) => return true
  | _ => return false

def insideName (path : Text) : Text := "./" ++ lastName path

def deed (f : Found) (s : FindState) : FileDeed → Proc (Bool × FindState)
  | .print stop => do
    emit l (f.path ++ [stop])
    return (true, s)
  | .format t => do
    emit l (← formatFrom f (t.length + 1) t [])
    return (true, s)
  | .run words inside =>
    let own := if inside then insideName f.path else f.path
    let filled := words.map fun t => replaceAll "\x7b\x7d" own (t.length + 1) t
    return (← runCommand l (if inside then some (aroundOf f) else none) filled, s)
  | .gather place => return (true, { s with gathered := s.gathered ++ [(place, f.path)] })
  | .delete => do
    if f.path = ['.'] then return (true, s)
    let r ←
      if f.status.kind = .directory then attemptCall fun pid => Sys.removeDirectory pid f.path
      else attemptCall fun pid => Sys.unlink pid f.path
    match r with
    | none => return (true, s)
    | some e =>
      say l ("cannot delete " ++ quoted f.path ++ ": " ++ e.message)
      return (false, { s with ok := false })
  | .prune => return (true, { s with prunes := true })
  | .quit => return (true, { s with quits := true })

def judge (now : Nat) (f : Found) : Finding → FindState → Proc (Bool × FindState)
  | .ask q, s => do return (← answer now f q, s)
  | .act d, s => if s.quits then return (false, s) else deed l f s d
  | .no e, s => do
    let (b, s) ← judge now f e s
    return (!b, s)
  | .both x y, s => do
    let (b, s) ← judge now f x s
    if b && !s.quits then judge now f y s else return (false, s)
  | .either x y, s => do
    let (b, s) ← judge now f x s
    if b || s.quits then return (true, s) else judge now f y s
  | .inTurn x y, s => do
    let (_, s) ← judge now f x s
    if s.quits then return (false, s) else judge now f y s

def walk (w : Walk) (now : Nat) (e : Finding) (start : Text) : Nat → Nat → Text → FindState → Proc FindState
  | 0, _, _, s => return s
  | fuel + 1, depth, path, s => do
    let follows := w.followsLinks || (depth == 0 && w.followsGiven)
    let direct ← statusAt false path
    let st ← if follows then
        match ← statusAt true path with
        | .ok st => pure (.ok st)
        | .error _ => pure direct
      else pure direct
    match st with
    | .error f =>
      say l (quoted path ++ ": " ++ f.message)
      return { s with ok := false }
    | .ok st =>
      let found : Found := ⟨path, start, depth, st⟩
      let visit (s : FindState) : Proc FindState := do
        if s.quits ∨ depth < w.leastDepth then return { s with prunes := false }
        let (_, s) ← judge l now found e { s with prunes := false }
        return s
      let enter (s : FindState) : Proc FindState := do
        if st.kind ≠ .directory ∨ w.mostDepth.any (· ≤ depth) then return s
        (← namesIn path).foldlM
          (fun s name => do if s.quits then return s else walk w now e start fuel (depth + 1) (under path name) s) s
      if w.insideFirst then
        let s ← enter s
        visit s
      else
        let s ← visit s
        if s.prunes ∨ s.quits then return s else enter s

def runGathered (w : Walk) (s : FindState) : Proc Bool := do
  let mut ok := true
  for ((words, inside), place) in w.commands.zipIdx do
    let paths := s.gathered.filterMap fun (p, t) => if p = place then some t else none
    if paths ≠ [] then
      if inside then
        let around (t : Text) : Text := ((Text.cutAtLast (· == '/') t).map (·.1)).getD ['.']
        for d in (paths.map around).eraseDups do
          let names := (paths.filter fun t => around t = d).map insideName
          ok := (← runCommand l (some d) (words ++ names)) && ok
      else
        ok := (← runCommand l none (words ++ paths)) && ok
  return ok

/-! The command line. -/

def startsExpression (t : Text) : Bool :=
  t = ['('] || t = ['!'] || (t.head? = some '-' && 1 < t.length)

def linkOptions : List Text → Walk → List Text × Walk
  | ['-', 'L'] :: rest, w => linkOptions rest { w with followsLinks := true, followsGiven := false }
  | ['-', 'H'] :: rest, w => linkOptions rest { w with followsLinks := false, followsGiven := true }
  | ['-', 'P'] :: rest, w => linkOptions rest { w with followsLinks := false, followsGiven := false }
  | rest, w => (rest, w)

def find : Proc Unit := do
  let (args, w) := linkOptions l.args {}
  let paths := args.takeWhile (!startsExpression ·)
  let words := args.drop paths.length
  match ← (tokensFrom (words.length + 1) words w []).run with
  | .error t => fail l t
  | .ok (w, ts) =>
    match expressionOf ts with
    | .error t => fail l t
    | .ok e =>
      let e := if e.isBusy then e else .both e (.act (.print '\n'))
      let w := if e.deletes then { w with insideFirst := true } else w
      let now ← Proc.look fun world => world.clock.millis / 1000
      let starts := if paths = [] then [['.']] else paths
      let s ← starts.foldlM
        (fun s path => do if s.quits then return s else walk l w now e path loopDepth 0 path s) ({} : FindState)
      let ok ← runGathered l w s
      done (ok && s.ok)
where
  loopDepth : Nat := 10000

end Runbook.Program
