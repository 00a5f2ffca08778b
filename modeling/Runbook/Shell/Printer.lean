import Runbook.Shell.Syntax

/-!
Writing commands as text, in the form in which functions are listed. Texts of documents come behind the line
of their redirections.
-/
namespace Runbook.Shell

structure Paper where
  out : Text := []
  indent : Nat := 0
  skipsIndent : Bool := false
  inFunction : Nat := 0
  inSubstitution : Bool := false
  waiting : List Redirect := []
  connections : Nat := 0
  endedDocument : Bool := false

abbrev PrintM := StateM Paper

namespace Printer

def put (t : Text) : PrintM Unit := modify fun p => { p with out := t.reverse ++ p.out }

def step : Nat := 4

def putIndent : PrintM Unit := do put (List.replicate (← get).indent ' ')

def skipIndent : PrintM Unit := modify fun p => { p with skipsIndent := true }

def deeper : PrintM Unit := modify fun p => { p with indent := p.indent + step }

def shallower : PrintM Unit := modify fun p => { p with indent := p.indent - step }

def newline (t : Text) : PrintM Unit := do
  put ['\n']
  putIndent
  put t

def semicolon : PrintM Unit := do
  match (← get).out.head? with
  | some '&' | some '\n' => return ()
  | _ => put [';']

def sourceText (usual : Nat) : RedirectSource → Text
  | .usual => []
  | .number n => if n = usual then [] else Text.ofNat n
  | .named name => '{' :: name ++ ['}']

def copyText (usual : Nat) (sign : Text) (source : RedirectSource) (target : Text) : Text :=
  let isNumber (t : Text) : Bool := t ≠ [] && t.all Char.isDigit
  let isMove := target.getLast? = some '-' && isNumber target.dropLast
  let said : Text :=
    match source with
    | .usual => if isNumber target || isMove || target = ['-'] then Text.ofNat usual else []
    | .number n =>
      if n = usual && !(isNumber target || isMove || target = ['-']) then [] else Text.ofNat n
    | .named name => '{' :: name ++ ['}']
  if target = ['-'] then said ++ ">&-" else said ++ sign ++ target

def redirectText (r : Redirect) : Text :=
  match r.kind with
  | .input => sourceText 0 r.source ++ "< " ++ r.target
  | .output => sourceText 1 r.source ++ "> " ++ r.target
  | .append => sourceText 1 r.source ++ ">> " ++ r.target
  | .clobber => sourceText 1 r.source ++ ">| " ++ r.target
  | .both => (if r.source = .usual then ['0'] else sourceText 1 r.source) ++ "<> " ++ r.target
  | .document _ strips _ _ => sourceText 0 r.source ++ (if strips then "<<-" else "<<") ++ r.target
  | .hereString => sourceText 0 r.source ++ "<<< " ++ r.target
  | .copyInput => copyText 0 "<&" r.source r.target
  | .copyOutput => copyText 1 ">&" r.source r.target
  | .allOutput => "&> " ++ r.target
  | .allAppend => "&>> " ++ r.target

def bare (t : Text) : Text := t.filter fun c => c ≠ '\'' ∧ c ≠ '"' ∧ c ≠ '\\'

def documentText (r : Redirect) : Text :=
  match r.kind with
  | .document _ _ _ body => body ++ bare r.target ++ ['\n']
  | _ => []

def putWaiting (t : Text) : PrintM Unit := do
  put t
  match (← get).waiting with
  | [] => return ()
  | rs =>
    modify fun p => { p with waiting := [], endedDocument := true }
    put ('\n' :: rs.flatMap documentText)
    if t ≠ [] then put [' ']

def putPending : PrintM Unit := do
  if (← get).waiting = [] then return () else putWaiting []

def redirects (rs : List Redirect) : PrintM Unit := do
  put ([' '].intercalate (rs.map redirectText))
  let documents := rs.filter fun r => r.kind matches .document ..
  if documents ≠ [] then
    modify fun p => { p with waiting := p.waiting ++ documents }
    if (← get).connections = 0 then putWaiting []

def condition : Condition → Text
  | .unary op w => op ++ ' ' :: w
  | .binary op a b => a ++ ' ' :: op ++ ' ' :: b
  | .negated c => '!' :: ' ' :: condition c
  | .grouped c => "( " ++ condition c ++ " )"
  | .both a b => condition a ++ " && " ++ condition b
  | .either a b => condition a ++ " || " ++ condition b

def clauseEnd : ClauseEnd → Text
  | .leave => ";;"
  | .fall => ";&"
  | .test => ";;&"

def wordsOf : Option (List Text) → List Text
  | some words => words
  | none => ["\"$@\""]

def putSeparator (s : Separator) : PrintM Unit := do
  match s with
  | .ampersand =>
    putWaiting " &"
    put [' ']
    skipIndent
  | _ =>
    let p ← get
    let isLine := p.inSubstitution ∧ s = .newline
    if p.waiting ≠ [] then putWaiting []
    else if p.endedDocument then modify fun p => { p with endedDocument := false }
    else if isLine then pure ()
    else put [';']
    if p.inFunction > 0 then put ['\n']
    else if isLine then
      if (← get).out.head? ≠ some '\n' then put ['\n']
    else
      put [' ']
      skipIndent

def connect (body : PrintM Unit) : PrintM Unit := do
  modify fun p => { p with connections := p.connections + 1 }
  body
  putPending
  modify fun p => { p with connections := p.connections - 1 }

def lead : PrintM Unit := do
  if (← get).skipsIndent then modify fun p => { p with skipsIndent := false } else putIndent

def doBody (body : PrintM Unit) : PrintM Unit := do
  newline "do\n"
  deeper
  body
  putPending
  semicolon
  shallower
  newline "done"

def functionBody (body : PrintM Unit) (rs : List Redirect) : PrintM Unit := do
  body
  putPending
  shallower
  modify fun p => { p with inFunction := p.inFunction - 1 }
  if rs = [] then newline "\x7d"
  else
    newline "\x7d "
    redirects rs

def nested (name : Text) (body : PrintM Unit) (rs : List Redirect) : PrintM Unit := do
  lead
  put ("function " ++ name ++ " () \n")
  putIndent
  put "\x7b \n"
  modify fun p => { p with inFunction := p.inFunction + 1 }
  deeper
  functionBody body rs

def joined (sign : Text) (a b : PrintM Unit) : PrintM Unit := do
  lead
  skipIndent
  connect do
    a
    putWaiting sign
    skipIndent
    b

mutual

def command : Command → PrintM Unit
  | .redirected c rs => do
    command c
    put [' ']
    redirects rs
  | .simple _ words rs => do
    lead
    put ([' '].intercalate words)
    if rs ≠ [] then
      if words ≠ [] then put [' ']
      redirects rs
  | .list items => do
    lead
    skipIndent
    connect (listItems items)
  | .both a b => joined " && " (command a) (command b)
  | .either a b => joined " || " (command a) (command b)
  | .pipe a b => do
    lead
    skipIndent
    connect do
      command a
      putWaiting " |"
      put [' ']
      skipIndent
      command b
  | .inverted c => do
    lead
    put "! "
    skipIndent
    command c
  | .timed isPosix c => do
    lead
    put (if isPosix then "time -p " else "time ")
    match c with
    | none => pure ()
    | some c =>
      skipIndent
      command c
  | .group body => do
    lead
    put "\x7b "
    if (← get).inFunction = 0 then skipIndent
    else
      put ['\n']
      deeper
    command body
    putPending
    if (← get).inFunction > 0 then
      put ['\n']
      shallower
      putIndent
    else
      semicolon
      put [' ']
    put ['}']
  | .subshell _ body => do
    lead
    put "( "
    skipIndent
    command body
    putPending
    put " )"
  | .branch test yes no => do
    lead
    put "if "
    skipIndent
    command test
    semicolon
    put " then\n"
    deeper
    command yes
    putPending
    shallower
    match no with
    | none => pure ()
    | some no =>
      semicolon
      newline "else\n"
      deeper
      command no
      putPending
      shallower
    semicolon
    newline "fi"
  | .loop isUntil test body => do
    lead
    put (if isUntil then "until " else "while ")
    skipIndent
    command test
    putPending
    semicolon
    put " do\n"
    deeper
    command body
    putPending
    shallower
    semicolon
    newline "done"
  | .each _ name words body => do
    lead
    put ("for " ++ name ++ " in " ++ [' '].intercalate (wordsOf words) ++ ";")
    doBody (command body)
  | .menu _ name words body => do
    lead
    put ("select " ++ name ++ " in " ++ [' '].intercalate (wordsOf words) ++ ";")
    doBody (command body)
  | .count _ start test step body => do
    lead
    put ("for ((" ++ start ++ "; " ++ test ++ "; " ++ step ++ "))")
    doBody (command body)
  | .choose _ subject clauses => do
    lead
    put ("case " ++ subject ++ " in ")
    deeper
    clauseList clauses
    shallower
    newline "esac"
  | .function _ _ name (.redirected (.group body) rs) => nested name (command body) rs
  | .function _ _ name (.group body) => nested name (command body) []
  | .function _ _ name body => nested name (command body) []
  | .condition _ c => do
    lead
    put ("[[ " ++ condition c ++ " ]]")
  | .arithmetic _ e => do
    lead
    put ("((" ++ e ++ "))")
  | .coprocess name c => do
    lead
    put ("coproc " ++ name ++ " ")
    skipIndent
    command c

def listItems : List (Command × Separator) → PrintM Unit
  | [] => pure ()
  | [(c, .ampersand)] => do
    command c
    putWaiting " &"
  | [(c, _)] => command c
  | (c, s) :: rest => do
    command c
    putSeparator s
    listItems rest

def clauseList : List (List Text × Option Command × ClauseEnd) → PrintM Unit
  | [] => pure ()
  | (patterns, body, e) :: rest => do
    newline []
    put (List.intercalate " | " patterns ++ ")\n")
    deeper
    match body with
    | some c => command c
    | none => pure ()
    shallower
    putPending
    newline (clauseEnd e)
    clauseList rest

end

def functionBodyOf : Command → PrintM Unit
  | .redirected (.group body) rs => functionBody (command body) rs
  | .group body => functionBody (command body) []
  | body => functionBody (command body) []

end Printer

def Command.text (c : Command) : Text := ((Printer.command c).run {}).2.out.reverse

def Command.substitutionText (c : Command) : Text :=
  let text := ((Printer.command c).run { inSubstitution := true }).2.out.reverse
  if text.head? = some '(' then ' ' :: text else text

def functionText (name : Text) (body : Command) : Text :=
  let opened : Paper := { inFunction := 1, indent := Printer.step }
  let lead := if name = [] then [] else name ++ [' ']
  lead ++ "() \n\x7b \n" ++ ((Printer.functionBodyOf body).run opened).2.out.reverse

end Runbook.Shell
