import Runbook.Shell.Parameter

/-!
Expanding words: parameters, commands and expressions are replaced by what they give. The result is a list
of glyphs, which is split into fields or joined.
-/
namespace Runbook.Shell
open Glyph ShellM

structure Substituter where
  command : (body : Text) → (isBack : Bool) → ShellM Text
  process : (isOutput : Bool) → (body : Text) → ShellM Text

variable (x : Substituter)

/-- Where a text that is expanded stands. If it splits, lists stay apart. -/
structure Context where
  quoting : Quoting := .none
  inBraces : Bool := false
  splits : Bool := true

/-- What an expansion gives. `sawList` tells of a quoted list, which may hold no field at all. -/
structure Expanded where
  glyphs : List Glyph
  sawList : Bool := false

namespace Expansion

def Context.single : Context := { splits := false }

def Context.expression : Context := { quoting := .double, inBraces := true, splits := false }

def originIn (c : Context) : Origin := if c.quoting = .none then .value else .quoted

def starJoint (s : State) : Text :=
  match s.find? "IFS" with
  | some v => (v.value.text?.getD " \t\n").take 1
  | none => [' ']

def bordered (element : Text → List Glyph) : List Text → List Glyph
  | [] => []
  | [t] => element t
  | t :: rest => element t ++ border :: bordered element rest

def render (c : Context) (g : Got) : ShellM Expanded := do
  match g with
  | .unset => return ⟨[], false⟩
  | .text t => return ⟨ofText (originIn c) t, false⟩
  | .list ts isStar =>
    let joint := starJoint (← get)
    let joined (joint : Text) : Expanded := ⟨ofText (originIn c) (joint.intercalate ts), false⟩
    if c.quoting = .none then
      if c.splits then return ⟨bordered (ofText .value) ts, false⟩
      else return joined (if isStar then joint else [' '])
    else if isStar then return joined joint
    else if c.splits ∧ c.quoting = .double then
      return ⟨bordered (fun t => .quotes :: ofText .quoted t) ts, true⟩
    else return joined [' ']

section
variable (go : Context → Text → ShellM Expanded)

def textOf (c : Context) (w : Text) : ShellM Text := do
  return text (← go { c with splits := false } w).glyphs

def numberOf (name w : Text) : ShellM Int := do
  let t ← textOf go Context.expression w
  evaluateFor name t

def patternOf (w : Text) : ShellM Pattern := do
  let e ← go Context.single w
  return Pattern.read ((← get).does "extglob") (patternChars e.glyphs)

def inner (c : Context) : Context :=
  if c.quoting = .none then { c with inBraces := true }
  else { quoting := .double, inBraces := true, splits := c.splits }

/-! Values. -/

def elementValue (name key : Text) : ShellM Got := do
  let s ← get
  let v := s.lookup? name
  match key with
  | ['@'] => return .list ((v.map (·.value.texts)).getD []) false
  | ['*'] => return .list ((v.map (·.value.texts)).getD []) true
  | _ =>
    let asGot (t : Option Text) : Got := t.elim .unset .text
    if (v.map (·.value.isKeyed)).getD false then
      let k ← textOf go {} key
      return asGot (v.bind fun v => v.value.entries.lookup k)
    else
      let n ← numberOf go [] key
      match Arith.elementIndex? (← get) name n with
      | some i => return asGot (((← get).lookup? name).bind fun v => v.value.elements.lookup i)
      | none =>
        report (name ++ ": bad array subscript")
        return .unset

def circularValue (name : Text) : ShellM Got := do
  let s ← get
  report (circularWarning name)
  return if s.inFunction then ((s.global? name).bind (·.value.text?)).elim .unset .text else .unset

def valueOf (p : Parameter) : ShellM Got := do
  let s ← get
  match s.special? p.name with
  | some g => return g
  | none =>
    if p.subscript.isNone ∧ s.isCircular p.name then circularValue p.name
    else
    let target := s.follow p.name
    match p.subscript, target.cutAt (· == '[') with
    | some key, none => elementValue go target key
    | some key, some (base, _) => elementValue go base key
    | none, some (base, inside) => elementValue go base inside.dropLast
    | none, none =>
      set (s.afterLooking target)
      return ((s.lookup? target).bind (·.value.text?)).elim .unset .text

def required (p : Parameter) (g : Got) : ShellM Unit := do
  if g = .unset ∧ (← get).isOn .nounset then abandon (State.parameterName p ++ ": unbound variable")

def assignParameter (p : Parameter) (t : Text) : ShellM Unit := do
  if !(p.name.head?.any isNameStart) then giveUp 1 ('$' :: p.name ++ ": cannot assign in this way")
  let s ← get
  let target := s.follow p.name
  let result ←
    match p.subscript with
    | none => assign target t
    | some key =>
      let key ←
        if ((s.find? target).map (·.value.isKeyed)).getD false then textOf go {} key
        else textOf go Context.expression key
      match ← placeOf target key with
      | .ok place => assignTo place false t
      | .error r => pure (.error r)
  match result with
  | .ok () => return ()
  | .error r => giveUp 2 r.message

/-! What is done with values. -/

def sliceOf (p : Parameter) (g : Got) (w : Text) : ShellM Got := do
  if g = .unset then return .unset
  let (offsetText, lengthText) := Part.cutLength 0 0 [] w
  let name := p.name
  let offset ← numberOf go name offsetText
  let length ←
    match lengthText with
    | none => pure none
    | some t =>
      let n ← numberOf go name t
      pure (some n)
  let shown ← textOf go Context.expression (lengthText.getD [])
  let refuse : ShellM Got := giveUp 1 (shown ++ ": substring expression < 0")
  match g with
  | .unset => return .unset
  | .text t =>
    match Part.slice t offset length with
    | some part => return .text part
    | none => refuse
  | .list ts isStar =>
    if length.any (· < 0) then refuse
    else
      let s ← get
      let elements : List (Nat × Text) :=
        if p.subscript.isSome then
          match s.lookup? (s.follow p.name) with
          | some ⟨.indexed es, _⟩ => es
          | _ => Elements.ofList ts
        else Elements.ofList (s.name :: ts)
      return .list (Part.sliceElements elements offset length) isStar

def replaceOf (g : Got) (w : Text) : ShellM Got := do
  let s ← get
  let (anchor, rest) : Part.Anchor × Text :=
    match w with
    | '/' :: rest => (.all, rest)
    | '#' :: rest => (.start, rest)
    | '%' :: rest => (.finish, rest)
    | _ => (.first, w)
  let (first, searched) : Text × Text :=
    match anchor, rest with
    | .all, '/' :: more => (['/'], more)
    | _, _ => ([], rest)
  let (patternText, replacement) : Text × Text :=
    match Piece.closing s.dialect '/' searched with
    | some (a, b) => (first ++ a, b)
    | none => (rest, [])
  let pattern ← patternOf go patternText
  let r ← go Context.single replacement
  let template := Part.template (s.does "patsub_replacement") (patternChars r.glyphs)
  let m : Pattern.Matcher := ⟨s.does "nocasematch"⟩
  return g.map (Part.replace m pattern template anchor)

def declared (p : Parameter) (g : Got) : ShellM Got := do
  let s ← get
  let name := s.follow p.name
  match s.lookup? name with
  | none =>
    match g with
    | .list (t :: ts) isStar => return .list ("set" :: "--" :: (t :: ts).map Part.reusable) isStar
    | _ => return .unset
  | some v =>
    match g with
    | .unset =>
      let letters := Variable.letters v
      return if p.subscript = none ∧ letters ≠ ['-'] then .text ("declare -" ++ letters ++ ' ' :: name) else .unset
    | .text t =>
      let letters := Variable.letters v
      let assignment := State.parameterName ⟨name, p.subscript⟩ ++ '=' :: Part.reusable t
      return .text (if letters = ['-'] then assignment else "declare -" ++ letters ++ ' ' :: assignment)
    | .list _ _ => return .text (Variable.declaration name v)

def pairs (p : Parameter) (g : Got) (quotes : Bool) : ShellM Got := do
  let s ← get
  match g with
  | .list ts isStar =>
    let value := ((s.lookup? (s.follow p.name)).map (·.value)).getD (.absent .single)
    let keys := if p.subscript.isSome then value.keys else (List.range ts.length).map Text.ofNat
    let both := keys.zip ts
    if quotes then
      let said := both.map fun (k, v) => Variable.keyText k ++ ' ' :: assignedQuote v
      let closing : Text := if value.isKeyed then [' '] else []
      return .text ([' '].intercalate said ++ closing)
    else return .list (both.flatMap fun (k, v) => [k, v]) isStar
  | .text t => return .text (Part.reusable t)
  | .unset => return .unset

def formOf (p : Parameter) (g : Got) (c : Char) : ShellM Got := do
  let s ← get
  match c with
  | 'A' => declared p g
  | 'a' =>
    match s.lookup? (s.follow p.name) with
    | some v =>
      let letters := Variable.letters v
      let t : Text := if letters = ['-'] then [] else letters
      match g with
      | .unset => return .text t
      | .list [] _ => return if v.value.isSet then g else .text t
      | _ => return g.map fun _ => t
    | none => return .unset
  | 'K' => pairs p g true
  | 'k' => pairs p g false
  | 'P' =>
    let said (t : Text) : ShellM Text := textOf go { quoting := .double, splits := false } (Part.promptText s (t.length + 1) t)
    match g with
    | .unset => return .unset
    | .text t => return .text (← said t)
    | .list ts isStar => return .list (← each said ts) isStar
  | c => return g.map (Part.form c)

def letterPattern (w : Text) : ShellM (Option Pattern) := do
  if w = [] then return none
  else
    let p ← patternOf go w
    return some p

def unknownForm (c : Context) (whole : Text) (g : Got) : ShellM Expanded := do
  match g with
  | .unset | .list [] _ => render c g
  | _ => abandon (whole ++ ": bad substitution")

/-- What an operation makes of the value of a parameter. `whole` is the text in which it stands. -/
def operate (c : Context) (whole : Text) (p : Parameter) (g : Got) (op : Operation) : ShellM Expanded := do
  let word (w : Text) : ShellM Expanded := do
    let e ← go (inner c) w
    return { e with glyphs := asValue e.glyphs }
  let said (t : Text) : ShellM Expanded := do
    let e ← word t
    if c.quoting = .none ∨ e.glyphs ≠ [] then return e else return ⟨[.quotes], false⟩
  let shown (f : Got → Got) : ShellM Expanded := do
    required p g
    render c (f g)
  match op with
  | .value => shown id
  | .fallback nullToo w => if g.isMissing nullToo then said w else render c g
  | .alternative nullToo w =>
    if g.isMissing nullToo then
      match g with
      | .list _ isStar => return ⟨[], !isStar⟩
      | _ => return ⟨[], false⟩
    else said w
  | .assigned nullToo w =>
    if g.isMissing nullToo then
      let t ← textOf go (inner c) w
      assignParameter go p t
      let g ← valueOf go p
      render c g
    else render c g
  | .required nullToo w =>
    if g.isMissing nullToo then
      let t ← textOf go (inner c) w
      let usual : Text := if nullToo then "parameter null or not set" else "parameter not set"
      let name := if p.subscript.isSome then State.parameterName p else p.name
      abandon (name ++ ": " ++ (if w = [] then usual else t))
    else render c g
  | .slice w =>
    if w = [] then giveUp 1 (whole ++ ": bad substitution")
    else
      required p g
      let g ← sliceOf go p g w
      render c g
  | .trimStart longest w =>
    required p g
    let pattern ← patternOf go w
    render c (g.map (pattern.trimStart {} longest))
  | .trimEnd longest w =>
    required p g
    let pattern ← patternOf go w
    render c (g.map (pattern.trimEnd {} longest))
  | .replace w =>
    required p g
    let g ← replaceOf go g w
    render c g
  | .recase sign all w =>
    required p g
    let pattern ← letterPattern go w
    render c (g.map (Part.recase {} sign all pattern))
  | .transform letter =>
    let s ← get
    if Part.isForm letter then
      let hasElements := p.subscript = none ∧ ((s.lookup? (s.follow p.name)).map (·.value.isSet)).getD false
      if !((letter = 'a' ∨ letter = 'A') ∧ hasElements) then required p g
      let g ← formOf go p g letter
      render c g
    else unknownForm c whole g

def lengthOf (p : Parameter) : ShellM Nat := do
  let g ← valueOf go p
  required p g
  match g with
  | .unset => return 0
  | .text t => return t.length
  | .list ts _ => return ts.length

def indirectTarget (p : Parameter) : ShellM Parameter := do
  let s ← get
  let isReference := ((s.find? p.name).map (·.attributes.reference)).getD false
  let g ← valueOf go p
  match g with
  | .unset => giveUp 1 (State.parameterName p ++ ": invalid indirect expansion")
  | .list ts _ => giveUp 1 ([' '].intercalate ts ++ ": invalid variable name")
  | .text t =>
    let t := if isReference then s.follow p.name else t
    match Braced.parameter s.dialect t with
    | some (target, []) => return target
    | _ => giveUp 1 (t ++ ": invalid variable name")

def namesFrom (start : Text) : ShellM (List Text) := do
  return ((← get).sorted.map (·.1)).filter (Text.startsWith · start)

def bracedValue (c : Context) (whole t : Text) : ShellM Expanded := do
  let s ← get
  let bad : ShellM Expanded := giveUp 1 (whole ++ ": bad substitution")
  match Braced.ofText s.dialect t with
  | .bad =>
    match Braced.parameter s.dialect t with
    | some (p, '@' :: _) =>
      let g ← valueOf go p
      unknownForm c whole g
    | _ => bad
  | .length p =>
    let n ← lengthOf go p
    render c (.text (Text.ofNat n))
  | .names start isStar =>
    let names ← namesFrom start
    render c (.list names isStar)
  | .keys name isStar =>
    let value := ((s.lookup? (s.follow name)).map (·.value.keys)).getD []
    render c (.list value isStar)
  | .direct p op =>
    let g ← valueOf go p
    operate go c whole p g op
  | .indirect p op =>
    let isReference := ((s.find? p.name).map (·.attributes.reference)).getD false
    if isReference ∧ op = .value ∧ p.subscript = none then
      render c (.text (s.follow p.name))
    else
      let target ← indirectTarget go p
      let g ← valueOf go target
      operate go c whole target g op

def piece (c : Context) (whole : Text) (p : Piece) : ShellM Expanded := do
  match p with
  | .plain t => return ⟨ofText (if c.quoting = .none then .plain else .quoted) t, false⟩
  | .literal t => return ⟨if t = [] then [.quotes] else ofText .quoted t, false⟩
  | .double t =>
    let e ← go { quoting := .double, splits := c.splits } t
    if e.glyphs = [] ∧ !e.sawList then return ⟨[.quotes], false⟩ else return ⟨e.glyphs, e.sawList⟩
  | .simple name =>
    let p : Parameter := ⟨name, none⟩
    let g ← valueOf go p
    operate go c whole p g .value
  | .braced t => bracedValue go c whole t
  | .command t =>
    let out ← x.command t false
    render c (.text out)
  | .back t =>
    let out ← x.command (Piece.backCommands (c.quoting = .double) t) true
    render c (.text out)
  | .arithmetic t =>
    let n ← numberOf go [] t
    render c (.text (Text.ofInt n))
  | .process isOutput t =>
    let path ← x.process isOutput t
    return ⟨ofText .quoted path, false⟩
  | .unclosed t => giveUp 1 ("bad substitution: no closing \x60\x7d' in " ++ t)

def pieces (c : Context) (whole : Text) : List Piece → ShellM Expanded
  | [] => return ⟨[], false⟩
  | p :: rest => do
    let a ← piece x go c whole p
    let b ← pieces c whole rest
    return ⟨a.glyphs ++ b.glyphs, a.sawList || b.sawList⟩

end

/-! Home directories. -/

def homeOf (name : Text) : Option Text :=
  match String.ofList name with
  | "root" => some "/root"
  | "daemon" => some "/usr/sbin"
  | "bin" => some "/bin"
  | "sys" => some "/dev"
  | "nobody" => some "/nonexistent"
  | "www-data" => some "/var/www"
  | "mail" => some "/var/mail"
  | "man" => some "/var/cache/man"
  | "ubuntu" => some "/home/ubuntu"
  | _ => none

def directoryOf (s : State) (name : Text) : Option Text :=
  match name with
  | [] => some ((s.text? "HOME").getD "/root")
  | ['+'] => s.text? "PWD"
  | ['-'] => s.text? "OLDPWD"
  | _ => homeOf name

/-- Tildes at the start of a text, and in assignments behind colons. `isWhole` tells that nothing
else belongs to the word. -/
def tildes (s : State) (inAssignment isWhole : Bool) : Nat → Bool → Text → List Glyph
  | 0, _, t => ofText .plain t
  | _, _, [] => []
  | fuel + 1, isStart, c :: rest =>
    let isEnd (c : Char) : Bool := c == '/' || c == ':'
    let name := rest.takeWhile fun c => !isEnd c
    let after := rest.drop name.length
    let next (c : Char) : Bool := inAssignment && c == ':'
    if c = '~' ∧ isStart ∧ (after ≠ [] ∨ isWhole) then
      match directoryOf s name with
      | some dir => ofText .quoted dir ++ tildes s inAssignment isWhole fuel false after
      | none => .char c .plain :: tildes s inAssignment isWhole fuel false rest
    else .char c .plain :: tildes s inAssignment isWhole fuel (next c) rest

def withTildes (go : Context → Text → ShellM Expanded) (c : Context) (whole : Text)
    (inAssignment : Bool) : Bool → List Piece → ShellM Expanded
  | _, [] => return ⟨[], false⟩
  | isStart, .plain t :: rest => do
    let gs := tildes (← get) inAssignment rest.isEmpty (t.length + 1) isStart t
    let b ← withTildes go c whole inAssignment (inAssignment && t.getLast? = some ':') rest
    return ⟨gs ++ b.glyphs, b.sawList⟩
  | _, p :: rest => do
    let a ← piece x go c whole p
    let b ← withTildes go c whole inAssignment false rest
    return ⟨a.glyphs ++ b.glyphs, a.sawList || b.sawList⟩

def expandWithin : Nat → Context → Text → ShellM Expanded
  | 0, _, t => giveUp 1 (t ++ ": bad substitution")
  | depth + 1, c, t => fun s k =>
    let ps := Piece.ofText s.dialect c.quoting c.inBraces t
    if c.quoting = .none ∧ c.inBraces ∧ t.head? = some '~' then
      withTildes x (expandWithin depth) c t false true ps s k
    else pieces x (expandWithin depth) c t ps s k

def depthLimit : Nat := 1000

def expand (c : Context) (t : Text) : ShellM Expanded := expandWithin x depthLimit c t

/-! Words in their places. -/

def assignmentHead (t : Text) : Option (Text × Text) :=
  if Lexeme.isAssignment t then
    match Text.cutAt (· == '=') t with
    | some (a, b) => some (a ++ ['='], b)
    | none => none
  else none

def wordGlyphs (splits : Bool) (t : Text) : ShellM (List Glyph) := do
  let c : Context := { splits := splits }
  let s ← get
  match assignmentHead t with
  | some (head, value) =>
    let a ← expand x c head
    let b ← withTildes x (expand x) c t true true (Piece.ofText s.dialect .none false value)
    return a.glyphs ++ b.glyphs
  | none =>
    let e ← withTildes x (expand x) c t false true (Piece.ofText s.dialect .none false t)
    return e.glyphs

def assignedText (t : Text) : ShellM Text := do
  let e ← withTildes x (expand x) Context.single t true true
    (Piece.ofText (← get).dialect .none false t)
  return text e.glyphs

def singleText (t : Text) : ShellM Text := do
  let e ← withTildes x (expand x) Context.single t false true
    (Piece.ofText (← get).dialect .none false t)
  return text e.glyphs

def documentText (t : Text) : ShellM Text := do
  return text (← expand x { quoting := .document, splits := false } t).glyphs

def expressionText (t : Text) : ShellM Text := do
  return text (← expand x Context.expression t).glyphs

def patternChars (t : Text) : ShellM (List PatternChar) := do
  let e ← withTildes x (expand x) Context.single t false true
    (Piece.ofText (← get).dialect .none false t)
  return Glyph.patternChars e.glyphs

end Expansion

end Runbook.Shell
