import Runbook.Program.Lines

/-!
Programs that take lines apart into bytes and fields, and put them side by side.
-/
namespace Runbook.Program
open Kernel

variable (l : Launch)

/-! Ranges. -/

structure NumberRange where
  first : Nat
  last : Option Nat

inductive RangeError where
  | zero
  | noEnds
  | decreasing
  | invalid (t : Text)

def RangeError.message (ofFields : Bool) : RangeError → Text
  | zero => if ofFields then "fields are numbered from 1" else "byte/character positions are numbered from 1"
  | noEnds => "invalid range with no endpoint: -"
  | decreasing => "invalid decreasing range"
  | invalid t => (if ofFields then "invalid field value " else "invalid byte/character position ").toList ++ cited t

def parseRange (t : Text) : Except RangeError NumberRange :=
  let number (d : Text) : Except RangeError Nat :=
    match natural? d with
    | some 0 => .error .zero
    | some n => .ok n
    | none => .error (.invalid d)
  match Text.cutAt (· == '-') t with
  | none => (number t).map fun n => ⟨n, some n⟩
  | some ([], []) => .error .noEnds
  | some ([], b) => (number b).map fun n => ⟨1, some n⟩
  | some (a, []) => (number a).map fun n => ⟨n, none⟩
  | some (a, b) =>
    match number a, number b with
    | .ok m, .ok n => if n < m then .error .decreasing else .ok ⟨m, some n⟩
    | .error e, _ => .error e
    | _, .error e => .error e

def mergeRanges : List NumberRange → List NumberRange
  | [] => []
  | [r] => [r]
  | a :: b :: rest =>
    match a.last with
    | none => [a]
    | some n =>
      if b.first ≤ n then mergeRanges (⟨a.first, b.last.map (max n)⟩ :: rest) else a :: mergeRanges (b :: rest)
termination_by rs => rs.length

def parseRanges (t : Text) : Except RangeError (List NumberRange) := do
  let rs ← (t.splitOnP fun c => c == ',' || c == ' ' || c == '\t').mapM parseRange
  return mergeRanges (rs.mergeSort fun a b => a.first ≤ b.first)

def otherRanges : Nat → List NumberRange → List NumberRange
  | next, [] => [⟨next, none⟩]
  | next, r :: rest =>
    let before := if next < r.first then [⟨next, some (r.first - 1)⟩] else []
    match r.last with
    | none => before
    | some n => before ++ otherRanges (n + 1) rest

def NumberRange.slice {α : Type} (r : NumberRange) (xs : List α) : List α :=
  let rest := xs.drop (r.first - 1)
  match r.last with
  | some n => rest.take (n + 1 - r.first)
  | none => rest

/-! Cutting. -/

def cut : Proc Unit := do
  let g ← options l (.of "b:c:d:f:nsz"
    ("bytes:=b characters:=c delimiter:=d fields:=f only-delimited=s zero-terminated=z complement " ++
      "output-delimiter:"))
  let lists := g.options.filter fun (k, _) => k = ['b'] ∨ k = ['c'] ∨ k = ['f']
  match lists with
  | [] => misuse l "you must specify a list of bytes, characters, or fields"
  | _ :: _ :: _ => misuse l "only one list may be specified"
  | [(key, text)] =>
    let ofFields := key = ['f']
    let delimiter := (g.last? "d").getD ['\t']
    if 1 < delimiter.length then misuse l "the delimiter must be a single character"
    if !ofFields ∧ g.has "d" then misuse l "an input delimiter may be specified only when operating on fields"
    if !ofFields ∧ g.has "s" then
      misuse l "suppressing non-delimited lines makes sense\n\tonly when operating on fields"
    match parseRanges text with
    | .error e => misuse l (e.message ofFields)
    | .ok rs =>
      let rs := if g.has "complement" then otherRanges 1 rs else rs
      let mark := delimiter.headD '\x00'
      let joint := (g.last? "output-delimiter").getD (if ofFields then [mark] else [])
      let stop := g.stop
      let one (line : Text) : Text :=
        if ofFields then
          let fields := line.splitOn mark
          if fields.length = 1 then if g.has "s" then [] else line ++ [stop]
          else joint.intercalate (rs.flatMap (·.slice fields)) ++ [stop]
        else joint.intercalate ((rs.map (·.slice line)).filter (· ≠ [])) ++ [stop]
      let ok ← eachFile l g.inputs refused fun t => (linesOf stop t).flatMap one
      done ok

/-! Side by side. -/

def delimiters : Text → Option (List Text)
  | [] => some []
  | ['\\'] => none
  | '\\' :: c :: rest =>
    let mark : Text :=
      match c with
      | '0' => []
      | 'n' => ['\n']
      | 't' => ['\t']
      | 'b' => ['\x08']
      | 'f' => ['\x0c']
      | 'r' => ['\r']
      | 'v' => ['\x0b']
      | c => [c]
    (delimiters rest).map (mark :: ·)
  | c :: rest => (delimiters rest).map ([c] :: ·)

def joinRound (marks : Array Text) (fields : List Text) : Text :=
  (fields.zipIdx.map fun (f, i) => if i = 0 then f else marks.getD ((i - 1) % marks.size) [] ++ f).flatten

def zipColumns (marks : Array Text) : Nat → List (List Text) → List Text
  | 0, _ => []
  | fuel + 1, columns =>
    if columns.all List.isEmpty then []
    else joinRound marks (columns.map (·.headD [])) :: zipColumns marks fuel (columns.map (·.drop 1))

def dealLines (count at_ : Nat) (lines : List Text) : List Text :=
  (lines.zipIdx.filter fun (_, i) => i % count = at_).map (·.1)

def paste : Proc Unit := do
  let g ← options l (.of "d:sz" "delimiters:=d serial=s zero-terminated=z")
  let list := (g.last? "d").getD ['\t']
  let stop := g.stop
  match delimiters list with
  | none => fail l ("delimiter list ends with an unescaped backslash: " ++ list)
  | some marks =>
    let marks := (if marks = [] then [[]] else marks).toArray
    let paths := g.inputs
    let inputs := (paths.filter (· = ['-'])).length
    let input ← if 0 < inputs then pure ((← Proc.readAll 0).toOption.getD []) else pure []
    if g.has "s" then
      let mut ok := true
      for path in paths do
        let r ← if path = ['-'] then pure (.ok input) else readOperand path
        match r with
        | .ok t => emit l (joinRound marks (linesOf stop t) ++ [stop])
        | .error f =>
          say l (refused path f)
          ok := false
      done ok
    else
      let mut columns : List (List Text) := []
      let mut seen := 0
      for path in paths do
        if path = ['-'] then
          columns := columns ++ [dealLines inputs seen (linesOf stop input)]
          seen := seen + 1
        else
          match ← readOperand path with
          | .ok t => columns := columns ++ [linesOf stop t]
          | .error f => fail l (refused path f)
      let most := (columns.map List.length).foldl max 0
      emit l ((zipColumns marks (most + 1) columns).flatMap (· ++ [stop]))
      done true

/-! Neighbours that are alike. -/

def comparedPart (fields chars : Nat) (width : Option Nat) (line : Text) : Text :=
  let isBlank (c : Char) : Bool := c == ' ' || c == '\t'
  let rec skip : Nat → Text → Text
    | 0, t => t
    | n + 1, t => skip n ((t.dropWhile isBlank).dropWhile fun c => !isBlank c)
  let rest := (skip fields line).drop chars
  match width with
  | some n => rest.take n
  | none => rest

def runsBy (key : Text → Text) : List Text → List (List Text)
  | [] => []
  | a :: rest =>
    match runsBy key rest with
    | (b :: more) :: runs => if key a = key b then (a :: b :: more) :: runs else [a] :: (b :: more) :: runs
    | runs => [a] :: runs

def uniq : Proc Unit := do
  let g ← options l (.of "cdDf:is:uw:z"
    ("count=c repeated=d all-repeated::=D skip-fields:=f ignore-case=i skip-chars:=s unique=u check-chars:=w " ++
      "zero-terminated=z group::"))
  let number (key : Text) (what : String) : Proc (Option Nat) :=
    match g.last? key with
    | none => pure none
    | some t =>
      match natural? t with
      | some n => pure (some n)
      | none => fail l (shown t ++ ": invalid number of " ++ what.toList)
  let fields ← number "f" "fields to skip"
  let chars ← number "s" "bytes to skip"
  let width ← number "w" "bytes to compare"
  if 2 < g.operands.length then misuse l ("extra operand " ++ cited (g.operands.getD 2 []))
  let stop := g.stop
  let key (line : Text) : Text :=
    let part := comparedPart (fields.getD 0) (chars.getD 0) width line
    if g.has "i" then part.map Char.toLower else part
  match ← readOperand (g.operands.getD 0 ['-']) with
  | .error f => fail l (refused (g.operands.getD 0 ['-']) f)
  | .ok t =>
    let runs := runsBy key (linesOf stop t)
    let runs := runs.filter fun r =>
      (!(g.has "d" || g.has "D") || 1 < r.length) && (!g.has "u" || r.length = 1)
    let out : Text :=
      if g.has "group" then [stop].intercalate (runs.map fun r => r.flatMap (· ++ [stop]))
      else if g.has "D" then
        match g.last? "D" with
        | some how =>
          if how = "separate" then [stop].intercalate (runs.map fun r => r.flatMap (· ++ [stop]))
          else if how = "prepend" then runs.flatMap fun r => stop :: r.flatMap (· ++ [stop])
          else runs.flatMap fun r => r.flatMap (· ++ [stop])
        | none => []
      else
        runs.flatMap fun r =>
          (if g.has "c" then padLeft 7 (Text.ofNat r.length) ++ [' '] else []) ++ r.headD [] ++ [stop]
    match g.operands.getD 1 ['-'] with
    | ['-'] => emit l out
    | path =>
      match ← openOutput path .forWriting with
      | .error f => fail l (refused path f)
      | .ok fd =>
        let _ ← Proc.write fd out
        closeFile fd
    done true

/-! What two files share. -/

/-- Lines with the column they stand in: only in the first, only in the second, or in both. `fuel` is
more than the number of lines. -/
def compareLines : Nat → List Text → List Text → List (Nat × Text)
  | 0, _, _ => []
  | _, [], bs => bs.map (1, ·)
  | _, as, [] => as.map (0, ·)
  | fuel + 1, a :: as, b :: bs =>
    if a = b then (2, a) :: compareLines fuel as bs
    else if Text.le a b then (0, a) :: compareLines fuel as (b :: bs)
    else (1, b) :: compareLines fuel (a :: as) bs

def isSorted : List Text → Bool
  | a :: b :: rest => Text.le a b && isSorted (b :: rest)
  | _ => true

def comm : Proc Unit := do
  let g ← options l (.of "123z"
    "check-order nocheck-order output-delimiter: total zero-terminated=z")
  match g.operands with
  | [] => misuse l "missing operand"
  | [a] => misuse l ("missing operand after " ++ cited a)
  | _ :: _ :: c :: _ => misuse l ("extra operand " ++ cited c)
  | [a, b] =>
    let stop := g.stop
    match ← readOperand a, ← readOperand b with
    | .error f, _ => fail l (refused a f)
    | _, .error f => fail l (refused b f)
    | .ok x, .ok y =>
      let xs := linesOf stop x
      let ys := linesOf stop y
      let mark := (g.last? "output-delimiter").getD ['\t']
      let hidden (k : Nat) : Bool := g.has (Text.ofNat (k + 1))
      let lead (k : Nat) : Text := ((List.range k).filter fun j => !hidden j).flatMap fun _ => mark
      let rows := (compareLines (xs.length + ys.length + 1) xs ys).filter fun (k, _) => !hidden k
      emit l (rows.flatMap fun (k, t) => lead k ++ t ++ [stop])
      if !g.has "nocheck-order" ∧ (!isSorted xs ∨ !isSorted ys) then
        if !isSorted xs then say l "file 1 is not in sorted order"
        if !isSorted ys then say l "file 2 is not in sorted order"
        fail l "input is not in sorted order"
      done true

end Runbook.Program
