import Runbook.Toml.Quoted
import Runbook.Toml.Reserved

/-!
Reading a TOML document. The whole text has to be valid; what is wrong with it is not told.
-/
namespace Runbook.Toml

def depthLimit : Nat := 80

def isBareKeyChar (c : Char) : Bool := c.isAlphanum || c == '_' || c == '-'

def readKeyPart (t : Text) : Option (Text × Text) :=
  match t with
  | '"' :: rest => readBasic rest
  | '\'' :: rest => readLiteral rest
  | _ =>
    let run := t.takeWhile isBareKeyChar
    if run = [] then none else some (run, t.dropWhile isBareKeyChar)

def readKeyParts : Nat → Text → Option (List Text × Text)
  | 0, _ => none
  | fuel + 1, t => do
    let (part, rest) ← readKeyPart (skipGap t)
    match skipGap rest with
    | '.' :: more =>
      let (parts, after) ← readKeyParts fuel more
      return (part :: parts, after)
    | after => return ([part], after)

def readKey (t : Text) : Option (List Text × Text × Text) := do
  let (parts, after) ← readKeyParts t.length t
  let last ← parts.getLast?
  if parts.length < depthLimit then return (parts.dropLast, last, after) else none

def skipComment (t : Text) : Text :=
  match t with
  | '#' :: rest => rest.dropWhile isPlain
  | _ => t

def skipLines : Nat → Text → Text
  | 0, t => t
  | fuel + 1, t =>
    let t := skipGap t
    match afterNewline (skipComment t) with
    | some rest => skipLines fuel rest
    | none => t

mutual

def readValue : Nat → Nat → Text → Option (Item × Text)
  | 0, _, _ => none
  | fuel + 1, depth, t =>
    match t with
    | '[' :: rest =>
      if depthLimit ≤ depth + 1 then none
      else (readItems fuel (depth + 1) rest).map fun (items, after) => (.array items, after)
    | '{' :: rest =>
      if depthLimit ≤ depth + 1 then none
      else
        match skipGap rest with
        | '}' :: after => some (.inline [], after)
        | _ => (readPairs fuel (depth + 1) [] rest).map fun (entries, after) => (.inline entries, after)
    | c :: _ =>
      if c = '"' ∨ c = '\'' then (readQuoted t).map fun (text, after) => (.string text, after)
      else readScalar t
    | [] => none

def readItems : Nat → Nat → Text → Option (List Item × Text)
  | 0, _, _ => none
  | fuel + 1, depth, t =>
    match skipLines t.length t with
    | ']' :: after => some ([], after)
    | t => do
      let (item, rest) ← readValue fuel depth t
      match skipLines rest.length rest with
      | ',' :: more =>
        let (items, after) ← readItems fuel depth more
        return (item :: items, after)
      | ']' :: after => return ([item], after)
      | _ => none

def readPairs : Nat → Nat → Entries → Text → Option (Entries × Text)
  | 0, _, _, _ => none
  | fuel + 1, depth, entries, t => do
    let (path, key, rest) ← readKey t
    match rest with
    | '=' :: rest =>
      let (item, rest) ← readValue fuel depth (skipGap rest)
      let entries ← Entries.define path key item false entries
      match skipGap rest with
      | ',' :: more => readPairs fuel depth entries more
      | '}' :: after => return (entries, after)
      | _ => none
    | _ => none

end

def readLineEnd (t : Text) : Option Text :=
  match skipComment (skipGap t) with
  | [] => some []
  | rest => afterNewline rest

/-- A document in reading: its root, and the path of the table that keys go to. -/
structure Draft where
  root : Entries := []
  current : List Text := []

/-- A header line; `double` tells a list of tables. -/
def Draft.header (d : Draft) (double : Bool) (t : Text) : Option (Draft × Text) := do
  let (path, key, rest) ← readKey t
  let change := if double then Entries.openElement key else Entries.openTable key
  let root ← Entries.descend false (fun _ => change) path false d.root
  let after ←
    match double, rest with
    | true, ']' :: ']' :: after => some after
    | false, ']' :: after => some after
    | _, _ => none
  return (⟨root, path ++ [key]⟩, ← readLineEnd after)

def Draft.pair (d : Draft) (t : Text) : Option (Draft × Text) := do
  let (path, key, rest) ← readKey t
  match rest with
  | '=' :: rest =>
    let (item, rest) ← readValue (2 * rest.length + 2) 0 (skipGap rest)
    let root ← Entries.descend false (fun _ => Entries.define path key item false) d.current false d.root
    return ({ d with root := root }, ← readLineEnd rest)
  | _ => none

def Draft.lines : Nat → Draft → Text → Option Entries
  | 0, _, _ => none
  | fuel + 1, d, t =>
    match skipGap t with
    | [] => some d.root
    | '[' :: '[' :: rest => do
      let (d, rest) ← d.header true rest
      Draft.lines fuel d rest
    | '[' :: rest => do
      let (d, rest) ← d.header false rest
      Draft.lines fuel d rest
    | '#' :: rest => do
      let rest ← readLineEnd ('#' :: rest)
      Draft.lines fuel d rest
    | t =>
      match afterNewline t with
      | some rest => Draft.lines fuel d rest
      | none => do
        let (d, rest) ← d.pair t
        Draft.lines fuel d rest

def parse (t : Text) : Option Entries :=
  let t := if t.head? = some '﻿' then t.drop 1 else t
  (Draft.lines (t.length + 1) {} t).bind settledEntries

end Runbook.Toml
