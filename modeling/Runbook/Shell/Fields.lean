import Runbook.Shell.Expansion

/-!
Fields of a command: words with braces give several words, values are split, and patterns are
replaced by the names of the files that they match.
-/
namespace Runbook.Shell
open ShellM Kernel

namespace Fields

structure Step where
  name : List PatternChar
  slashes : Text

def steps : List PatternChar → List PatternChar → List Step
  | name, [] => if name = [] then [] else [⟨name.reverse, []⟩]
  | name, p :: rest =>
    if p.char = '/' then
      match steps [] rest with
      | ⟨[], more⟩ :: others => ⟨name.reverse, '/' :: more⟩ :: others
      | others => ⟨name.reverse, ['/']⟩ :: others
    else steps (p :: name) rest

def bareName : List PatternChar → Text
  | [] => []
  | ⟨'\\', false⟩ :: p :: rest => p.char :: bareName rest
  | p :: rest => p.char :: bareName rest

def isDirectory (path : Text) : ShellM Bool := do
  match ← call fun pid => do return (← Sys.disk).isDirectory (← Sys.stat pid true path) with
  | .ok b => return b
  | .error _ => return false

def isThere (path : Text) : ShellM Bool := do
  match ← call fun pid => Sys.stat pid false path with
  | .ok _ => return true
  | .error _ => return false

def namesIn (base : Text) (p : Pattern) : ShellM (List Text) := do
  let s ← get
  let dir := if base = [] then ['.'] else base
  match ← call fun pid => Sys.listing pid dir with
  | .ok entries =>
    let m : Pattern.Matcher := ⟨s.does "nocaseglob"⟩
    let startsWithDot := (p.head?.map fun i => i matches .exactly '.').getD false
    let shows (name : Text) : Bool :=
      (name.head? ≠ some '.' || startsWithDot || s.does "dotglob") && p.isMatch m name
    let dots : List Text := if startsWithDot ∧ !s.does "globskipdots" then [".", ".."] else []
    return (dots ++ entries.map (·.1)).filter shows
  | .error _ => return []

def directoriesBelow : Nat → Text → ShellM (List Text)
  | 0, base => return [base]
  | fuel + 1, base => do
    let dir := if base = [] then ['.'] else base
    match ← call fun pid => Sys.listing pid dir with
    | .ok entries => do
      let showsAll := (← get).does "dotglob"
      let names := (entries.map (·.1)).filter fun n => showsAll || n.head? ≠ some '.'
      let below ← concat (fun name => do
        if ← isDirectory (base ++ name) then directoriesBelow fuel (base ++ name ++ ['/']) else return []) names
      return base :: below
    | .error _ => return [base]

def follow (lists globstar : Bool) : Text → List Step → ShellM (List Text)
  | base, [] => return [base]
  | base, step :: rest =>
    let p := Pattern.read lists step.name
    if globstar ∧ step.name = [⟨'*', false⟩, ⟨'*', false⟩] then do
      let dirs ← directoriesBelow 50 base
      if rest = [] then
        if step.slashes ≠ [] then return dirs.filter (· ≠ [])
        else do
          let all ← concat (fun dir => do
            let names ← namesIn dir [.anyMany]
            return names.map (dir ++ ·)) dirs
          return if base = [] then all else base :: all
      else concat (fun dir => follow lists globstar dir rest) dirs
    else if p.isGlob then do
      let names ← namesIn base p
      concat (fun name => do
        let path := base ++ name
        if rest = [] ∧ step.slashes = [] then return [path]
        else if ← isDirectory path then follow lists globstar (path ++ step.slashes) rest
        else return []) names
    else
      let path := base ++ bareName step.name
      if rest = [] then do
        let whole := path ++ step.slashes
        if ← isThere whole then return [whole] else return []
      else follow lists globstar (path ++ step.slashes) rest

def isPattern (lists : Bool) (cs : List PatternChar) : Bool := (Pattern.read lists cs).isGlob

def ignoredFrom : Text → List PatternChar → List (List PatternChar)
  | [], current => [current.reverse]
  | '\\' :: c :: rest, current => ignoredFrom rest (⟨c, false⟩ :: ⟨'\\', false⟩ :: current)
  | ':' :: rest, current => current.reverse :: ignoredFrom rest []
  | c :: rest, current => ignoredFrom rest (⟨c, false⟩ :: current)

def isIgnored (m : Pattern.Matcher) (lists : Bool) (patterns : List (List PatternChar)) (path : Text) : Bool :=
  let slashes (t : Text) : Nat := (t.filter (· == '/')).length
  patterns.any fun cs =>
    slashes (cs.map (·.char)) = slashes path &&
      ((List.splitOn '/' path).zip (cs.splitOnP (·.char == '/'))).all fun (t, part) =>
        (Pattern.read lists part).isMatch m t

def files (gs : List Glyph) : ShellM (List Text) := do
  let s ← get
  let cs := Glyph.patternChars gs
  let lists := s.does "extglob"
  let plain := Glyph.text gs
  if s.isOn .noglob ∨ !isPattern lists cs then return [plain]
  else
    let all ← follow lists (s.does "globstar") [] (steps [] cs)
    let ignored := (ignoredFrom (s.textOf "GLOBIGNORE") []).filter (· ≠ [])
    let found := all.filter fun path => !isIgnored ⟨s.does "nocaseglob"⟩ lists ignored path
    match found with
    | [] =>
      if s.does "failglob" then giveUp 1 ("no match: " ++ plain)
      else if s.does "nullglob" then return []
      else return [plain]
    | _ => return found.mergeSort Text.le

def ofWord (x : Substituter) (t : Text) : ShellM (List Text) := do
  let s ← get
  let words := if s.isOn .braceexpand then Brace.expand s.dialect t else [t]
  concat (fun w => do
    let gs ← Expansion.wordGlyphs x true w
    let fields := Glyph.split (← get).dividers gs
    concat files fields) words

def ofWords (x : Substituter) (ts : List Text) : ShellM (List Text) := concat (ofWord x) ts

end Fields

end Runbook.Shell
