import Runbook.Text.Basic

/-!
Paths as they are written: a lead (the root, a leading dot, or nothing) and segments between slashes.
Normalising resolves dots and double dots without looking at any file.
-/
namespace Runbook

structure Path where
  text : Text
deriving DecidableEq, Repr

variable (p : Path)

instance : Inhabited Path := ⟨⟨[]⟩⟩

instance : Coe String Path := ⟨fun s => ⟨s.toList⟩⟩

inductive Component where
  | root
  | here
  | up
  | name (n : Text)
deriving DecidableEq, Repr

namespace Component

def text : Component → Text
  | root => "/"
  | here => "."
  | up => ".."
  | name n => n

def ofSegment (s : Text) : Option Component :=
  if s = [] ∨ s = ['.'] then none else if s = ['.', '.'] then some up else some (name s)

/-- Root first, then a leading dot, then double dots, then names by code point. -/
def le : Component → Component → Bool
  | root, _ => true
  | here, root => false
  | here, _ => true
  | up, root | up, here => false
  | up, _ => true
  | name a, name b => a.le b
  | name _, _ => false

end Component

namespace Path

def isAbsolute : Bool := p.text.head? = some '/'

def split (t : Text) : Option Component × Text :=
  match t with
  | '/' :: body => (some .root, body)
  | ['.'] => (some .here, [])
  | '.' :: '/' :: body => (some .here, '/' :: body)
  | body => (none, body)

def segments (body : Text) : List Text := body.splitOn '/'

/-- The meaningful parts in order. A dot counts only at the very start of a relative path. -/
def components : List Component :=
  (split p.text).1.toList ++ (segments (split p.text).2).filterMap Component.ofSegment

/-- `p` extended by `t`; an absolute `t` takes the place of `p`. -/
def push (t : Text) : Path :=
  if t.head? = some '/' then ⟨t⟩
  else if p.text = [] ∨ p.text.getLast? = some '/' then ⟨p.text ++ t⟩
  else ⟨p.text ++ '/' :: t⟩

def join (p q : Path) : Path := p.push q.text

def extend (cs : List Component) : Path := cs.foldl (fun q c => q.push c.text) p

def ofComponents (cs : List Component) : Path := extend ⟨[]⟩ cs

/-- Drops the segments at the end that mean nothing. -/
def trimSegments (segs : List Text) : List Text :=
  (segs.reverse.dropWhile fun s => (Component.ofSegment s).isNone).reverse

/-- The path without its last part; none for the root and for the empty path. -/
def parent : Option Path :=
  let lead := (split p.text).1
  let leadText := (lead.map Component.text).getD []
  match (trimSegments (segments (split p.text).2)).reverse with
  | _ :: before => some ⟨leadText ++ ['/'].intercalate (trimSegments before.reverse)⟩
  | [] => if lead = some .here then some ⟨[]⟩ else none

/-- The path and all its parents, from the longest on. -/
def ancestors : List Path := go (p.text.length + 1) p
where
  go : Nat → Path → List Path
    | 0, _ => []
    | fuel + 1, p =>
      match p.parent with
      | some q => p :: go fuel q
      | none => [p]

def fileName : Option Text :=
  match p.components.getLast? with
  | some (.name n) => some n
  | _ => none

/-- A file name cut at its last dot; a dot at the start does not count. -/
def splitName (n : Text) : Text × Option Text :=
  match n.cutAtLast (· == '.') with
  | some (stem, ext) => if stem = [] then (n, none) else (stem, some ext)
  | none => (n, none)

def extension : Option Text := p.fileName.bind fun n => (splitName n).2

def stem : Option Text := p.fileName.map fun n => (splitName n).1

/-- The path with another extension behind the stem of its file name. -/
def withExtension (ext : Text) : Path :=
  match p.parent, p.stem with
  | some dir, some stem => dir.push (stem ++ '.' :: ext)
  | _, _ => p

/-- One part of a normal form: a double dot takes back the part before it. -/
def normalStep (done : List Component) : Component → List Component
  | .here => done
  | .up =>
    match done with
    | [] => [.up]
    | [.root] => [.up, .root]
    | _ :: before => before
  | c => c :: done

def normalParts (cs : List Component) : List Component := (cs.foldl normalStep []).reverse

def normalize : Path := ofComponents (normalParts p.components)

/-- The path seen from the current directory. An empty path stays as it is, two leading slashes and a
trailing slash are kept. -/
def absolute (cwd p : Path) : Path :=
  let parts := p.components
  let whole :=
    if p.text.startsWith "//" && !p.text.startsWith "///" then extend "//" (parts.drop 1)
    else if p.isAbsolute then ofComponents parts
    else extend (Path.push "/" cwd.text) (parts.filter (· ≠ .here))
  if p.text = [] then p else if p.text.getLast? = some '/' then whole.push [] else whole

def resolve (p cwd : Path) : Path := (absolute cwd p).normalize

/-- The parts that two lists have in common at their start are dropped from both. -/
def dropShared : List Component → List Component → List Component × List Component
  | a :: as, b :: bs => if a = b then dropShared as bs else (a :: as, b :: bs)
  | as, bs => (as, bs)

/-- The path that leads from the directory `base` to `dest`. -/
def relative (base dest : Path) : Path :=
  let rests := dropShared base.components dest.components
  ofComponents (rests.1.map (fun _ => .up) ++ rests.2)

def le (p q : Path) : Bool := go p.components q.components
where
  go : List Component → List Component → Bool
    | [], _ => true
    | _ :: _, [] => false
    | a :: as, b :: bs => if a = b then go as bs else a.le b

end Path

end Runbook
