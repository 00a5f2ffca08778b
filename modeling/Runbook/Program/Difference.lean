import Runbook.Text.Basic

/-!
What two sequences do not share. The marks come from a shortest way through both sequences, searched from
both ends at once, and stretches of marks are moved so that they merge and end as late as they can.
-/
namespace Runbook.Program.Difference

/-- Two sequences; members that count as equal have the same number. -/
structure Sides where
  old : Array Nat
  new : Array Nat

variable (s : Sides)

structure Marks where
  old : Array Bool
  new : Array Bool

/-- A stretch of the old side and one of the new side, each from its first member to the one behind its
last. -/
structure Block where
  oldStart : Nat
  oldStop : Nat
  newStart : Nat
  newStop : Nat

def same (x y : Nat) : Bool :=
  match s.old[x]?, s.new[y]? with
  | some a, some b => a = b
  | _, _ => false

/-! The way between two ends. -/

def forward (b : Block) : Nat → Nat → Nat → Nat
  | 0, x, _ => x
  | n + 1, x, y => if x < b.oldStop ∧ y < b.newStop ∧ same s x y then forward b n (x + 1) (y + 1) else x

def backward (b : Block) : Nat → Nat → Nat → Nat
  | 0, x, _ => x
  | n + 1, x, y =>
    if b.oldStart < x ∧ b.newStart < y ∧ same s (x - 1) (y - 1) then backward b n (x - 1) (y - 1) else x

/-- The diagonals that one search has reached, and how far it has come on each. -/
structure Search where
  least : Int
  most : Int
  reached : Array Int

def place (d : Int) : Nat := (d + s.new.size + 1).toNat

def Search.get (q : Search) (s : Sides) (d : Int) : Int := q.reached.getD (place s d) 0

def Search.put (q : Search) (s : Sides) (d x : Int) : Search := { q with reached := q.reached.setIfInBounds (place s d) x }

def Search.widen (q : Search) (s : Sides) (low high edge : Int) : Search :=
  let q := if low < q.least then { q.put s (q.least - 2) edge with least := q.least - 1 } else { q with least := q.least + 1 }
  if q.most < high then { q.put s (q.most + 2) edge with most := q.most + 1 } else { q with most := q.most - 1 }

def Search.diagonals (q : Search) : List Int :=
  (List.range ((q.most - q.least) / 2 + 1).toNat).map fun (i : Nat) => q.most - 2 * (i : Int)

def stepForward (b : Block) (odd : Bool) (back : Search) : List Int → Search → Search × Option (Nat × Nat)
  | [], q => (q, none)
  | d :: rest, q =>
    let low := q.get s (d - 1)
    let high := q.get s (d + 1)
    let x0 := if low < high then high else low + 1
    let x := forward s b (b.oldStop + 1) x0.toNat (x0 - d).toNat
    let q := q.put s d x
    if odd ∧ back.least ≤ d ∧ d ≤ back.most ∧ back.get s d ≤ x then (q, some (x, ((x : Int) - d).toNat))
    else stepForward b odd back rest q

def stepBackward (b : Block) (odd : Bool) (front : Search) : List Int → Search → Search × Option (Nat × Nat)
  | [], q => (q, none)
  | d :: rest, q =>
    let low := q.get s (d - 1)
    let high := q.get s (d + 1)
    let x0 := if low < high then low else high - 1
    let x := backward s b (b.oldStop + 1) x0.toNat (x0 - d).toNat
    let q := q.put s d x
    if !odd ∧ front.least ≤ d ∧ d ≤ front.most ∧ (x : Int) ≤ front.get s d then (q, some (x, ((x : Int) - d).toNat))
    else stepBackward b odd front rest q

def meet (b : Block) (low high far : Int) (odd : Bool) : Nat → Search → Search → Nat × Nat
  | 0, _, _ => (b.oldStart, b.newStart)
  | fuel + 1, front, back =>
    let front := front.widen s low high (-1)
    match stepForward s b odd back front.diagonals front with
    | (_, some point) => point
    | (front, none) =>
      let back := back.widen s low high far
      match stepBackward s b odd front back.diagonals back with
      | (_, some point) => point
      | (back, none) => meet b low high far odd fuel front back

def middle (b : Block) : Nat × Nat :=
  let size := s.old.size + s.new.size + 5
  let front : Int := (b.oldStart : Int) - b.newStart
  let back : Int := (b.oldStop : Int) - b.newStop
  let far : Int := size + 1
  let start (d x : Int) : Search := Search.put ⟨d, d, Array.replicate size 0⟩ s d x
  meet s b ((b.oldStart : Int) - b.newStop) ((b.oldStop : Int) - b.newStart) far ((front - back) % 2 ≠ 0) size
    (start front b.oldStart) (start back b.oldStop)

/-! Marks. -/

def markAll (marks : Array Bool) (start stop : Nat) : Array Bool :=
  (List.range (stop - start)).foldl (fun m i => m.setIfInBounds (start + i) true) marks

def markBlock : Nat → Block → Marks → Marks
  | 0, _, m => m
  | fuel + 1, b, m =>
    let x := forward s b (b.oldStop + 1) b.oldStart b.newStart
    let b := { b with oldStart := x, newStart := b.newStart + (x - b.oldStart) }
    let x := backward s b (b.oldStop + 1) b.oldStop b.newStop
    let b := { b with oldStop := x, newStop := b.newStop - (b.oldStop - x) }
    if b.oldStart = b.oldStop then { m with new := markAll m.new b.newStart b.newStop }
    else if b.newStart = b.newStop then { m with old := markAll m.old b.oldStart b.oldStop }
    else
      let (x, y) := middle s b
      let m := markBlock fuel { b with oldStop := x, newStop := y } m
      markBlock fuel { b with oldStart := x, newStart := y } m

def marksOf : Marks :=
  let isLost (other : Array Nat) (c : Nat) : Bool := !other.contains c
  let lostOld := s.old.map (isLost s.new)
  let lostNew := s.new.map (isLost s.old)
  let kept (cs : Array Nat) (lost : Array Bool) : Array (Nat × Nat) :=
    (cs.zipIdx).filter fun (_, i) => !(lost.getD i false)
  let (keptOld, keptNew) := (kept s.old lostOld, kept s.new lostNew)
  let inner : Sides := ⟨keptOld.map (·.1), keptNew.map (·.1)⟩
  let (n, k) := (inner.old.size, inner.new.size)
  let m := markBlock inner (n + k + 2) ⟨0, n, 0, k⟩ ⟨Array.replicate n false, Array.replicate k false⟩
  let spread (lost : Array Bool) (kept : Array (Nat × Nat)) (marks : Array Bool) : Array Bool :=
    (kept.zip marks).foldl (fun all ((_, i), mark) => all.setIfInBounds i mark) lost
  ⟨spread lostOld keptOld m.old, spread lostNew keptNew m.new⟩

/-! Moving stretches of marks. -/

/-- A stretch of marks on one side, and the place on the other side that belongs to its end. -/
structure Stretch where
  marks : Array Bool
  start : Nat
  stop : Nat
  other : Nat

def isMarked (marks : Array Bool) (i : Nat) : Bool := marks.getD i false

def unmarkedFrom (marks : Array Bool) : Nat → Nat → Nat
  | 0, i => i
  | fuel + 1, i => if isMarked marks i then unmarkedFrom marks fuel (i + 1) else i

def unmarkedBefore (marks : Array Bool) : Nat → Nat → Nat
  | 0, i => i
  | fuel + 1, i => if 0 < i ∧ isMarked marks (i - 1) then unmarkedBefore marks fuel (i - 1) else i

def otherBack (other : Array Bool) (j : Nat) : Nat :=
  let j := j - 1
  if isMarked other j then unmarkedBefore other (other.size + 1) j - 1 else j

def moveBack (cs : Array Nat) (other : Array Bool) : Nat → Stretch → Stretch
  | 0, t => t
  | fuel + 1, t =>
    if 0 < t.start ∧ cs[t.start - 1]? = cs[t.stop - 1]? then
      let marks := (t.marks.setIfInBounds (t.start - 1) true).setIfInBounds (t.stop - 1) false
      moveBack cs other fuel
        ⟨marks, unmarkedBefore marks (marks.size + 1) (t.start - 1), t.stop - 1, otherBack other t.other⟩
    else t

/-- Moves a stretch on as long as what stands behind it equals its first member. `matching` is its last
end at which the other side is marked too. -/
def moveOn (cs : Array Nat) (other : Array Bool) : Nat → Stretch → Nat → Stretch × Nat
  | 0, t, matching => (t, matching)
  | fuel + 1, t, matching =>
    if t.stop < cs.size ∧ cs[t.start]? = cs[t.stop]? then
      let marks := (t.marks.setIfInBounds t.start false).setIfInBounds t.stop true
      let stop := unmarkedFrom marks (marks.size + 1) (t.stop + 1)
      let next := t.other + 1
      let j := unmarkedFrom other (other.size + 1) next
      moveOn cs other fuel ⟨marks, t.start + 1, stop, j⟩ (if j = next then matching else stop)
    else (t, matching)

def settle (cs : Array Nat) (other : Array Bool) : Nat → Stretch → Stretch × Nat
  | 0, t => (t, cs.size)
  | fuel + 1, t =>
    let length := t.stop - t.start
    let t := moveBack cs other (cs.size + 1) t
    let matching := if 0 < t.other ∧ isMarked other (t.other - 1) then t.stop else cs.size
    let (t, matching) := moveOn cs other (cs.size + 1) t matching
    if t.stop - t.start = length then (t, matching) else settle cs other fuel t

def align (other : Array Bool) (matching : Nat) : Nat → Stretch → Stretch
  | 0, t => t
  | fuel + 1, t =>
    if matching < t.stop then
      align other matching fuel
        ⟨(t.marks.setIfInBounds (t.start - 1) true).setIfInBounds (t.stop - 1) false, t.start - 1, t.stop - 1,
          otherBack other t.other⟩
    else t

def nextStretch (marks other : Array Bool) : Nat → Nat → Nat → Nat × Nat
  | 0, i, j => (i, j)
  | fuel + 1, i, j =>
    if i < marks.size ∧ !isMarked marks i then
      nextStretch marks other fuel (i + 1) (unmarkedFrom other (other.size + 1) j + 1)
    else (i, j)

def shift (cs : Array Nat) (other : Array Bool) : Nat → Nat → Nat → Array Bool → Array Bool
  | 0, _, _, marks => marks
  | fuel + 1, i, j, marks =>
    let (start, j) := nextStretch marks other (marks.size + 1) i j
    if start < marks.size then
      let stop := unmarkedFrom marks (marks.size + 1) (start + 1)
      let j := unmarkedFrom other (other.size + 1) j
      let (t, matching) := settle cs other (cs.size + 1) ⟨marks, start, stop, j⟩
      let t := align other matching (cs.size + 1) t
      shift cs other fuel t.stop t.other t.marks
    else marks

def between : Marks :=
  let m := marksOf s
  let old := shift s.old m.new (s.old.size + 1) 0 0 m.old
  ⟨old, shift s.new old (s.new.size + 1) 0 0 m.new⟩

/-! Changes. -/

/-- A place where something is left out on the old side or put in on the new side. -/
structure Change where
  oldStart : Nat
  oldCount : Nat
  newStart : Nat
  newCount : Nat

def changesFrom (m : Marks) : Nat → Nat → Nat → List Change
  | 0, _, _ => []
  | fuel + 1, i, j =>
    if m.old.size ≤ i ∧ m.new.size ≤ j then []
    else
      let i' := unmarkedFrom m.old (m.old.size + 1) i
      let j' := unmarkedFrom m.new (m.new.size + 1) j
      if i' = i ∧ j' = j then changesFrom m fuel (i + 1) (j + 1)
      else ⟨i, i' - i, j, j' - j⟩ :: changesFrom m fuel i' j'

def changes : List Change := changesFrom (between s) (s.old.size + s.new.size + 1) 0 0

end Runbook.Program.Difference
