import Runbook.Proofs.Outline

/-!
# The drawing of a run tree

A row is drawn when its own children are not known yet, with glyphs that say which levels go on below it. The
rows that follow bear them out: a level goes on exactly if the next row that is not deeper stands at that level.
-/

open List

namespace Runbook
open Row

namespace Row

variable {a b : List Row} {r : Row} {e : Nat}

/-- How many pieces of four characters the margin has. -/
def depth (r : Row) : Nat := r.margin.length / 4

def segment (r : Row) (e : Nat) : Text := (r.margin.drop (4 * e)).take 4

/-- Of the rows, the first one that is not deeper than the level stands at it. -/
def goesOn (rest : List Row) (e : Nat) : Bool := (rest.find? fun s => s.depth ≤ e).any fun s => s.depth = e

/-- The row is drawn as the rows that follow it ask. -/
structure Drawn (r : Row) (rest : List Row) : Prop where
  whole : r.margin.length = 4 * r.depth
  branch : r.branchText = some (if goesOn rest r.depth then middleBranch else lastBranch)
  margin : ∀ e < r.depth, r.segment e = indentText (goesOn rest e)
  next : ∀ s ∈ rest.head?, s.depth ≤ r.depth + 1

/-- Every row is drawn right, with the other rows and the tail behind it. -/
def DrawnAll : List Row → List Row → Prop
  | [], _ => True
  | r :: rows, tail => r.Drawn (rows ++ tail) ∧ DrawnAll rows tail

theorem DrawnAll.append {tail : List Row} (ha : DrawnAll a (b ++ tail)) (hb : DrawnAll b tail) :
    DrawnAll (a ++ b) tail := by
  induction a with
  | nil => exact hb
  | cons r a ih =>
    have hrow : r.Drawn (a ++ b ++ tail) := by
      rw [List.append_assoc]
      exact ha.1
    exact ⟨hrow, ih ha.2⟩

theorem DrawnAll.split {tail : List Row} (h : DrawnAll (a ++ r :: b) tail) : r.Drawn (b ++ tail) := by
  induction a with
  | nil => exact h.1
  | cons x a ih => exact ih h.2

/-! ## Margins -/

theorem length_indentText (b : Bool) : (indentText b).length = 4 := by
  cases b <;> rfl

theorem length_margin (r : Row) : r.margin.length = 4 * r.indent.length := by
  unfold margin
  induction r.indent with
  | nil => rfl
  | cons b indent ih =>
    rw [flatMap_cons, length_append, ih, length_indentText, length_cons]
    omega

theorem depth_eq (r : Row) : r.depth = r.indent.length := by
  rw [depth, length_margin]
  omega

theorem take_drop_margin (indent : List Bool) (e : Nat) :
    ((indent.flatMap indentText).drop (4 * e)).take 4 = (indent[e]?).elim [] indentText := by
  induction indent generalizing e with
  | nil => simp
  | cons b indent ih =>
    rw [flatMap_cons]
    cases e with
    | zero =>
      rw [Nat.mul_zero, drop_zero, take_left' (length_indentText b)]
      rfl
    | succ e =>
      have hdrop : 4 * (e + 1) = (indentText b).length + 4 * e := by
        rw [length_indentText]
        omega
      rw [hdrop, drop_length_add_append, ih, getElem?_cons_succ]

theorem segment_eq {b : Bool} (h : r.indent[e]? = some b) : r.segment e = indentText b := by
  rw [segment, margin, take_drop_margin, h]
  rfl

@[simp]
theorem depth_row (c : Child) (indent : List Bool) (b : Bool) : (c.row indent b).depth = indent.length :=
  depth_eq _

theorem level_of_lt {n : Nat} (h : n < r.level) : r.level = r.depth + 1 := by
  rw [depth_eq]
  unfold level at h ⊢
  split at h
  · exact absurd h (Nat.not_lt_zero n)
  · simp_all

/-! ## Levels that go on -/

theorem goesOn_of_deeper (h : ∀ s ∈ a, e < s.depth) : goesOn (a ++ b) e = goesOn b e := by
  have hnone : a.find? (fun s => s.depth ≤ e) = none := by
    refine find?_eq_none.mpr fun s hs => ?_
    simpa using h s hs
  rw [goesOn, find?_append, hnone, Option.none_or, goesOn]

theorem goesOn_cons {rest : List Row} (h : r.depth ≤ e) : goesOn (r :: rest) e = decide (r.depth = e) := by
  simp [goesOn, h]

theorem goesOn_of_head {rest : List Row} (h : ∀ s ∈ rest.head?, s.depth < e) : goesOn rest e = false := by
  cases rest with
  | nil => rfl
  | cons s rest =>
    have hlt := h s rfl
    rw [goesOn_cons (Nat.le_of_lt hlt), decide_eq_false (Nat.ne_of_lt hlt)]

end Row

namespace Module

section

variable {m : Module} {indent : List Bool} {visited visited' : List Text} {children : List Child}
  {rows tail : List Row}

theorem Expands.depths (h : m.Expands indent visited children rows visited') :
    (∀ r ∈ rows, indent.length ≤ r.depth) ∧ (∀ r ∈ rows.head?, r.depth = indent.length) := by
  obtain ⟨hdeep, hhead, -⟩ := h.levels
  constructor
  · intro r hr
    have hlt := hdeep r hr
    rw [level_of_lt hlt] at hlt
    exact Nat.le_of_lt_succ hlt
  · intro r hr
    have hlt := hdeep r (mem_of_mem_head? hr)
    have heq := hhead r hr
    rw [level_of_lt hlt] at heq
    exact Nat.succ.inj heq

/-- What may follow the rows below an indent: nothing at that level or below it, and the levels above go on
as the indent says. -/
structure Closes (indent : List Bool) (tail : List Row) : Prop where
  head : ∀ s ∈ tail.head?, s.depth < indent.length
  above : ∀ e b, indent[e]? = some b → goesOn tail e = b

theorem Closes.goesOn (h : Closes indent tail) : goesOn tail indent.length = false := goesOn_of_head h.head

theorem Expands.goesOn (h : m.Expands indent visited children rows visited') (htail : Closes indent tail) :
    goesOn (rows ++ tail) indent.length = !children.isEmpty := by
  cases h with
  | nil => exact htail.goesOn
  | leaf => simp [goesOn_cons]
  | nest => simp [goesOn_cons]

theorem Expands.goesOn_above (h : m.Expands indent visited children rows visited') (htail : Closes indent tail)
    {e : Nat} {b : Bool} (he : indent[e]? = some b) : Row.goesOn (rows ++ tail) e = b := by
  obtain ⟨hlt, -⟩ := List.getElem?_eq_some_iff.mp he
  rw [goesOn_of_deeper fun s hs => Nat.lt_of_lt_of_le hlt (h.depths.1 s hs)]
  exact htail.above e b he

theorem Expands.head_append (h : m.Expands indent visited children rows visited') (htail : Closes indent tail) :
    ∀ s ∈ (rows ++ tail).head?, s.depth ≤ indent.length := by
  intro s hs
  cases rows with
  | nil => exact Nat.le_of_lt (htail.head s hs)
  | cons r rows => exact Nat.le_of_eq (h.depths.2 s hs)

theorem Expands.closes (h : m.Expands indent visited children rows visited') (htail : Closes indent tail) :
    Closes (indent ++ [!children.isEmpty]) (rows ++ tail) where
  head s hs := by
    rw [length_append, length_singleton]
    exact Nat.lt_succ_of_le (h.head_append htail s hs)
  above e b he := by
    rcases Nat.lt_trichotomy e indent.length with hlt | rfl | hgt
    · rw [getElem?_append_left hlt] at he
      exact h.goesOn_above htail he
    · rw [getElem?_concat_length] at he
      cases he
      exact h.goesOn htail
    · have hnone : (indent ++ [!children.isEmpty])[e]? = none := by
        refine getElem?_eq_none ?_
        rw [length_append, length_singleton]
        exact hgt
      rw [hnone] at he
      cases he

/-- A child's row is drawn right if what stands below it is deeper and the rows of the other children follow. -/
theorem Expands.drawn_row (below : List Row) {after : List Row} {child : Child}
    (h : m.Expands indent visited children after visited') (htail : Closes indent tail)
    (hbelow : ∀ s ∈ below, indent.length < s.depth) (hhead : ∀ s ∈ below.head?, s.depth ≤ indent.length + 1) :
    (child.row indent (!children.isEmpty)).Drawn (below ++ (after ++ tail)) where
  whole := by rw [length_margin, depth_eq]
  branch := by
    rw [depth_row, goesOn_of_deeper hbelow, h.goesOn htail]
    rfl
  margin e he := by
    rw [depth_row] at he
    have hsome : indent[e]? = some indent[e] := getElem?_eq_getElem he
    rw [goesOn_of_deeper fun s hs => Nat.lt_trans he (hbelow s hs), h.goesOn_above htail hsome]
    exact segment_eq hsome
  next s hs := by
    rw [depth_row]
    cases below with
    | nil => exact Nat.le_succ_of_le (h.head_append htail s hs)
    | cons r below => exact hhead s hs

theorem Expands.drawnAll (h : m.Expands indent visited children rows visited') (htail : Closes indent tail) :
    DrawnAll rows tail := by
  -- below a child the other children come before the tail, so the tail is not fixed in the induction
  induction h generalizing tail with
  | nil => trivial
  | leaf _ hrest ih =>
    refine ⟨?_, ih htail⟩
    exact hrest.drawn_row [] htail (by simp) (by simp)
  | nest _ _ hbelow hrest ihbelow ihrest =>
    obtain ⟨hdeep, hhead⟩ := hbelow.depths
    rw [length_append, length_singleton] at hdeep hhead
    refine ⟨?_, (ihbelow (hrest.closes htail)).append (ihrest htail)⟩
    rw [List.append_assoc]
    exact hrest.drawn_row _ htail hdeep fun s hs => Nat.le_of_eq (hhead s hs)

end

end Module

namespace RunTree

/-- The root comes first, without a branch and with its own steps at depth zero behind it, and every other row
is drawn as the rows behind it ask. -/
theorem outline_drawn (m : Module) :
    (ofModule m).outline.head? = some root ∧ root.branchText = none ∧
    (∀ r ∈ (ofModule m).outline.tail.head?, r.depth = 0) ∧
    (∀ before r rest, (ofModule m).outline = root :: before ++ r :: rest → r.Drawn rest) := by
  obtain ⟨rows, names, houtline, h⟩ := expands_outline m
  have htail : Module.Closes [] [] := ⟨by simp, by simp⟩
  rw [houtline]
  refine ⟨rfl, rfl, h.depths.2, ?_⟩
  intro before r rest heq
  have hall : DrawnAll rows [] := h.drawnAll htail
  rw [(List.cons.inj heq).2] at hall
  have hdrawn := hall.split
  rwa [append_nil] at hdrawn

/-- The second row is drawn in the middle before the rows below it are known. -/
example :
    let steps (names : List Text) : List Step := names.map fun name => .run ⟨name, ⟨1, 1⟩⟩
    let flow (name : Text) (names : List Text) : Workflow := ⟨name, [], steps names, ⟨1, 1⟩⟩
    let m : Module := ⟨⟨"m.jph"⟩, [], [], [], [], [flow rootWorkflow ["a", "b"], flow "a" ["c"], flow "c" ["b"]]⟩
    (ofModule m).outline.map (fun r => r.margin ++ r.branchText.getD [] ++ r.name) =
      ["default", "├── a", "│   └── c", "│       └── b", "└── b"] := by decide

end RunTree

end Runbook
