import Mathlib.Data.List.Range
import Runbook.Proofs.Session

/-!
# Rows on a terminal

On a terminal one row is drawn as running, and rows are left standing once they are resolved. A step that
starts moves the running row, and nothing moves it back, so rows may be left out, left standing twice or
stay pending. All rows stand once and in order exactly if each row that is left standing is the first one
that does not stand yet.
-/

open List

namespace Runbook
open RunTree

/-! ## Trees along a run -/

namespace RunTree

def Pending (t : RunTree) (i : Nat) : Prop :=
  ∃ row state, t.rows[i]? = some (row, state) ∧ state.status = .pending

/-- The row that the event tells to have started: the first pending one that it may be about, if it starts
a step other than the root. -/
def started (entry : Text) (t : RunTree) (e : Event) : Option Nat :=
  if e.phase = .start ∧ e.isRoot entry = false then t.findPending e.step.1 e.step.2 else none

/-- The first row from `first` on that is pending, or the number of rows. -/
def frontier (t : RunTree) (first : Nat) : Nat :=
  first + (t.rows.drop first).findIdx fun entry => entry.2.status = .pending

/-- A later state of the same rows: what is resolved stays as it is. -/
structure Later (t u : RunTree) : Prop where
  length : u.rows.length = t.rows.length
  row : ∀ i : Nat, (u.rows[i]?).map Prod.fst = (t.rows[i]?).map Prod.fst
  resolved : ∀ i : Nat, t.Resolved i → u.rows[i]? = t.rows[i]?

section

variable {entry : Text} {t u v : RunTree} {i j : Nat} {e : Event}

theorem Pending.lt (h : t.Pending i) : i < t.rows.length := by
  obtain ⟨_, _, hi, _⟩ := h
  exact (List.getElem?_eq_some_iff.mp hi).1

theorem Resolved.lt (h : t.Resolved i) : i < t.rows.length := by
  obtain ⟨_, _, hi, _⟩ := h
  exact (List.getElem?_eq_some_iff.mp hi).1

theorem Pending.not_resolved (h : t.Pending i) : ¬ t.Resolved i := by
  obtain ⟨row, state, hi, hp⟩ := h
  rintro ⟨row', state', hi', hr⟩
  rw [hi] at hi'
  cases hi'
  exact hr hp

theorem resolved_of_not_pending (hi : i < t.rows.length) (h : ¬ t.Pending i) : t.Resolved i := by
  refine ⟨t.rows[i].1, t.rows[i].2, by simp [hi], fun hp => h ⟨t.rows[i].1, t.rows[i].2, by simp [hi], hp⟩⟩

theorem findPending_pos {kind : RowKind} {name : Text} (h : t.findPending kind name = some i) : 0 < i := by
  simp only [findPending, Option.map_eq_some_iff] at h
  obtain ⟨j, -, rfl⟩ := h
  exact Nat.succ_pos j

theorem pending_ofModule {m : Module} (hi : 0 < i) (h : i < (ofModule m).rows.length) :
    (ofModule m).Pending i := by
  obtain ⟨k, rfl⟩ := Nat.exists_eq_succ_of_ne_zero (Nat.ne_of_gt hi)
  refine ⟨_, _, getElem?_eq_getElem h, ?_⟩
  simp

theorem pending_of_started (h : t.started entry e = some i) : 0 < i ∧ t.Pending i := by
  simp only [started] at h
  split at h
  · exact ⟨findPending_pos h, pending_of_findPending h⟩
  · cases h

theorem ended_of_started (h : t.started entry e = some i) : t.ended entry e = none := by
  simp only [started] at h
  split at h
  · rename_i hs
    simp [ended, hs.1]
  · cases h

namespace Later

theorem refl (t : RunTree) : Later t t := ⟨rfl, fun _ => rfl, fun _ _ => rfl⟩

theorem congr (h : Later t u) (hi : t.Resolved i) : u.Resolved i :=
  (Resolved.congr (h.resolved i hi)).mpr hi

theorem trans (h : Later t u) (h' : Later u v) : Later t v where
  length := h'.length.trans h.length
  row i := (h'.row i).trans (h.row i)
  resolved i hi := (h'.resolved i (h.congr hi)).trans (h.resolved i hi)

end Later

theorem later_resolve (h : t.Pending i) (success : Bool) (secs : Nat) :
    Later t (t.resolve i success secs) where
  length := by simp [resolve]
  row j := by
    by_cases hj : i = j
    · subst hj
      obtain ⟨row, state, hrow, -⟩ := h
      simp [resolve, hrow]
    · rw [resolve_of_ne hj]
  resolved j hj := by
    have hne : i ≠ j := by
      rintro rfl
      exact h.not_resolved hj
    exact resolve_of_ne hne success secs

theorem getElem?_reconcile (t : RunTree) (first : Nat) (success : Bool) (i : Nat) :
    (t.reconcile first success).rows[i]? = (t.rows[i]?).map fun entry =>
      if max first 1 ≤ i ∧ entry.2.status = .pending then (entry.1, ⟨outcome success, some 0⟩)
      else entry := by
  simp [reconcile]

theorem later_reconcile (t : RunTree) (first : Nat) (success : Bool) :
    Later t (t.reconcile first success) where
  length := by simp [reconcile]
  row i := by
    rw [getElem?_reconcile, Option.map_map]
    congr 1
    funext entry
    simp only [Function.comp_apply]
    split <;> rfl
  resolved i hi := by
    obtain ⟨row, state, hrow, hr⟩ := hi
    simp [getElem?_reconcile, hrow, hr]

theorem pending_reconcile (hi : 0 < i) (first : Nat) (success : Bool) :
    (t.reconcile first success).Pending i ↔ t.Pending i ∧ i < first := by
  simp only [Pending, getElem?_reconcile, Option.map_eq_some_iff]
  constructor
  · rintro ⟨row, state, ⟨⟨row', state'⟩, hrow, he⟩, hp⟩
    split at he
    · cases he
      cases success <;> simp [outcome] at hp
    · rename_i hn
      cases he
      exact ⟨⟨row, state, hrow, hp⟩, by have := not_and.mp hn; grind⟩
  · rintro ⟨⟨row, state, hrow, hp⟩, hlt⟩
    have hn : ¬ max first 1 ≤ i := by omega
    exact ⟨row, state, ⟨(row, state), hrow, by simp [hn]⟩, hp⟩

theorem resolved_of_lt_frontier (hj : i ≤ j) (h : j < t.frontier i) (hlt : j < t.rows.length) :
    t.Resolved j := by
  have hidx : j - i < (t.rows.drop i).findIdx fun entry => entry.2.status = .pending := by
    rw [frontier] at h
    omega
  have hnot := not_of_lt_findIdx hidx
  refine ⟨t.rows[j].1, t.rows[j].2, by simp [hlt], ?_⟩
  simpa [getElem_drop, Nat.add_sub_cancel' hj] using hnot

theorem pending_frontier (h : t.frontier i < t.rows.length) : t.Pending (t.frontier i) := by
  have hidx : ((t.rows.drop i).findIdx fun entry => entry.2.status = .pending) < (t.rows.drop i).length := by
    rw [frontier] at h
    rw [length_drop]
    omega
  have hp := findIdx_getElem (w := hidx)
  exact ⟨_, _, getElem?_eq_getElem h, by simpa [getElem_drop, frontier] using hp⟩

theorem frontier_le (hi : i ≤ t.rows.length) : t.frontier i ≤ t.rows.length := by
  have hle : (t.rows.drop i).findIdx (fun entry => entry.2.status = .pending) ≤ (t.rows.drop i).length :=
    findIdx_le_length
  rw [length_drop] at hle
  rw [frontier]
  omega

theorem frontier_of_pending (h : t.Pending i) : t.frontier i = i := by
  obtain ⟨row, state, hi, hp⟩ := h
  obtain ⟨hlt, hi⟩ := List.getElem?_eq_some_iff.mp hi
  rw [frontier, drop_eq_getElem_cons hlt, findIdx_cons]
  simp [hi, hp]

theorem frontier_of_resolved (h : t.Resolved i) : t.frontier i = t.frontier (i + 1) := by
  obtain ⟨row, state, hi, hp⟩ := h
  obtain ⟨hlt, hi⟩ := List.getElem?_eq_some_iff.mp hi
  rw [frontier, drop_eq_getElem_cons hlt, findIdx_cons, frontier]
  simp [hi, hp]
  omega

end

end RunTree

/-! ## Lines on a terminal -/

/-- A line that is drawn: a row as running, or a row that is left standing. -/
inductive Stroke where
  | running (i : Nat)
  | standing (i : Nat)
deriving DecidableEq, Repr

def Stroke.standing? : Stroke → Option Nat
  | running _ => none
  | standing i => some i

/-- The lines that leave the rows from `first` up to `next` standing, of `count` rows. The row behind each
is drawn as running. -/
def commitStrokes (first next count : Nat) : List Stroke :=
  (List.range' first (next - first)).flatMap fun i =>
    .standing i :: if i + 1 < count then [.running (i + 1)] else []

theorem commitStrokes_self (first count : Nat) : commitStrokes first first count = [] := by
  simp [commitStrokes]

theorem commitStrokes_of_lt {first next : Nat} (h : first < next) (count : Nat) :
    commitStrokes first next count =
      (.standing first :: if first + 1 < count then [.running (first + 1)] else []) ++
        commitStrokes (first + 1) next count := by
  obtain ⟨k, hk⟩ : ∃ k, next - first = k + 1 := ⟨next - first - 1, by omega⟩
  have hk' : next - (first + 1) = k := by omega
  rw [commitStrokes, hk, range'_succ, flatMap_cons, commitStrokes, hk']

theorem standing_commitStrokes (first next count : Nat) :
    (commitStrokes first next count).filterMap Stroke.standing? = List.range' first (next - first) := by
  rw [commitStrokes, filterMap_flatMap]
  conv_rhs => rw [← flatMap_singleton' (List.range' first (next - first))]
  congr 1
  funext i
  by_cases hi : i + 1 < count
  · simp [hi, Stroke.standing?]
  · simp [hi, Stroke.standing?]

namespace Progress

variable {p : Progress} {t : RunTree} {first : Nat}

def strokeText (p : Progress) (t : RunTree) : Stroke → Text
  | .running i => (t.rows[i]?).elim [] fun entry => p.runningLine entry.1 0
  | .standing i => (t.rows[i]?).elim [] fun entry => p.committedLine entry.1 entry.2

theorem strokeText_color {q : Progress} (h : p.color = q.color) : p.strokeText = q.strokeText := by
  have hstyled : p.styled = q.styled := by
    funext style text
    simp [styled, h]
  funext t s
  cases s <;> simp only [strokeText, runningLine, committedLine, label, hstyled]

theorem strokeText_later {u : RunTree} (h : t.Later u) (p : Progress) {s : Stroke}
    (hs : ∀ i, s = .standing i → t.Resolved i) : p.strokeText u s = p.strokeText t s := by
  cases s with
  | running i =>
    have hrow := h.row i
    cases ht : t.rows[i]? <;> cases hu : u.rows[i]? <;> simp_all [strokeText]
  | standing i => simp only [strokeText, h.resolved i (hs i rfl)]

/-- Leaving rows standing from a row on goes up to the next pending row, which becomes the running one. -/
theorem commit_eq (p : Progress) (t : RunTree) (h : first < t.rows.length) :
    p.commit first (t.rows.drop first) =
      (if t.frontier first < t.rows.length then some (t.frontier first) else none,
        (commitStrokes first (t.frontier first) t.rows.length).flatMap (p.strokeText t)) := by
  induction hk : t.rows.length - first generalizing first with
  | zero => omega
  | succ k ih =>
    have hdrop := drop_eq_getElem_cons h
    rcases hrow : t.rows[first] with ⟨row, state⟩
    have hget : t.rows[first]? = some (row, state) := by rw [getElem?_eq_getElem h, hrow]
    rw [hdrop, hrow]
    by_cases hp : state.status = .pending
    · rw [frontier_of_pending ⟨row, state, hget, hp⟩, commitStrokes_self]
      simp [commit, hp, h]
    · have hres : t.Resolved first := ⟨row, state, hget, hp⟩
      have hle : first + 1 ≤ t.frontier (first + 1) := Nat.le_add_right ..
      rw [frontier_of_resolved hres, commitStrokes_of_lt (by omega)]
      by_cases hnext : first + 1 < t.rows.length
      · have hdrop' := drop_eq_getElem_cons hnext
        rcases hrow' : t.rows[first + 1] with ⟨next, s⟩
        have hrest := ih hnext (by omega)
        rw [hdrop', hrow'] at hrest ⊢
        simp only [commit, hp, ↓reduceIte, hrest]
        simp [strokeText, hget, hrow', hnext]
      · have hend : t.frontier (first + 1) = t.rows.length :=
          Nat.le_antisymm (frontier_le (by omega)) (by omega)
        have hlast : first + 1 = t.rows.length := by omega
        rw [hend, hlast, commitStrokes_self]
        simp [commit, hp, strokeText, hget]

theorem flatMap_drop {α : Type} (entries : List α) (f : α → Text) (first : Nat) :
    (entries.drop first).flatMap f =
      (List.range' first (entries.length - first)).flatMap fun i => (entries[i]?).elim [] f := by
  induction hk : entries.length - first generalizing first with
  | zero => simp [drop_eq_nil_of_le (Nat.sub_eq_zero_iff_le.mp hk)]
  | succ k ih =>
    have hlt : first < entries.length := by omega
    rw [drop_eq_getElem_cons hlt, range'_succ, flatMap_cons, flatMap_cons,
      ih (first + 1) (by omega), getElem?_eq_getElem hlt, Option.elim_some]

theorem stepStarted_eq (hp : p.interactive = true) (t : RunTree) (i : Nat) :
    p.stepStarted t i =
      ({ p with active := some i }, .toOut ([Stroke.running i].flatMap (p.strokeText t))) := by
  simp only [stepStarted, hp, ↓reduceIte, drawRunning, Option.bind_some, flatMap_singleton, strokeText]
  cases t.rows[i]? <;> rfl

theorem stepFinished_eq (hp : p.interactive = true) (ha : p.active = some first) (hf : first < t.rows.length)
    (i : Nat) :
    p.stepFinished t i =
      ({ p with active := if t.frontier first < t.rows.length then some (t.frontier first) else none },
        .toOut ((commitStrokes first (t.frontier first) t.rows.length).flatMap (p.strokeText t))) := by
  simp only [stepFinished, hp, ↓reduceIte, ha, commit_eq p t hf]

theorem finish_eq (hp : p.interactive = true) {u : RunTree} (ha : p.active = some first) {success : Bool}
    (hu : u = t.reconcile first success) :
    p.finish t success = ({ p with active := none }, u, .toOut
      (((List.range' first (t.rows.length - first)).map Stroke.standing).flatMap (p.strokeText u))) := by
  have hlen : t.rows.length = u.rows.length := by simp [hu, reconcile]
  have htext : (u.rows.drop first).flatMap (fun entry => p.committedLine entry.1 entry.2) =
      ((List.range' first (t.rows.length - first)).map Stroke.standing).flatMap (p.strokeText u) := by
    rw [flatMap_drop, ← hlen, flatMap_map]
    rfl
  simp only [finish, hp, ↓reduceIte, ha, ← hu, ← htext]

end Progress

/-! ## Displays -/

/-- A tree as it is shown on a terminal: the row that is drawn as running and the lines drawn so far. -/
structure Display where
  tree : RunTree
  active : Option Nat
  strokes : List Stroke

namespace Display

/-- The rows that are left standing, in the order of the lines. -/
def standing (d : Display) : List Nat := d.strokes.filterMap Stroke.standing?

/-- At the start the first row is the running one. -/
def opening (t : RunTree) : Display :=
  if 1 < t.rows.length then ⟨t, some 1, [.running 1]⟩ else ⟨t, none, []⟩

/-- A step that starts takes the running line to its row. A step that ends leaves its row standing if that
is the running one, with the resolved rows right behind it. -/
def after (entry : Text) (d : Display) (e : Event) : Display :=
  match d.tree.started entry e, d.tree.ended entry e with
  | some i, _ => ⟨d.tree, some i, d.strokes ++ [.running i]⟩
  | none, some i =>
    let tree := d.tree.resolve i (e.exitStatus = 0) e.elapsedSecs
    if d.active = some i then
      let next := tree.frontier i
      ⟨tree, if next < tree.rows.length then some next else none,
        d.strokes ++ commitStrokes i next tree.rows.length⟩
    else ⟨tree, d.active, d.strokes⟩
  | none, none => d

def run (entry : Text) (d : Display) (events : List Event) : Display := events.foldl (after entry) d

/-- At the end all rows from the running one on are settled and left standing. -/
def close (success : Bool) (d : Display) : Display :=
  match d.active with
  | some first => ⟨d.tree.reconcile first success, none,
      d.strokes ++ (List.range' first (d.tree.rows.length - first)).map .standing⟩
  | none => d

/-- The running row is pending, and the rows that stand are resolved. -/
structure Sound (d : Display) : Prop where
  active : ∀ i, d.active = some i → 0 < i ∧ d.tree.Pending i
  standing : ∀ i ∈ d.standing, d.tree.Resolved i

inductive Moves (entry : Text) (d : Display) (e : Event) : Display → Prop
  | quiet (hs : d.tree.started entry e = none) (he : d.tree.ended entry e = none) : Moves entry d e d
  | started {i : Nat} (hs : d.tree.started entry e = some i) :
      Moves entry d e ⟨d.tree, some i, d.strokes ++ [.running i]⟩
  | beside {i : Nat} {tree : RunTree} (hs : d.tree.started entry e = none)
      (he : d.tree.ended entry e = some i) (ha : d.active ≠ some i)
      (ht : tree = d.tree.resolve i (e.exitStatus = 0) e.elapsedSecs) :
      Moves entry d e ⟨tree, d.active, d.strokes⟩
  | committed {i next : Nat} {tree : RunTree} (hs : d.tree.started entry e = none)
      (he : d.tree.ended entry e = some i) (ha : d.active = some i)
      (ht : tree = d.tree.resolve i (e.exitStatus = 0) e.elapsedSecs) (hn : next = tree.frontier i) :
      Moves entry d e ⟨tree, if next < tree.rows.length then some next else none,
        d.strokes ++ commitStrokes i next tree.rows.length⟩

section

variable {entry : Text} {d d' : Display} {e : Event} {i : Nat}

theorem moves_after (entry : Text) (d : Display) (e : Event) : Moves entry d e (d.after entry e) := by
  simp only [after]
  split
  · rename_i hs
    exact .started hs
  · rename_i hs he
    split
    · rename_i ha
      exact .committed hs he ha rfl rfl
    · rename_i ha
      exact .beside hs he ha rfl
  · rename_i hs he
    exact .quiet hs he

theorem Moves.later (h : Moves entry d e d') : d.tree.Later d'.tree := by
  cases h with
  | quiet => exact .refl _
  | started => exact .refl _
  | beside _ he _ ht =>
    subst ht
    exact later_resolve (pending_of_ended he) _ _
  | committed _ he _ ht =>
    subst ht
    exact later_resolve (pending_of_ended he) _ _

theorem frontier_of_ended (he : d.tree.ended entry e = some i) {tree : RunTree}
    (ht : tree = d.tree.resolve i (e.exitStatus = 0) e.elapsedSecs) :
    i < tree.frontier i ∧ tree.frontier i ≤ tree.rows.length := by
  have hres : tree.Resolved i := ht ▸ resolved_resolve he _ _
  refine ⟨?_, frontier_le (Nat.le_of_lt hres.lt)⟩
  rw [frontier_of_resolved hres]
  exact Nat.lt_of_succ_le (Nat.le_add_right ..)

theorem Moves.standing (h : Moves entry d e d') :
    (d'.standing = d.standing ∧ ∀ i, d.tree.ended entry e = some i → d.active ≠ some i) ∨
    ∃ i next, d.tree.ended entry e = some i ∧ d.active = some i ∧
      i < next ∧ next ≤ d'.tree.rows.length ∧ (∀ j, i ≤ j → j < next → d'.tree.Resolved j) ∧
      d'.active = (if next < d'.tree.rows.length then some next else none) ∧
      d'.standing = d.standing ++ List.range' i (next - i) := by
  cases h with
  | quiet hs he => exact Or.inl ⟨rfl, by simp [he]⟩
  | started hs =>
    exact Or.inl ⟨by simp [Display.standing, Stroke.standing?], by simp [ended_of_started hs]⟩
  | beside hs he ha ht =>
    refine Or.inl ⟨rfl, fun j hj => ?_⟩
    rw [he] at hj
    cases hj
    exact ha
  | @committed i next tree hs he ha ht hn =>
    obtain ⟨hlt, hle⟩ := frontier_of_ended he ht
    subst hn
    refine Or.inr ⟨i, _, he, ha, hlt, hle, fun j hj hjn => ?_, rfl, ?_⟩
    · exact resolved_of_lt_frontier hj hjn (Nat.lt_of_lt_of_le hjn hle)
    · simp [Display.standing, standing_commitStrokes]

theorem Moves.sound (h : Moves entry d e d') (hd : d.Sound) : d'.Sound := by
  constructor
  case active =>
    intro j hj
    cases h with
    | quiet => exact hd.active j hj
    | started hs =>
      cases hj
      exact pending_of_started hs
    | @beside i tree hs he ha ht =>
      obtain ⟨hpos, row, state, hrow, hp⟩ := hd.active j hj
      have hne : i ≠ j := by
        rintro rfl
        exact ha hj
      refine ⟨hpos, row, state, ?_, hp⟩
      rw [ht, resolve_of_ne hne, hrow]
    | @committed i next tree hs he ha ht hn =>
      dsimp only at hj
      split at hj
      · rename_i hlt
        cases hj
        subst hn
        exact ⟨Nat.zero_lt_of_lt (frontier_of_ended he ht).1, pending_frontier hlt⟩
      · cases hj
  case standing =>
    intro j hj
    rcases h.standing with ⟨hs, -⟩ | ⟨i, next, -, -, -, -, hres, -, hs⟩
    · exact h.later.congr (hd.standing j (hs ▸ hj))
    · rw [hs, mem_append, mem_range'_1] at hj
      rcases hj with hj | hj
      · exact h.later.congr (hd.standing j hj)
      · exact hres j hj.1 (by omega)

theorem Sound.lines_later (hd : d.Sound) {u : RunTree} (h : d.tree.Later u) (p : Progress) :
    d.strokes.flatMap (p.strokeText u) = d.strokes.flatMap (p.strokeText d.tree) := by
  apply flatMap_congr
  intro s hs
  refine p.strokeText_later h fun i hi => hd.standing i ?_
  exact mem_filterMap.mpr ⟨s, hs, by rw [hi]; rfl⟩

theorem sound_opening {t : RunTree} (h : 1 < t.rows.length → t.Pending 1) : (opening t).Sound := by
  rw [opening]
  split
  · rename_i hlt
    exact ⟨by rintro i ⟨⟩; exact ⟨Nat.one_pos, h hlt⟩, by simp [standing, Stroke.standing?]⟩
  · exact ⟨by simp, by simp [standing]⟩

/-! ## Runs and their ends -/

theorem run_cons (entry : Text) (d : Display) (e : Event) (rest : List Event) :
    d.run entry (e :: rest) = (d.after entry e).run entry rest := rfl

theorem Sound.run (hd : d.Sound) (entry : Text) (events : List Event) : (d.run entry events).Sound := by
  induction events generalizing d with
  | nil => exact hd
  | cons e rest ih => exact ih ((moves_after entry d e).sound hd)

theorem tree_run (entry : Text) (d : Display) (events : List Event) :
    (d.run entry events).tree = (d.tree.replay entry events).1 := by
  induction events generalizing d with
  | nil => rfl
  | cons e rest ih =>
    rw [run_cons, ih]
    generalize hd' : d.after entry e = d'
    cases hd' ▸ moves_after entry d e with
    | quiet hs he => simp only [replay, he]
    | started hs => simp only [replay, ended_of_started hs]
    | beside hs he ha ht => simp only [replay, he, ht]
    | committed hs he ha ht hn => simp only [replay, he, ht]

theorem later_close (success : Bool) (d : Display) : d.tree.Later (d.close success).tree := by
  rw [close]
  split
  · exact later_reconcile ..
  · exact .refl _

theorem standing_close (success : Bool) (d : Display) :
    (d.close success).standing = d.standing ++
      d.active.elim [] fun first => List.range' first (d.tree.rows.length - first) := by
  rw [close]
  split
  · rename_i first ha
    have hmap (l : List Nat) : (l.map Stroke.standing).filterMap Stroke.standing? = l := by
      rw [filterMap_map]
      exact filterMap_some
    simp [standing, ha, hmap]
  · rename_i ha
    simp [ha]

/-- At the end exactly those rows are pending that are so before it and come before the running row. -/
theorem pending_close (success : Bool) (hi : 0 < i) :
    (d.close success).tree.Pending i ↔ d.tree.Pending i ∧ ∀ a, d.active = some a → i < a := by
  rw [close]
  split
  · rename_i first ha
    simp [pending_reconcile hi, ha]
  · rename_i ha
    simp [ha]

theorem Sound.close (hd : d.Sound) (success : Bool) : (d.close success).Sound where
  active j hj := by
    rw [Display.close] at hj
    split at hj
    · cases hj
    · rename_i ha
      rw [ha] at hj
      cases hj
  standing j hj := by
    rw [standing_close, mem_append] at hj
    rcases hj with hj | hj
    · exact (later_close success d).congr (hd.standing j hj)
    · cases ha : d.active with
      | none => simp [ha] at hj
      | some first =>
        obtain ⟨hpos, hp⟩ := hd.active first ha
        have hj : first ≤ j ∧ j < first + (d.tree.rows.length - first) := by
          simpa [ha, mem_range'_1] using hj
        refine resolved_of_not_pending ?_ fun hpend => ?_
        · rw [(later_close success d).length]
          have := hp.lt
          omega
        · have := ((pending_close success (by omega)).mp hpend).2 first ha
          omega

theorem standing_prefix (entry : Text) (success : Bool) (d : Display) (events : List Event) :
    d.standing <+: ((d.run entry events).close success).standing := by
  induction events generalizing d with
  | nil => exact standing_close success d ▸ prefix_append ..
  | cons e rest ih =>
    refine List.IsPrefix.trans ?_ (ih (d.after entry e))
    rcases (moves_after entry d e).standing with ⟨h, -⟩ | ⟨i, next, -, -, -, -, -, -, h⟩
    · exact h ▸ prefix_rfl
    · exact h ▸ prefix_append ..

/-! ## Order -/

/-- Whenever the running row is resolved, it is the first row that does not stand yet, and so it is at the
end. -/
def Orderly (entry : Text) : Display → List Event → Prop
  | d, [] => d.active.getD d.tree.rows.length = d.standing.length + 1
  | d, e :: rest =>
    (∀ i, d.tree.ended entry e = some i → d.active = some i → i = d.standing.length + 1) ∧
      Orderly entry (d.after entry e) rest

theorem range'_append_prefix {k i m n : Nat} (hm : 0 < m)
    (h : List.range' 1 k ++ List.range' i m <+: List.range' 1 n) : i = k + 1 := by
  obtain ⟨more, h⟩ := h
  have hlen := congrArg List.length h
  simp only [length_append, length_range'] at hlen
  have hat := congrArg (fun l : List Nat => l[k]?) h
  simp only [List.append_assoc] at hat
  rw [getElem?_append_right (by simp), getElem?_append_left (by simpa using hm),
    length_range', Nat.sub_self, getElem?_range' hm, getElem?_range' (by omega)] at hat
  simp only [Nat.mul_zero, Nat.add_zero, Nat.one_mul, Option.some.injEq] at hat
  omega

theorem range'_append_next (k m : Nat) :
    List.range' 1 k ++ List.range' (k + 1) m = List.range' 1 (k + m) := by
  rw [Nat.add_comm k 1]
  exact range'_append_1

theorem standing_iff_orderly_nil (hd : d.Sound) (success : Bool) (hlen : 0 < d.tree.rows.length) {k : Nat}
    (hs : d.standing = List.range' 1 k) :
    (d.close success).standing = List.range' 1 (d.tree.rows.length - 1) ↔ d.Orderly entry [] := by
  rw [standing_close, Orderly, hs, length_range']
  cases ha : d.active with
  | none =>
    simp only [Option.elim_none, append_nil, Option.getD_none]
    constructor
    · intro h
      have := congrArg List.length h
      simp only [length_range'] at this
      omega
    · intro h
      rw [h, Nat.add_sub_cancel]
  | some first =>
    obtain ⟨hpos, hp⟩ := hd.active first ha
    have hlt := hp.lt
    simp only [Option.elim_some, Option.getD_some]
    constructor
    · intro h
      exact range'_append_prefix (Nat.sub_pos_of_lt hlt) ⟨[], by rw [append_nil, h]⟩
    · intro h
      rw [h, range'_append_next]
      congr 1
      omega

theorem standing_iff_orderly (hd : d.Sound) (success : Bool) (events : List Event)
    (hlen : 0 < d.tree.rows.length) {k : Nat} (hs : d.standing = List.range' 1 k) :
    ((d.run entry events).close success).standing = List.range' 1 (d.tree.rows.length - 1) ↔
      d.Orderly entry events := by
  induction events generalizing d k with
  | nil => exact standing_iff_orderly_nil hd success hlen hs
  | cons e rest ih =>
    have hmove := moves_after entry d e
    have hnext {k : Nat} := ih (k := k) (hmove.sound hd) (hmove.later.length ▸ hlen)
    rw [hmove.later.length] at hnext
    rw [run_cons, Orderly]
    rcases hmove.standing with ⟨hsame, hnot⟩ | ⟨i, next, he, ha, hlt, -, -, -, hmore⟩
    · rw [hnext (hsame.trans hs)]
      exact ⟨fun h => ⟨fun i he ha => absurd ha (hnot i he), h⟩, fun h => h.2⟩
    · rw [hs] at hmore
      rw [hs, length_range']
      -- If the row is the next one, the rows stand in order up to the next pending row.
      have horder (hi : i = k + 1) :
          (d.after entry e).standing = List.range' 1 (k + (next - i)) := by
        rw [hmore, ← range'_append_next, ← hi]
      constructor
      · intro h
        have hi : i = k + 1 := by
          have hpre := standing_prefix entry success (d.after entry e) rest
          rw [h, hmore] at hpre
          exact range'_append_prefix (by omega) hpre
        refine ⟨fun j hj _ => ?_, (hnext (horder hi)).mp h⟩
        rw [he] at hj
        cases hj
        exact hi
      · intro h
        exact (hnext (horder (h.1 i he ha))).mpr h.2

/-- No step starts before all rows above its row are resolved. -/
def StartsInOrder (entry : Text) : RunTree → List Event → Prop
  | _, [] => True
  | t, e :: rest =>
    (∀ i, t.started entry e = some i → ∀ j, 0 < j → j < i → t.Resolved j) ∧
      StartsInOrder entry (t.replay entry [e]).1 rest

/-- The running row is the first row that does not stand yet, and the rows above it stand in order. -/
structure InFront (d : Display) (k : Nat) : Prop where
  lt : k < d.tree.rows.length
  standing : d.standing = List.range' 1 k
  active : d.active = if k + 1 < d.tree.rows.length then some (k + 1) else none

theorem InFront.after {k : Nat} (h : d.InFront k) (hd : d.Sound)
    (hstart : ∀ i, d.tree.started entry e = some i → ∀ j, 0 < j → j < i → d.tree.Resolved j) :
    ∃ k', (d.after entry e).InFront k' := by
  have hlen := (moves_after entry d e).later.length
  have hmove := moves_after entry d e
  generalize d.after entry e = d' at hlen hmove
  cases hmove with
  | quiet => exact ⟨k, h⟩
  | @started i hs =>
    -- The row that starts does not stand, and the running row, which is pending, is not above it.
    obtain ⟨hpos, hp⟩ := pending_of_started hs
    have hk : k < i := by
      by_contra hle
      refine hp.not_resolved (hd.standing i ?_)
      rw [h.standing, mem_range'_1]
      omega
    have hlt := hp.lt
    have ha : d.active = some (k + 1) := by rw [h.active, if_pos (by omega)]
    have hi : i = k + 1 := by
      by_contra hne
      exact (hd.active _ ha).2.not_resolved (hstart i hs (k + 1) (by omega) (by omega))
    refine ⟨k, h.lt, ?_, by rw [if_pos (by dsimp only; omega), hi]⟩
    rw [← h.standing]
    simp [Display.standing, Stroke.standing?]
  | beside => exact ⟨k, hlen ▸ h.lt, h.standing, by rw [hlen]; exact h.active⟩
  | @committed i next tree hs he ha ht hn =>
    obtain ⟨hlt, hle⟩ := frontier_of_ended he ht
    have hi : i = k + 1 := by
      rw [h.active] at ha
      split at ha
      · cases ha
        rfl
      · cases ha
    subst hn
    refine ⟨k + (tree.frontier i - i), by dsimp only; omega, ?_, ?_⟩
    · rw [← range'_append_next, ← h.standing, ← hi]
      simp [Display.standing, standing_commitStrokes]
    · have hnext : k + (tree.frontier i - i) + 1 = tree.frontier i := by omega
      simp only [hnext]

theorem orderly_of_startsInOrder {k : Nat} (h : d.InFront k) (hd : d.Sound) {events : List Event}
    (hstart : StartsInOrder entry d.tree events) : d.Orderly entry events := by
  induction events generalizing d k with
  | nil =>
    rw [Orderly, h.standing, h.active, length_range']
    have := h.lt
    split
    · rfl
    · rw [Option.getD_none]
      omega
  | cons e rest ih =>
    obtain ⟨k', h'⟩ := h.after hd hstart.1
    refine ⟨fun i _ ha => ?_, ih h' ((moves_after entry d e).sound hd) ?_⟩
    · rw [h.active] at ha
      split at ha
      · cases ha
        rw [h.standing, length_range']
      · cases ha
    · exact tree_run entry d [e] ▸ hstart.2

end

end Display

/-! ## Sessions on a terminal -/

namespace Session

def stepEvents : Session → List Event → Session × Written
  | s, [] => (s, {})
  | s, e :: rest =>
    let (s, w) := s.stepEvent e
    let (s, more) := s.stepEvents rest
    (s, w ++ more)

/-- What the session has written to the output, behind the root line, are the lines of the display. -/
structure Watched (p : Progress) (head : Text) (s : Session) (out : Bytes) (d : Display) : Prop where
  interactive : s.progress.interactive = true
  color : s.progress.color = p.color
  tree : s.tree = d.tree
  active : s.progress.active = d.active
  sound : d.Sound
  out : out = Utf8.encode (head ++ d.strokes.flatMap (p.strokeText d.tree))

section

variable {s : Session} {e : Event} {i : Nat}

theorem stepEvent_quiet (hs : s.tree.started s.entry e = none) (he : s.tree.ended s.entry e = none) :
    s.stepEvent e = ({ s with record := s.record.record e }, {}) := by
  simp only [stepEvent]
  split
  · rfl
  · rename_i hroot
    split
    · rfl
    · rename_i i hi hphase
      simp [started, hphase, hroot, hi] at hs
    · rename_i i hi hphase
      simp [ended, hphase, hroot, hi] at he

theorem stepEvent_started (hs : s.tree.started s.entry e = some i) :
    s.stepEvent e = ({ s with record := s.record.record e, progress := (s.progress.stepStarted s.tree i).1 },
      (s.progress.stepStarted s.tree i).2) := by
  simp only [started] at hs
  split at hs
  · rename_i h
    simp [stepEvent, h.1, h.2, hs]
  · cases hs

theorem stepEvent_ended (he : s.tree.ended s.entry e = some i) {tree : RunTree}
    (ht : tree = s.tree.resolve i (e.exitStatus = 0) e.elapsedSecs) :
    s.stepEvent e = ({ s with
      record := s.record.record e
      tree
      progress := (s.progress.stepFinished tree i).1 }, (s.progress.stepFinished tree i).2) := by
  simp only [ended] at he
  split at he
  · rename_i h
    simp [stepEvent, h.1, h.2, he, ht]
  · cases he

variable {p : Progress} {head : Text} {out : Bytes} {d : Display}

theorem Watched.out_append (h : Watched p head s out d) {u : RunTree} (hu : d.tree.Later u)
    (strokes : List Stroke) :
    out ++ Utf8.encode (strokes.flatMap (s.progress.strokeText u)) =
      Utf8.encode (head ++ (d.strokes ++ strokes).flatMap (p.strokeText u)) := by
  rw [h.out, Progress.strokeText_color h.color, ← Utf8.encode_append, List.append_assoc,
    ← h.sound.lines_later hu, ← flatMap_append]

theorem Watched.stepEvent (h : Watched p head s out d) (e : Event) :
    Watched p head (s.stepEvent e).1 (out ++ (s.stepEvent e).2.out) (d.after s.entry e) := by
  have hmove := Display.moves_after s.entry d e
  have hsound := hmove.sound h.sound
  have hlater := hmove.later
  generalize d.after s.entry e = d' at hmove hsound hlater
  have hout := h.out_append hlater
  cases hmove with
  | quiet hs he =>
    rw [stepEvent_quiet (h.tree ▸ hs) (h.tree ▸ he)]
    exact ⟨h.interactive, h.color, h.tree, h.active, hsound, by simpa using h.out⟩
  | @started i hs =>
    rw [stepEvent_started (h.tree ▸ hs), Progress.stepStarted_eq h.interactive, h.tree]
    exact ⟨h.interactive, h.color, rfl, rfl, hsound, hout _⟩
  | @beside i tree hs he ha ht =>
    rw [stepEvent_ended (h.tree ▸ he) (h.tree ▸ ht)]
    have hdrawn : out ++ [] = Utf8.encode (head ++ d.strokes.flatMap (p.strokeText tree)) := by
      simpa [Utf8.encode] using hout []
    cases hactive : d.active with
    | none =>
      have hnone : s.progress.active = none := h.active.trans hactive
      simp only [Progress.stepFinished, h.interactive, ↓reduceIte, hnone]
      exact ⟨h.interactive, h.color, rfl, hnone, hactive ▸ hsound, hdrawn⟩
    | some first =>
      -- The running row is still pending, so nothing is left standing.
      obtain ⟨-, hp⟩ := hsound.active first hactive
      rw [Progress.stepFinished_eq h.interactive (h.active.trans hactive) hp.lt,
        frontier_of_pending hp, commitStrokes_self, if_pos hp.lt]
      exact ⟨h.interactive, h.color, rfl, rfl, hactive ▸ hsound, hdrawn⟩
  | @committed i next tree hs he ha ht hn =>
    subst hn
    have hlt : i < tree.rows.length := by
      rw [hlater.length]
      exact (h.sound.active i ha).2.lt
    rw [stepEvent_ended (h.tree ▸ he) (h.tree ▸ ht),
      Progress.stepFinished_eq h.interactive (h.active.trans ha) hlt]
    exact ⟨h.interactive, h.color, rfl, rfl, hsound, hout _⟩

theorem stepEvent_entry (s : Session) (e : Event) : (s.stepEvent e).1.entry = s.entry := by
  simp only [Session.stepEvent]
  split
  · rfl
  · split <;> rfl

theorem Watched.stepEvents (h : Watched p head s out d) (events : List Event) :
    Watched p head (s.stepEvents events).1 (out ++ (s.stepEvents events).2.out)
      (d.run s.entry events) := by
  induction events generalizing s out d with
  | nil => exact (append_nil out).symm ▸ h
  | cons e rest ih =>
    have hrest := ih (h.stepEvent e)
    rw [stepEvent_entry, List.append_assoc] at hrest
    exact hrest

theorem Watched.finish (h : Watched p head s out d) (success : Bool) :
    (s.progress.finish s.tree success).2.1 = (d.close success).tree ∧
      out ++ (s.progress.finish s.tree success).2.2.out =
        Utf8.encode (head ++ (d.close success).strokes.flatMap (p.strokeText (d.close success).tree)) := by
  have hlater := Display.later_close success d
  rw [Display.close] at hlater ⊢
  split at hlater
  · rename_i first ha
    rw [Progress.finish_eq h.interactive (h.active.trans ha) rfl, h.tree]
    exact ⟨rfl, h.out_append hlater _⟩
  · rename_i ha
    simp only [Progress.finish, h.interactive, ↓reduceIte, h.active.trans ha]
    exact ⟨h.tree, by simpa using h.out⟩

end

theorem watched_start (m : Module) (entry : Text) (color : Bool) (record : RunRecord) :
    let p : Progress := ⟨true, color, none⟩
    let opening := Session.start { entry, tree := .ofModule m, progress := p, record }
    Watched p (p.label Row.root ++ ['\n']) opening.1 opening.2.out (.opening (.ofModule m)) := by
  intro p opening
  have hsound := Display.sound_opening (t := .ofModule m) fun h => pending_ofModule Nat.one_pos h
  have hhead : (ofModule m).rows.head? = some (Row.root, ⟨.done, none⟩) := rfl
  by_cases hlt : 1 < (ofModule m).rows.length
  · have hdisplay : Display.opening (.ofModule m) = ⟨.ofModule m, some 1, [.running 1]⟩ := if_pos hlt
    have hstart : opening = ({ entry, tree := .ofModule m, progress := ⟨true, color, some 1⟩, record },
        .toOut (p.label Row.root ++ ['\n'] ++ p.strokeText (.ofModule m) (.running 1))) := by
      simp only [opening, p, Session.start, Progress.start, hhead, hlt, and_self, ↓reduceIte, Progress.redraw,
        Progress.drawRunning, Option.bind_some, Progress.strokeText, getElem?_eq_getElem hlt]
      rfl
    rw [hstart]
    rw [hdisplay] at hsound ⊢
    exact ⟨rfl, rfl, rfl, rfl, hsound, by simp [Written.toOut]⟩
  · have hdisplay : Display.opening (.ofModule m) = ⟨.ofModule m, none, []⟩ := if_neg hlt
    have hstart : opening = ({ entry, tree := .ofModule m, progress := p, record },
        .toOut (p.label Row.root ++ ['\n'])) := by
      simp [opening, p, Session.start, Progress.start, hhead, hlt, Progress.redraw, Progress.drawRunning]
    rw [hstart]
    rw [hdisplay] at hsound ⊢
    exact ⟨rfl, rfl, rfl, rfl, hsound, by simp [Written.toOut]⟩

end Session

/-- What a run shows on a terminal: behind the root line, rows drawn as running and rows left standing with
their state at the end. Those rows stay pending that were pending before the end and come before the running
row. All rows are left standing once and in order exactly if the run is orderly, as it is if no step starts
before all rows above its row are resolved. -/
theorem terminal_of_events (m : Module) (entry : Text) (color : Bool) (record : RunRecord)
    (events : List Event) (success : Bool) :
    let p : Progress := ⟨true, color, none⟩
    let opening := Session.start { entry, tree := .ofModule m, progress := p, record }
    let run := opening.1.stepEvents events
    let closing := run.1.progress.finish run.1.tree success
    let first := Display.opening (.ofModule m)
    let last := first.run entry events
    let final := last.close success
    let rows := List.range' 1 ((ofModule m).rows.length - 1)
    closing.2.1 = final.tree ∧
    (opening.2 ++ run.2 ++ closing.2.2).out =
      Utf8.encode (p.label Row.root ++ ['\n'] ++ final.strokes.flatMap (p.strokeText final.tree)) ∧
    last.tree = ((ofModule m).replay entry events).1 ∧
    (∀ i ∈ rows, final.tree.Pending i ↔ last.tree.Pending i ∧ ∀ a, last.active = some a → i < a) ∧
    ((final.standing = rows ∧ ∀ i ∈ rows, ¬ final.tree.Pending i) ↔ first.Orderly entry events) ∧
    (Display.StartsInOrder entry (.ofModule m) events → first.Orderly entry events) := by
  intro p opening run closing first last final rows
  have hpos : 0 < (ofModule m).rows.length := Nat.succ_pos _
  have htree : first.tree = .ofModule m := by
    simp only [first, Display.opening]
    split <;> rfl
  have hwatched := (Session.watched_start m entry color record).stepEvents events
  obtain ⟨hend, hout⟩ := hwatched.finish success
  have hsound : first.Sound := (Session.watched_start m entry color record).sound
  have hfront : first.InFront 0 := by
    refine ⟨htree ▸ hpos, ?_, ?_⟩
    · simp only [first, Display.opening]
      split <;> rfl
    · rw [htree]
      simp only [first, Display.opening]
      split <;> rfl
  refine ⟨hend, ?_, ?_, fun i hi => ?_, ?_, ?_⟩
  · exact hout
  · rw [← htree]
    exact Display.tree_run entry first events
  · exact Display.pending_close success (Nat.zero_lt_of_lt (mem_range'_1.mp hi).1)
  · rw [← Display.standing_iff_orderly hsound success events (htree ▸ hpos) hfront.standing, htree]
    refine ⟨fun h => h.1, fun h => ⟨h, fun i hi hp => ?_⟩⟩
    exact hp.not_resolved (((hsound.run entry events).close success).standing i (h ▸ hi))
  · intro hstart
    exact Display.orderly_of_startsInOrder hfront hsound (htree ▸ hstart)

/-- A module that runs a workflow of its own with one step. -/
def nestedStep : Module :=
  { Module.empty "m.jph" with
    workflows := [⟨"default", [], [.run ⟨"sub", ⟨2, 3⟩⟩], ⟨1, 1⟩⟩,
      ⟨"sub", [], [.ensure ⟨"b", ⟨5, 3⟩⟩ none], ⟨4, 1⟩⟩] }

def stepStart (func kind name : Text) : Event := ⟨.start, func, kind, name, [], none, none, none, none⟩

def stepEnd (func kind name : Text) (ms : Int) : Event :=
  ⟨.finish, func, kind, name, [], some 0, some ms, none, none⟩

/-- The steps of the module in the order of its script. -/
def nestedEvents : List Event :=
  [stepStart "m__workflow_sub" "workflow" "sub", stepStart "m__rule_b" "rule" "b",
    stepEnd "m__rule_b" "rule" "b" 1000, stepEnd "m__workflow_sub" "workflow" "sub" 2000]

/-- The row of the outer workflow is never left standing. A single step, which starts in order, is. -/
theorem terminal_of_nested_step :
    (let opening := Session.start ⟨"m", .ofModule nestedStep, ⟨true, false, none⟩, ⟨"1", "/runs/1", []⟩, {}, []⟩
     let run := opening.1.stepEvents nestedEvents
     let closing := run.1.progress.finish run.1.tree true
     (opening.2 ++ run.2 ++ closing.2.2).out = Utf8.encode
        ("workflow default\n\r\x1b[2K└── workflow sub (running 0s)\r\x1b[2K└── workflow sub (running 0s)" ++
          "\r\x1b[2K    └── rule b (running 0s)\r\x1b[2K    ├── rule b (1s)\n")) ∧
    ¬ (Display.opening (.ofModule nestedStep)).Orderly "m" nestedEvents ∧
    Display.StartsInOrder "m" (.ofModule oneStep) [stepEnd "m__rule_ok" "rule" "ok" 0] ∧
    (((Display.opening (.ofModule oneStep)).run "m" [stepEnd "m__rule_ok" "rule" "ok" 0]).close
      false).standing = [1] := by
  obtain ⟨-, hout, -, -, hiff, -⟩ :=
    terminal_of_events nestedStep "m" false ⟨"1", "/runs/1", []⟩ nestedEvents true
  obtain ⟨-, -, -, -, hiff', hstarts⟩ :=
    terminal_of_events oneStep "m" false ⟨"1", "/runs/1", []⟩ [stepEnd "m__rule_ok" "rule" "ok" 0] false
  have hstart : Display.StartsInOrder "m" (.ofModule oneStep) [stepEnd "m__rule_ok" "rule" "ok" 0] := by
    refine ⟨fun i hi => ?_, trivial⟩
    have : started "m" (.ofModule oneStep) (stepEnd "m__rule_ok" "rule" "ok" 0) = none := by decide
    rw [this] at hi
    cases hi
  refine ⟨hout.trans (by decide +kernel), fun h => ?_, hstart, ?_⟩
  · have := (hiff.mpr h).1
    exact absurd this (by decide +kernel)
  · exact (hiff'.mpr (hstarts hstart)).1

end Runbook
