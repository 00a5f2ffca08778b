import Mathlib.Order.Bounds.Basic
import Runbook.Proofs.Display

/-!
# The running row

On a terminal the display is driven by calls in any order, with rows resolved in between. The running row is
always below the root, and when a step ends the first pending row from it on takes its place.
-/

open List

namespace Runbook

/-- A call that drives the display. -/
inductive DisplayCall where
  | start
  | stepStarted (index : Nat)
  | stepFinished (index : Nat)
  | tick (secs : Nat)
  | childOutput (chunk : Bytes) (secs : Nat)
  | diagnostic (line : Text) (secs : Nat)
deriving DecidableEq, Repr

/-- A step starts at a row below the root. -/
def DisplayCall.Within (count : Nat) : DisplayCall → Prop
  | stepStarted index => 1 ≤ index ∧ index < count
  | start | stepFinished _ | tick _ | childOutput .. | diagnostic .. => True

namespace RunTree

variable {t : RunTree} {first : Nat}

theorem le_of_pending {i : Nat} (hi : first ≤ i) (h : t.Pending i) : t.frontier first ≤ i := by
  apply Nat.le_of_not_lt
  intro hlt
  exact h.not_resolved (resolved_of_lt_frontier hi hlt h.lt)

/-- The frontier is the least pending row, if there is one. -/
theorem frontier_eq_some_iff (t : RunTree) (first j : Nat) :
    (if t.frontier first < t.rows.length then some (t.frontier first) else none) = some j ↔
      IsLeast {i | first ≤ i ∧ t.Pending i} j := by
  constructor
  · intro h
    split at h
    · rename_i hlt
      cases h
      refine ⟨⟨Nat.le_add_right .., pending_frontier hlt⟩, ?_⟩
      intro i hi
      exact le_of_pending hi.1 hi.2
    · cases h
  · intro h
    obtain ⟨hj, hp⟩ := h.1
    have hle : t.frontier first ≤ j := le_of_pending hj hp
    have hlt : t.frontier first < t.rows.length := Nat.lt_of_le_of_lt hle hp.lt
    have hge : j ≤ t.frontier first := h.2 ⟨Nat.le_add_right .., pending_frontier hlt⟩
    rw [if_pos hlt, Nat.le_antisymm hle hge]

end RunTree

namespace Progress

def call (p : Progress) (t : RunTree) : DisplayCall → Progress × Written
  | .start => p.start t
  | .stepStarted index => p.stepStarted t index
  | .stepFinished index => p.stepFinished t index
  | .tick secs => p.tick t secs
  | .childOutput chunk secs => p.childOutput t chunk secs
  | .diagnostic line secs => p.diagnostic t line secs

/-- The display behind calls in order, each made with the tree as it stands then. -/
def calls (p : Progress) (calls : List (RunTree × DisplayCall)) : Progress :=
  calls.foldl (fun p c => (p.call c.1 c.2).1) p

/-- A resolved row as it is shown on a terminal, without what clears and ends its line. -/
def completedLine (p : Progress) (r : Row) (s : RowState) : Text :=
  r.margin ++ Row.middleBranch ++ p.label r ++ " " ++ p.styled dim ("(" ++ Text.ofNat (s.secs.getD 0) ++ "s)")

/-- What leaving a row standing writes: the line is cleared and the row written as completed, and the next row
is drawn as running if there is one. -/
def commitText (p : Progress) (t : RunTree) (i : Nat) : Text :=
  (t.rows[i]?).elim [] (fun entry => clearLine ++ p.completedLine entry.1 entry.2 ++ ['\n']) ++
    (t.rows[i + 1]?).elim [] fun entry => p.runningLine entry.1 0

theorem committedLine_eq (p : Progress) (r : Row) (s : RowState) :
    p.committedLine r s = clearLine ++ p.completedLine r s ++ ['\n'] := by
  simp [committedLine, completedLine]

theorem strokes_eq (p : Progress) (t : RunTree) (first next : Nat) :
    (commitStrokes first next t.rows.length).flatMap (p.strokeText t) =
      (List.range' first (next - first)).flatMap (p.commitText t) := by
  rw [commitStrokes, flatMap_assoc]
  apply flatMap_congr
  intro i _
  by_cases hi : i + 1 < t.rows.length <;> simp [hi, strokeText, commitText, committedLine_eq]

/-- A display on a terminal whose running row, if there is one, is below the root. -/
structure Within (count : Nat) (p : Progress) : Prop where
  interactive : p.interactive = true
  active : ∀ a, p.active = some a → 1 ≤ a ∧ a < count

section

variable {p : Progress} {t : RunTree} {rows : List Row}

theorem call_stepFinished {a : Nat} (h : Within t.rows.length p) (ha : p.active = some a) (index : Nat) :
    (∀ j, (p.call t (.stepFinished index)).1.active = some j ↔ IsLeast {i | a ≤ i ∧ t.Pending i} j) ∧
    (p.call t (.stepFinished index)).2 = .toOut ((List.range' a
      ((p.call t (.stepFinished index)).1.active.getD t.rows.length - a)).flatMap (p.commitText t)) := by
  have hlt : a < t.rows.length := (h.active a ha).2
  have hcall : p.call t (.stepFinished index) = _ := stepFinished_eq h.interactive ha hlt index
  rw [hcall]
  refine ⟨t.frontier_eq_some_iff a, ?_⟩
  rw [strokes_eq]
  by_cases hnext : t.frontier a < t.rows.length
  · simp [hnext]
  · have hend : t.frontier a = t.rows.length :=
      Nat.le_antisymm (RunTree.frontier_le (Nat.le_of_lt hlt)) (Nat.le_of_not_lt hnext)
    simp [hend]

theorem Within.call (h : Within t.rows.length p) {c : DisplayCall} (hc : c.Within t.rows.length) :
    Within t.rows.length (p.call t c).1 := by
  cases c with
  | start =>
    simp only [Progress.call, Progress.start]
    split
    · rename_i hlt
      refine ⟨h.interactive, ?_⟩
      intro a ha
      cases ha
      exact ⟨Nat.le_refl 1, hlt.2⟩
    · exact h
  | stepStarted index =>
    simp only [Progress.call, stepStarted_eq h.interactive]
    refine ⟨h.interactive, ?_⟩
    intro a ha
    cases ha
    exact hc
  | stepFinished index =>
    cases ha : p.active with
    | none => simpa [Progress.call, Progress.stepFinished, h.interactive, ha] using h
    | some first =>
      obtain ⟨hpos, hlt⟩ := h.active first ha
      constructor
      · simp only [Progress.call, stepFinished_eq h.interactive ha hlt]
        exact h.interactive
      · intro a hnext
        obtain ⟨⟨hle, hp⟩, -⟩ := ((call_stepFinished h ha index).1 a).mp hnext
        exact ⟨Nat.le_trans hpos hle, hp.lt⟩
  | tick secs => exact h
  | childOutput chunk secs => exact h
  | diagnostic line secs => exact h

theorem Within.calls (h : Within rows.length p) {calls : List (RunTree × DisplayCall)}
    (hcalls : ∀ c ∈ calls, c.1.rows.map Prod.fst = rows ∧ c.2.Within rows.length) :
    Within rows.length (p.calls calls) := by
  induction calls generalizing p with
  | nil => exact h
  | cons c rest ih =>
    obtain ⟨htree, hc⟩ := hcalls c (by simp)
    have hlen : rows.length = c.1.rows.length := by rw [← htree, length_map]
    rw [hlen] at h hc
    have hnext := h.call hc
    rw [← hlen] at hnext
    exact ih hnext fun d hd => hcalls d (by simp [hd])

end

/-- The running row is none or a row below the root, whatever calls drive the display. A step that ends
makes the least pending row from the running one on the running row and leaves the rows before it standing.
-/
theorem active_of_calls (color : Bool) {rows : List Row} {calls : List (RunTree × DisplayCall)}
    (h : ∀ c ∈ calls, c.1.rows.map Prod.fst = rows ∧ c.2.Within rows.length) :
    let p : Progress := ⟨true, color, none⟩
    (∀ count a, (p.calls (calls.take count)).active = some a → 1 ≤ a ∧ a < rows.length) ∧
    ∀ before t index after a, calls = before ++ (t, .stepFinished index) :: after →
      (p.calls before).active = some a →
      let done := (p.calls before).call t (.stepFinished index)
      (∀ j, done.1.active = some j ↔ IsLeast {i | a ≤ i ∧ t.Pending i} j) ∧
      done.2 = .toOut ((List.range' a (done.1.active.getD rows.length - a)).flatMap
        ((p.calls before).commitText t)) := by
  intro p
  have hp : Within rows.length p := ⟨rfl, by simp [p]⟩
  constructor
  · intro count a ha
    exact (hp.calls fun c hc => h c (mem_of_mem_take hc)).active a ha
  · intro before t index after a heq ha done
    have hbefore : Within rows.length (p.calls before) :=
      hp.calls fun c hc => h c (heq ▸ mem_append_left _ hc)
    have hmem : (t, .stepFinished index) ∈ calls := heq ▸ mem_append_right _ mem_cons_self
    have hlen : rows.length = t.rows.length := by rw [← (h _ hmem).1, length_map]
    rw [hlen] at hbefore ⊢
    exact call_stepFinished hbefore ha index

/-- Two rules, the first of which has ended when the second one is still to come. -/
theorem active_of_calls_first :
    let rows (s : RowState) : RunTree := ⟨[(Row.root, ⟨.done, none⟩), (⟨.rule, "a", [], some true⟩, s),
      (⟨.rule, "b", [], some false⟩, ⟨.pending, none⟩)]⟩
    let p : Progress := ⟨true, false, some 1⟩
    let ended := p.call (rows ⟨.done, some 4⟩) (.stepFinished 1)
    (∀ j, ended.1.active = some j ↔ IsLeast {i | 1 ≤ i ∧ (rows ⟨.done, some 4⟩).Pending i} j) ∧
    ended.1.active = some 2 ∧
    ended.2 = .toOut "\r\x1b[2K├── rule a (4s)\n\r\x1b[2K└── rule b (running 0s)" := by
  intro rows p ended
  have hcalls : ∀ c ∈ [(rows ⟨.pending, none⟩, DisplayCall.start), (rows ⟨.done, some 4⟩, .stepFinished 1)],
      c.1.rows.map Prod.fst = (rows ⟨.pending, none⟩).rows.map Prod.fst ∧
        c.2.Within ((rows ⟨.pending, none⟩).rows.map Prod.fst).length := by
    simp [rows, DisplayCall.Within]
  obtain ⟨-, h⟩ := active_of_calls false hcalls
  obtain ⟨hleast, htext⟩ := h [(rows ⟨.pending, none⟩, .start)] (rows ⟨.done, some 4⟩) 1 [] 1 rfl rfl
  exact ⟨hleast, rfl, htext.trans (by decide)⟩

end Progress

end Runbook
