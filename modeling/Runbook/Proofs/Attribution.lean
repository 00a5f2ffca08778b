import Runbook.Proofs.Display

/-!
# Which event settles which row

Rows of one kind whose names end in the same part form a queue. An event settles the first pending row of
its queue, so the events of a queue settle its rows one after the other, whatever other events do in
between.
-/

open List

namespace Runbook

/-! ## Queues -/

def lastPart (name : Text) : Text := (name.splitOn '.').getLastD []

theorem lastPart_eq_iff {name short : Text} (h : '.' ∉ short) :
    lastPart name = short ↔ name = short ∨ '.' :: short <:+ name := by
  have hshort : short.splitOn '.' = [short] := splitOn_eq_singleton h
  obtain ⟨init, last, hp⟩ := (eq_nil_or_concat (name.splitOn '.')).resolve_left
    (splitOn_ne_nil _ name)
  rw [concat_eq_append] at hp
  have hlast : lastPart name = last := by simp [lastPart, hp]
  have hname : ['.'].intercalate (init ++ [last]) = name := by rw [← hp, intercalate_splitOn]
  rw [hlast]
  constructor
  · rintro rfl
    by_cases hi : init = []
    · subst hi
      exact Or.inl (by simpa using hname.symm)
    · rw [Text.intercalate_append hi (by simp), List.append_assoc] at hname
      exact Or.inr ⟨_, by simpa using hname⟩
  · rintro (rfl | ⟨before, rfl⟩)
    · rw [hshort] at hp
      cases init with
      | nil => exact (head_eq_of_cons_eq hp).symm
      | cons x init => simp at hp
    · rw [splitOn_append_cons_self, hshort] at hp
      exact (append_inj' hp rfl).2 |> head_eq_of_cons_eq |>.symm

def Row.queue (r : Row) : RowKind × Text := (r.kind, lastPart r.name)

namespace RunTree

def queued (t : RunTree) (q : RowKind × Text) : List Nat :=
  (List.range' 1 (t.rows.length - 1)).filter fun i => (t.rows[i]?).any (·.1.queue = q)

section

variable {t u : RunTree} {q : RowKind × Text} {i j k : Nat}

theorem mem_queued : i ∈ t.queued q ↔ 0 < i ∧ ∃ row state, t.rows[i]? = some (row, state) ∧ row.queue = q := by
  simp only [queued, mem_filter, mem_range'_1, Option.any_eq_true, decide_eq_true_eq, Prod.exists]
  constructor
  · rintro ⟨⟨hi, -⟩, row, state, hrow, hq⟩
    exact ⟨hi, row, state, hrow, hq⟩
  · rintro ⟨hi, row, state, hrow, hq⟩
    have hlt := (List.getElem?_eq_some_iff.mp hrow).1
    exact ⟨⟨hi, by omega⟩, row, state, hrow, hq⟩

theorem sorted_queued (t : RunTree) (q : RowKind × Text) : (t.queued q).Pairwise (· < ·) :=
  List.Pairwise.filter _ pairwise_lt_range'

theorem lt_of_queued_lt {i' : Nat} (hj : (t.queued q)[j]? = some i) (hk : (t.queued q)[k]? = some i')
    (h : i < i') : j < k := by
  obtain ⟨hj, rfl⟩ := List.getElem?_eq_some_iff.mp hj
  obtain ⟨hk, rfl⟩ := List.getElem?_eq_some_iff.mp hk
  by_contra hle
  rcases Nat.lt_or_eq_of_le (Nat.le_of_not_lt hle) with hkj | rfl
  · exact Nat.lt_asymm h (pairwise_iff_getElem.mp (sorted_queued t q) k j _ _ hkj)
  · exact Nat.lt_irrefl _ h

theorem queued_inj (hj : (t.queued q)[j]? = some i) (hk : (t.queued q)[k]? = some i) : j = k := by
  have hnodup : (t.queued q).Nodup := (sorted_queued t q).imp Nat.ne_of_lt
  obtain ⟨hlt, -⟩ := List.getElem?_eq_some_iff.mp hj
  exact (getElem?_inj hlt hnodup).mp (hj.trans hk.symm)

theorem exists_queued (hi : 0 < i) (hlt : i < t.rows.length) :
    ∃ (q : RowKind × Text) (k : Nat), (t.queued q)[k]? = some i := by
  have hrow : t.rows[i]? = some (t.rows[i].1, t.rows[i].2) := by simp [hlt]
  obtain ⟨k, hk⟩ := mem_iff_getElem?.mp (mem_queued.mpr ⟨hi, _, _, hrow, rfl⟩)
  exact ⟨_, k, hk⟩

/-! ## Finding a row -/

section

variable {kind : RowKind} {name : Text}

theorem findPending_eq_some (hi : 0 < i) (h : (t.rows[i]?).any (matches? kind name) = true)
    (hlt : ∀ j, 0 < j → j < i → (t.rows[j]?).any (matches? kind name) = false) :
    t.findPending kind name = some i := by
  obtain ⟨k, rfl⟩ := Nat.exists_eq_succ_of_ne_zero (Nat.ne_of_gt hi)
  have hidx : (t.rows.drop 1).findIdx? (matches? kind name) = some k := by
    obtain ⟨entry, hentry, hm⟩ := (Option.any_eq_true _ _).mp h
    obtain ⟨hk, rfl⟩ := List.getElem?_eq_some_iff.mp hentry
    have hdrop : k < (t.rows.drop 1).length := by simpa using Nat.lt_sub_of_add_lt hk
    refine findIdx?_eq_some_iff_getElem.mpr ⟨hdrop, by simpa [Nat.add_comm] using hm, fun j hj => ?_⟩
    have hbefore := hlt (j + 1) (Nat.succ_pos j) (Nat.succ_lt_succ hj)
    rw [getElem?_eq_getElem (Nat.lt_trans (Nat.succ_lt_succ hj) hk), Option.any_some] at hbefore
    simpa [Nat.add_comm] using hbefore
  rw [findPending, hidx]
  rfl

theorem findPending_eq_none (h : ∀ j, 0 < j → (t.rows[j]?).any (matches? kind name) = false) :
    t.findPending kind name = none := by
  have hidx : (t.rows.drop 1).findIdx? (matches? kind name) = none := by
    refine findIdx?_eq_none_iff.mpr fun entry hentry => ?_
    obtain ⟨k, hk⟩ := mem_iff_getElem?.mp hentry
    have hrow := h (k + 1) (Nat.succ_pos k)
    rw [getElem?_drop, Nat.add_comm] at hk
    rwa [hk, Option.any_some] at hrow
  rw [findPending, hidx]
  rfl

theorem matches?_iff (hn : '.' ∉ name) (row : Row) (state : RowState) :
    matches? kind name (row, state) = true ↔ state.status = .pending ∧ row.queue = (kind, name) := by
  simp only [matches?, Bool.and_eq_true, Bool.or_eq_true, decide_eq_true_eq, Text.endsWith,
    isSuffixOf_iff_suffix, ← lastPart_eq_iff hn, Row.queue, Prod.mk.injEq, and_assoc]

end

end

/-! ## Settling rows -/

/-- The first row that the event may be about gets its outcome. -/
def settle (t : RunTree) (e : Event) : RunTree :=
  match t.findPending e.step.1 e.step.2 with
  | some i => t.resolve i (e.exitStatus = 0) e.elapsedSecs
  | none => t

def settleAll (t : RunTree) (events : List Event) : RunTree := events.foldl settle t

def settledState (e : Event) : RowState := ⟨outcome (e.exitStatus = 0), some e.elapsedSecs⟩

/-- The events about the rows of a queue, in order. -/
def queueEvents (q : RowKind × Text) (events : List Event) : List Event := events.filter fun e => e.step = q

/-- From `t` to `u` each row has got the state of the event that has the same number in its queue. Rows
without such an event are as they were, and so is the root. -/
structure Settled (t u : RunTree) (events : List Event) : Prop where
  length : u.rows.length = t.rows.length
  root : u.rows[0]? = t.rows[0]?
  row : ∀ (q : RowKind × Text) (k i : Nat), (t.queued q)[k]? = some i → u.rows[i]? = (t.rows[i]?).map fun entry =>
    (entry.1, (((queueEvents q events)[k]?).map settledState).getD entry.2)

def Fresh (t : RunTree) : Prop := ∀ i, 0 < i → i < t.rows.length → t.Pending i

section

variable {t u : RunTree} {events : List Event} {e : Event} {q : RowKind × Text} {i k : Nat}

theorem fresh_ofModule (m : Module) : (ofModule m).Fresh := fun _ hi h => pending_ofModule hi h

theorem settledState_status (e : Event) : (settledState e).status ≠ .pending := by
  unfold settledState outcome
  split <;> simp

theorem queueEvents_swap {a b : Event} (h : a.step ≠ b.step) (earlier later : List Event) (q : RowKind × Text) :
    queueEvents q (earlier ++ b :: a :: later) = queueEvents q (earlier ++ a :: b :: later) := by
  simp only [queueEvents, filter_append, filter_cons, decide_eq_true_eq]
  by_cases ha : a.step = q
  · have hb : b.step ≠ q := fun hb => h (ha.trans hb.symm)
    rw [if_neg hb, if_neg hb]
  · rw [if_neg ha, if_neg ha]

theorem Settled.refl (t : RunTree) : Settled t t [] where
  length := rfl
  root := rfl
  row q k i _ := by simp [queueEvents]

section

variable {kind : RowKind} {name : Text} (h : Settled t u events) (ht : t.Fresh) (hn : '.' ∉ name)

include h ht hn

theorem Settled.any_matches (hk : (t.queued q)[k]? = some i) :
    (u.rows[i]?).any (matches? kind name) = true ↔ q = (kind, name) ∧ (queueEvents q events).length ≤ k := by
  obtain ⟨hi, row, state, hrow, rfl⟩ := mem_queued.mp (mem_of_getElem? hk)
  obtain ⟨row', state', hrow', hpending⟩ := ht i hi (List.getElem?_eq_some_iff.mp hrow).1
  rw [hrow] at hrow'
  cases hrow'
  rw [h.row _ k i hk, hrow, Option.map_some, Option.any_some, matches?_iff hn, and_comm]
  refine and_congr_right fun _ => ?_
  cases he : (queueEvents row.queue events)[k]? with
  | none => simpa [hpending] using List.getElem?_eq_none_iff.mp he
  | some e =>
    have hlt := (List.getElem?_eq_some_iff.mp he).1
    simpa [settledState_status] using hlt

theorem Settled.findPending :
    u.findPending kind name = (t.queued (kind, name))[(queueEvents (kind, name) events).length]? := by
  -- a row that matches stands in the queue, behind the rows that have got their events
  have hplace : ∀ j, 0 < j → (u.rows[j]?).any (matches? kind name) = true →
      ∃ k, (t.queued (kind, name))[k]? = some j ∧ (queueEvents (kind, name) events).length ≤ k := by
    intro j hj hm
    have hlt : j < t.rows.length := by
      obtain ⟨entry, hentry, -⟩ := (Option.any_eq_true _ _).mp hm
      exact h.length ▸ (List.getElem?_eq_some_iff.mp hentry).1
    obtain ⟨q, k, hk⟩ := exists_queued hj hlt
    obtain ⟨rfl, hle⟩ := (h.any_matches ht hn hk).mp hm
    exact ⟨k, hk, hle⟩
  cases hk : (t.queued (kind, name))[(queueEvents (kind, name) events).length]? with
  | some i =>
    refine findPending_eq_some (mem_queued.mp (mem_of_getElem? hk)).1
      ((h.any_matches ht hn hk).mpr ⟨rfl, Nat.le_refl _⟩) fun j hj hji => Bool.eq_false_iff.mpr fun hm => ?_
    obtain ⟨k, hk', hle⟩ := hplace j hj hm
    exact absurd (lt_of_queued_lt hk' hk hji) (Nat.not_lt.mpr hle)
  | none =>
    refine findPending_eq_none fun j hj => Bool.eq_false_iff.mpr fun hm => ?_
    obtain ⟨k, hk', hle⟩ := hplace j hj hm
    have hlt := (List.getElem?_eq_some_iff.mp hk').1
    exact absurd hlt (Nat.not_lt.mpr (Nat.le_trans (List.getElem?_eq_none_iff.mp hk) hle))

end

theorem getElem?_resolve_self (t : RunTree) (i : Nat) (success : Bool) (secs : Nat) :
    (t.resolve i success secs).rows[i]? =
      (t.rows[i]?).map fun entry => (entry.1, ⟨outcome success, some secs⟩) := by
  simp [resolve]

theorem Settled.settle (h : Settled t u events) (ht : t.Fresh) (hn : '.' ∉ e.step.2) :
    Settled t (u.settle e) (events ++ [e]) := by
  have hfind : u.findPending e.step.1 e.step.2 = (t.queued e.step)[(queueEvents e.step events).length]? :=
    h.findPending ht hn
  -- but for the next row of the queue, the row of that number has the same event as before
  have hsame : ∀ q k, (q = e.step → k ≠ (queueEvents e.step events).length) →
      (queueEvents q (events ++ [e]))[k]? = (queueEvents q events)[k]? := by
    intro q k hne
    by_cases hq : e.step = q
    · subst hq
      have hadd : queueEvents e.step (events ++ [e]) = queueEvents e.step events ++ [e] := by simp [queueEvents]
      have hk := hne rfl
      rw [hadd]
      grind
    · simp [queueEvents, hq]
  cases hj : (t.queued e.step)[(queueEvents e.step events).length]? with
  | none =>
    have hset : u.settle e = u := by rw [RunTree.settle, hfind, hj]
    rw [hset]
    refine ⟨h.length, h.root, fun q k i hk => ?_⟩
    rw [h.row q k i hk, hsame q k ?_]
    rintro rfl rfl
    rw [hj] at hk
    cases hk
  | some j =>
    have hset : u.settle e = u.resolve j (e.exitStatus = 0) e.elapsedSecs := by
      rw [RunTree.settle, hfind, hj]
    obtain ⟨hpos, row, state, hrow, hqueue⟩ := mem_queued.mp (mem_of_getElem? hj)
    rw [hset]
    refine ⟨by simp [resolve, h.length], by rw [resolve_of_ne (Nat.ne_of_gt hpos), h.root], fun q k i hk => ?_⟩
    by_cases hij : j = i
    -- a row stands in one queue, at one place
    · subst hij
      obtain ⟨-, row', state', hrow', rfl⟩ := mem_queued.mp (mem_of_getElem? hk)
      rw [hrow] at hrow'
      cases hrow'
      rw [hqueue] at hk ⊢
      obtain rfl := queued_inj hk hj
      rw [getElem?_resolve_self, h.row _ _ _ hj, hrow]
      simp [queueEvents, settledState]
    · rw [resolve_of_ne hij, h.row q k i hk, hsame q k ?_]
      rintro rfl rfl
      rw [hj] at hk
      exact hij (Option.some.inj hk)

theorem Settled.settleAll (h : Settled t u events) (ht : t.Fresh) {more : List Event}
    (hn : ∀ e ∈ more, '.' ∉ e.step.2) : Settled t (u.settleAll more) (events ++ more) := by
  induction more generalizing u events with
  | nil =>
    rw [append_nil]
    exact h
  | cons e more ih =>
    have hrest := ih (h.settle ht (hn e (by simp))) fun e' he => hn e' (by simp [he])
    rwa [List.append_assoc] at hrest

theorem Settled.unique {u' : RunTree} {events' : List Event} (h : Settled t u events)
    (h' : Settled t u' events') (hq : ∀ q, queueEvents q events' = queueEvents q events) :
    u' = u := by
  have hrows : u'.rows = u.rows := by
    refine ext_getElem? fun i => ?_
    by_cases hi : 0 < i ∧ i < t.rows.length
    · obtain ⟨q, k, hk⟩ := exists_queued hi.1 hi.2
      rw [h'.row _ k i hk, h.row _ k i hk, hq]
    · rcases Nat.eq_zero_or_pos i with rfl | hpos
      · rw [h'.root, h.root]
      · have hle : t.rows.length ≤ i := Nat.le_of_not_lt fun hlt => hi ⟨hpos, hlt⟩
        rw [getElem?_eq_none (h'.length ▸ hle), getElem?_eq_none (h.length ▸ hle)]
  cases u'
  cases u
  exact congrArg _ hrows

theorem settleAll_append (t : RunTree) (a b : List Event) : t.settleAll (a ++ b) = (t.settleAll a).settleAll b :=
  foldl_append

theorem later_settle (t : RunTree) (e : Event) : Later t (t.settle e) := by
  unfold RunTree.settle
  split
  · rename_i hi
    exact later_resolve (pending_of_findPending hi) _ _
  · exact .refl t

theorem later_settleAll (t : RunTree) (events : List Event) : Later t (t.settleAll events) := by
  induction events generalizing t with
  | nil => exact .refl t
  | cons e events ih => exact (later_settle t e).trans (ih (t.settle e))

theorem Settled.reconcile (h : Settled t u events) (ht : t.Fresh) {first : Nat} (hf : first ≤ 1) (success : Bool)
    (hk : (t.queued q)[k]? = some i) : (u.reconcile first success).rows[i]? = (t.rows[i]?).map fun entry =>
      (entry.1, ((queueEvents q events)[k]?).elim ⟨outcome success, some 0⟩ settledState) := by
  obtain ⟨hi, row, state, hrow, -⟩ := mem_queued.mp (mem_of_getElem? hk)
  obtain ⟨row', state', hrow', hpending⟩ := ht i hi (List.getElem?_eq_some_iff.mp hrow).1
  rw [hrow] at hrow'
  cases hrow'
  have hmax : max first 1 ≤ i := by omega
  rw [getElem?_reconcile, h.row q k i hk, hrow]
  cases (queueEvents q events)[k]? with
  | none => simp [hmax, hpending]
  | some e => simp [settledState_status]

theorem replay_eq_settleAll (entry : Text) (t : RunTree)
    (h : ∀ e ∈ events, e.phase = .finish ∧ e.isRoot entry = false) :
    (t.replay entry events).1 = t.settleAll events := by
  induction events generalizing t with
  | nil => rfl
  | cons e events ih =>
    have hended : t.ended entry e = t.findPending e.step.1 e.step.2 := if_pos (h e (by simp))
    have hrest := fun t' => ih t' fun e' he => h e' (by simp [he])
    have hcons : t.settleAll (e :: events) = (t.settle e).settleAll events := rfl
    rw [hcons, RunTree.settle]
    cases hfind : t.findPending e.step.1 e.step.2 with
    | none => simp only [replay, hended, hfind, hrest]
    | some i => simp only [replay, hended, hfind, hrest]

end

/-- The rows of each queue are settled first in, first out. -/
structure FirstInFirstOut (t : RunTree) (events : List Event) : Prop where
  /-- The event with number `k` of a queue resolves the row with number `k`; without such a row it changes
  nothing. -/
  step : ∀ earlier e later, events = earlier ++ e :: later → t.settleAll (earlier ++ [e]) =
    ((t.queued e.step)[(queueEvents e.step earlier).length]?).elim (t.settleAll earlier) fun i =>
      (t.settleAll earlier).resolve i (e.exitStatus = 0) e.elapsedSecs
  settled : Settled t (t.settleAll events) events
  later : ∀ earlier later, events = earlier ++ later → Later (t.settleAll earlier) (t.settleAll events)
  swap : ∀ earlier a b later, events = earlier ++ a :: b :: later → a.step ≠ b.step →
    t.settleAll (earlier ++ b :: a :: later) = t.settleAll events
  reconciled : ∀ first success, first ≤ 1 →
    ((t.settleAll events).reconcile first success).rows[0]? = t.rows[0]? ∧
    ∀ (q : RowKind × Text) (k i : Nat), (t.queued q)[k]? = some i →
      ((t.settleAll events).reconcile first success).rows[i]? = (t.rows[i]?).map fun entry =>
        (entry.1, ((queueEvents q events)[k]?).elim ⟨outcome success, some 0⟩ settledState)

/-- Events with short names settle the rows of a module's tree queue by queue, first in, first out, and a
session moves its tree in this way. -/
theorem settleAll_firstInFirstOut (m : Module) {events : List Event} (h : ∀ e ∈ events, '.' ∉ e.step.2) :
    (ofModule m).FirstInFirstOut events ∧
      ∀ entry, (∀ e ∈ events, e.phase = .finish ∧ e.isRoot entry = false) →
        ((ofModule m).replay entry events).1 = (ofModule m).settleAll events := by
  have ht := fresh_ofModule m
  have hall : ∀ es, (∀ e ∈ es, '.' ∉ e.step.2) → Settled (ofModule m) ((ofModule m).settleAll es) es :=
    fun es hes => (Settled.refl _).settleAll ht hes
  refine ⟨⟨?_, hall events h, ?_, ?_, ?_⟩, fun entry hentry => replay_eq_settleAll entry _ hentry⟩
  · rintro earlier e later rfl
    have hfind : ((ofModule m).settleAll earlier).findPending e.step.1 e.step.2 =
        ((ofModule m).queued e.step)[(queueEvents e.step earlier).length]? :=
      (hall earlier fun e' he => h e' (by simp [he])).findPending ht (h e (by simp))
    have hcons : (ofModule m).settleAll (earlier ++ [e]) = ((ofModule m).settleAll earlier).settle e :=
      settleAll_append _ earlier [e]
    rw [hcons, settle, hfind]
    cases ((ofModule m).queued e.step)[(queueEvents e.step earlier).length]? <;> rfl
  · rintro earlier later rfl
    rw [settleAll_append]
    exact later_settleAll _ later
  · rintro earlier a b later rfl hne
    refine (hall _ h).unique (hall _ fun e he => h e ?_) (queueEvents_swap hne earlier later)
    simp only [mem_append, mem_cons] at he ⊢
    grind
  · intro first success hf
    refine ⟨?_, fun q k i hk => (hall events h).reconcile ht hf success hk⟩
    rw [getElem?_reconcile, (hall events h).root]
    simp

/-- A module that runs two workflows with the same last part in their names. -/
def twoRuns : Module :=
  { Module.empty "m.jph" with
    workflows := [⟨"default", [],
      [.run ⟨"x", ⟨2, 3⟩⟩, .ensure ⟨"lib.ok", ⟨3, 3⟩⟩ none, .run ⟨"lib.x", ⟨4, 3⟩⟩], ⟨1, 1⟩⟩] }

/-- One event more than there are rows in its queue; the rule never ends. -/
def threeEnds : List Event :=
  [stepEnd "m__workflow_x" "workflow" "x" 1000,
    { stepEnd "lib__workflow_x" "workflow" "x" 2000 with status := some 4 },
    stepEnd "lib__workflow_x" "workflow" "x" 3000]

theorem settleAll_two_runs :
    (∀ e ∈ threeEnds, '.' ∉ e.step.2) ∧ (ofModule twoRuns).queued (.workflow, "x") = [1, 3] ∧
    ((ofModule twoRuns).settleAll threeEnds).rows[3]? =
      some (⟨.workflow, "lib.x", [], some false⟩, ⟨.failed, some 2⟩) ∧
    (ofModule twoRuns).settleAll threeEnds = (ofModule twoRuns).settleAll (threeEnds.take 2) ∧
    (((ofModule twoRuns).settleAll threeEnds).reconcile 0 true).rows[2]? =
      some (⟨.rule, "lib.ok", [], some true⟩, ⟨.done, some 0⟩) := by
  have hshort : ∀ e ∈ threeEnds, '.' ∉ e.step.2 := by decide
  have hqueue : (ofModule twoRuns).queued (.workflow, "x") = [1, 3] := by decide
  obtain ⟨h, -⟩ := settleAll_firstInFirstOut twoRuns hshort
  refine ⟨hshort, hqueue, ?_, ?_, ?_⟩
  · exact (h.settled.row (.workflow, "x") 1 3 (by decide)).trans (by decide)
  · exact (h.step (threeEnds.take 2) _ [] rfl).trans (by decide)
  · exact ((h.reconciled 0 true (by decide)).2 (.rule, "ok") 0 2 (by decide)).trans (by decide)

end RunTree

end Runbook
