import Runbook.Proofs.LineBuffer
import Runbook.Proofs.Text
import Runbook.Session

/-!
# Watching a run

What a session has done at the end of a run follows from the lines of the error stream and the chunks of the
output alone, not from how they are cut or arrive.
-/

open List

namespace Runbook
open Utf8
open Progress RunTree

/-! ## Replaying events -/

namespace RunTree

/-- The row that the event resolves: the first pending one that it may be about, if it ends a step other
than the root. -/
def ended (entry : Text) (t : RunTree) (e : Event) : Option Nat :=
  if e.phase = .finish ∧ e.isRoot entry = false then t.findPending e.step.1 e.step.2 else none

/-- The tree after the events, and the rows that they resolve in order. -/
def replay (entry : Text) : RunTree → List Event → RunTree × List Nat
  | t, [] => (t, [])
  | t, e :: rest =>
    match t.ended entry e with
    | some i =>
      let after := replay entry (t.resolve i (e.exitStatus = 0) e.elapsedSecs) rest
      (after.1, i :: after.2)
    | none => replay entry t rest

def Resolved (t : RunTree) (i : Nat) : Prop :=
  ∃ row state, t.rows[i]? = some (row, state) ∧ state.status ≠ .pending

section

variable {entry : Text} {t : RunTree} {i j : Nat} {e : Event} {events : List Event}

theorem pending_of_findPending {kind : RowKind} {name : Text} (h : t.findPending kind name = some i) :
    ∃ row state, t.rows[i]? = some (row, state) ∧ state.status = .pending := by
  simp only [findPending, Option.map_eq_some_iff] at h
  obtain ⟨j, hj, rfl⟩ := h
  obtain ⟨hlt, hm, -⟩ := findIdx?_eq_some_iff_getElem.mp hj
  simp only [getElem_drop, matches?, Bool.and_eq_true, decide_eq_true_eq] at hm
  rw [length_drop] at hlt
  have hlt : j + 1 < t.rows.length := by omega
  refine ⟨t.rows[j + 1].1, t.rows[j + 1].2, by simp [hlt], ?_⟩
  simpa [Nat.add_comm] using hm.1.1

theorem pending_of_ended (h : t.ended entry e = some i) :
    ∃ row state, t.rows[i]? = some (row, state) ∧ state.status = .pending := by
  simp only [ended] at h
  split at h
  · exact pending_of_findPending h
  · cases h

theorem not_resolved_of_ended (h : t.ended entry e = some i) : ¬ t.Resolved i := by
  obtain ⟨row, state, hi, hp⟩ := pending_of_ended h
  rintro ⟨row', state', hi', hne⟩
  rw [hi] at hi'
  cases hi'
  exact hne hp

theorem resolved_resolve (h : t.ended entry e = some i) (success : Bool) (secs : Nat) :
    (t.resolve i success secs).Resolved i := by
  obtain ⟨row, state, hi, _⟩ := pending_of_ended h
  refine ⟨row, ⟨outcome success, some secs⟩, by simp [resolve, hi], ?_⟩
  cases success <;> simp [outcome]

theorem resolve_of_ne (h : i ≠ j) (success : Bool) (secs : Nat) :
    (t.resolve i success secs).rows[j]? = t.rows[j]? := by
  simp [resolve, h]

theorem Resolved.congr {u : RunTree} (h : u.rows[i]? = t.rows[i]?) : u.Resolved i ↔ t.Resolved i := by
  simp only [Resolved, h]

theorem replay_of_resolved (entry : Text) (events : List Event) (h : t.Resolved i) :
    (t.replay entry events).1.rows[i]? = t.rows[i]? := by
  induction events generalizing t with
  | nil => rfl
  | cons e rest ih =>
    simp only [replay]
    split
    · rename_i k hk
      have hne : k ≠ i := by
        rintro rfl
        exact not_resolved_of_ended hk h
      have hrow := resolve_of_ne (t := t) hne (e.exitStatus = 0) e.elapsedSecs
      rw [ih ((Resolved.congr hrow).mpr h), hrow]
    · exact ih h

theorem of_mem_replay (h : i ∈ (t.replay entry events).2) :
    (t.replay entry events).1.Resolved i ∧ ¬ t.Resolved i := by
  induction events generalizing t with
  | nil => simp [replay] at h
  | cons e rest ih =>
    cases hk : t.ended entry e with
    | none =>
      simp only [replay, hk] at h ⊢
      exact ih h
    | some k =>
      simp only [replay, hk] at h ⊢
      have hres := resolved_resolve hk (e.exitStatus = 0) e.elapsedSecs
      rcases mem_cons.mp h with rfl | h
      · exact ⟨(Resolved.congr (replay_of_resolved entry rest hres)).mpr hres, not_resolved_of_ended hk⟩
      · obtain ⟨hafter, hbefore⟩ := ih h
        have hne : k ≠ i := by
          rintro rfl
          exact hbefore hres
        exact ⟨hafter, fun hi => hbefore ((Resolved.congr (resolve_of_ne hne _ _)).mpr hi)⟩

theorem nodup_replay (entry : Text) (t : RunTree) (events : List Event) :
    (t.replay entry events).2.Nodup := by
  induction events generalizing t with
  | nil => simp [replay]
  | cons e rest ih =>
    cases hk : t.ended entry e with
    | none =>
      simp only [replay, hk]
      exact ih t
    | some k =>
      simp only [replay, hk, nodup_cons]
      exact ⟨fun hmem => (of_mem_replay hmem).2 (resolved_resolve hk _ _), ih _⟩

theorem replay_append (entry : Text) (t : RunTree) (a b : List Event) :
    t.replay entry (a ++ b) =
      (((t.replay entry a).1.replay entry b).1,
        (t.replay entry a).2 ++ ((t.replay entry a).1.replay entry b).2) := by
  induction a generalizing t with
  | nil => simp [replay]
  | cons e rest ih =>
    cases hk : t.ended entry e with
    | none => simp only [cons_append, replay, hk, ih]
    | some k => simp only [cons_append, replay, hk, ih]

end

end RunTree

/-! ## Interleavings -/

/-- The elements of two lists in one, each list in its order. -/
inductive Interleaving {α : Type} : List α → List α → List α → Prop where
  | nil : Interleaving [] [] []
  | left {x : α} {xs ys zs : List α} : Interleaving xs ys zs → Interleaving (x :: xs) ys (x :: zs)
  | right {y : α} {xs ys zs : List α} : Interleaving xs ys zs → Interleaving xs (y :: ys) (y :: zs)

theorem Interleaving.append {α : Type} {xs ys zs xs' ys' zs' : List α} (h : Interleaving xs ys zs)
    (h' : Interleaving xs' ys' zs') : Interleaving (xs ++ xs') (ys ++ ys') (zs ++ zs') := by
  induction h with
  | nil => exact h'
  | left _ ih => exact ih.left
  | right _ ih => exact ih.right

/-! ## What lines tell -/

def toldEvents (lines : List Text) : List Event := lines.filterMap Event.parse

/-- The lines that are no events, each with its line feed. -/
def toldText (lines : List Text) : Text :=
  (lines.filter fun line => (Event.parse line).isNone).flatMap (· ++ ['\n'])

theorem toldEvents_append (a b : List Text) : toldEvents (a ++ b) = toldEvents a ++ toldEvents b :=
  filterMap_append

theorem toldText_append (a b : List Text) : toldText (a ++ b) = toldText a ++ toldText b := by
  simp [toldText]

/-- The bytes of the line that a row of the tree is printed as. -/
def Progress.printedRow (p : Progress) (t : RunTree) (i : Nat) : Bytes :=
  match t.rows[i]? with
  | some (row, state) => encode (p.printedLine row state)
  | none => []

/-! ## Schedules -/

def Arrival.isError : Arrival → Bool
  | .errors _ | .errorsClosed => true
  | .output _ | .tick => false

def Arrival.output? : Arrival → Option Bytes
  | .output chunk => some chunk
  | .errors _ | .errorsClosed | .tick => none

def errorArrivals (schedule : List (Nat × Arrival)) : List Arrival :=
  (schedule.map (·.2)).filter Arrival.isError

@[simp] theorem errorArrivals_errors (secs : Nat) (chunk : Bytes) (rest : List (Nat × Arrival)) :
    errorArrivals ((secs, .errors chunk) :: rest) = .errors chunk :: errorArrivals rest := rfl

@[simp] theorem errorArrivals_closed (secs : Nat) (rest : List (Nat × Arrival)) :
    errorArrivals ((secs, .errorsClosed) :: rest) = .errorsClosed :: errorArrivals rest := rfl

def outputChunks (schedule : List (Nat × Arrival)) : List Bytes :=
  schedule.filterMap (·.2.output?)

/-- The schedule delivers the bytes as the error stream, in some chunks, and then closes it. -/
def Delivers (schedule : List (Nat × Arrival)) (bytes : Bytes) : Prop :=
  ∃ chunks : List Bytes, chunks.flatten = bytes ∧
    errorArrivals schedule = chunks.map Arrival.errors ++ [.errorsClosed]

namespace Session

/-- After the session has handled the lines of the error stream and the chunks of the output, in any
order, the result is what they tell. -/
structure Handled (s : Session) (lines : List Text) (chunks : List Bytes) (result : Session × Written) :
    Prop where
  entry : result.1.entry = s.entry
  progress : result.1.progress = s.progress
  tree : result.1.tree = (s.tree.replay s.entry (toldEvents lines)).1
  record : result.1.record = (toldEvents lines).foldl RunRecord.record s.record
  diagnostics : result.1.diagnostics = s.diagnostics ++ toldText lines
  err : result.2.err = encode (toldText lines)
  out : ∃ blocks, Interleaving chunks ((s.tree.replay s.entry (toldEvents lines)).2.map
    (s.progress.printedRow result.1.tree)) blocks ∧ result.2.out = blocks.flatten

section

variable {s s₁ s₂ : Session} {w₁ w₂ : Written} {lines more : List Text} {chunks chunks' : List Bytes}

theorem Handled.trans (h : Handled s lines chunks (s₁, w₁)) (h' : Handled s₁ more chunks' (s₂, w₂)) :
    Handled s (lines ++ more) (chunks ++ chunks') (s₂, w₁ ++ w₂) := by
  have hfirst : s₁.tree = (s.tree.replay s.entry (toldEvents lines)).1 := h.tree
  have htree : s₂.tree = (s₁.tree.replay s.entry (toldEvents more)).1 := h.entry ▸ h'.tree
  -- the rows printed first look the same in the tree at the end
  have hrows : (s.tree.replay s.entry (toldEvents lines)).2.map (s.progress.printedRow s₂.tree) =
      (s.tree.replay s.entry (toldEvents lines)).2.map (s.progress.printedRow s₁.tree) := by
    apply map_congr_left
    intro i hi
    have hkept := replay_of_resolved s.entry (toldEvents more) (of_mem_replay hi).1
    simp only [printedRow, htree, hfirst, hkept]
  constructor
  case entry => exact h'.entry.trans h.entry
  case progress => exact h'.progress.trans h.progress
  case tree => rw [toldEvents_append, replay_append, htree, hfirst]
  case record => rw [toldEvents_append, foldl_append, h'.record, h.record]
  case diagnostics => rw [toldText_append, ← List.append_assoc, ← h.diagnostics, h'.diagnostics]
  case err =>
    rw [toldText_append, encode_append, ← h.err, ← h'.err]
    rfl
  case out =>
    obtain ⟨blocks, hb, hw⟩ := h.out
    obtain ⟨blocks', hb', hw'⟩ := h'.out
    rw [h.entry, h.progress] at hb'
    refine ⟨blocks ++ blocks', ?_, ?_⟩
    · rw [toldEvents_append, replay_append, map_append, hrows, ← hfirst]
      exact hb.append hb'
    · rw [flatten_append, ← hw, ← hw']
      rfl

theorem Handled.refl (s : Session) : Handled s [] [] (s, {}) where
  entry := rfl
  progress := rfl
  tree := rfl
  record := rfl
  diagnostics := (append_nil _).symm
  err := rfl
  out := ⟨[], .nil, rfl⟩

theorem Handled.plain {result : Session × Written} (h : Handled s lines chunks result)
    (hp : s.progress.interactive = false) : result.1.progress.interactive = false := by
  rw [h.progress]
  exact hp

theorem Handled.of_buffer {b : LineBuffer} {result : Session × Written}
    (h : Handled { s with lines := b } lines chunks result) : Handled s lines chunks result :=
  ⟨h.entry, h.progress, h.tree, h.record, h.diagnostics, h.err, h.out⟩

/-! ## Steps -/

theorem ended_eq_none {entry : Text} {t : RunTree} {e : Event}
    (h : e.isRoot entry = true ∨ e.phase = .start ∨ t.findPending e.step.1 e.step.2 = none) :
    t.ended entry e = none := by
  rcases h with h | h | h
  · simp [ended, h]
  · simp [ended, h]
  · simp [ended, h]

theorem handled_of_not_ended {line : Text} {e : Event} (he : Event.parse line = some e)
    (h : s.tree.ended s.entry e = none) :
    Handled s [line] [] ({ s with record := s.record.record e }, {}) := by
  have hevents : toldEvents [line] = [e] := by simp [toldEvents, he]
  have htext : toldText [line] = [] := by simp [toldText, he]
  constructor
  case entry => rfl
  case progress => rfl
  case tree => simp [hevents, replay, h]
  case record => simp [hevents]
  case diagnostics => simp [htext]
  case err => simp [htext, encode]
  case out => exact ⟨[], by simpa [hevents, replay, h] using Interleaving.nil, rfl⟩

theorem handled_stepEvent (hp : s.progress.interactive = false) {line : Text} {e : Event}
    (he : Event.parse line = some e) : Handled s [line] [] (s.stepEvent e) := by
  simp only [stepEvent]
  split
  · rename_i hroot
    exact handled_of_not_ended he (ended_eq_none (.inl hroot))
  · rename_i hroot
    split
    · rename_i hnone
      exact handled_of_not_ended he (ended_eq_none (.inr (.inr hnone)))
    · rename_i hstart
      simp only [stepStarted, hp, Bool.false_eq_true, ↓reduceIte]
      exact handled_of_not_ended he (ended_eq_none (.inr (.inl hstart)))
    · rename_i i hi hend
      have hevents : toldEvents [line] = [e] := by simp [toldEvents, he]
      have htext : toldText [line] = [] := by simp [toldText, he]
      have hended : s.tree.ended s.entry e = some i := by
        simp [ended, hend, hroot, hi]
      obtain ⟨row, state, hrow, -⟩ := resolved_resolve hended (e.exitStatus = 0) e.elapsedSecs
      simp only [stepFinished, hp, Bool.false_eq_true, ↓reduceIte, hrow]
      constructor
      case entry => rfl
      case progress => rfl
      case tree => simp [hevents, replay, hended]
      case record => simp [hevents]
      case diagnostics => simp [htext]
      case err => simp [htext, encode, Written.toOut]
      case out =>
        refine ⟨[encode (s.progress.printedLine row state)], ?_, by simp [Written.toOut]⟩
        simp only [hevents, replay, hended, map_cons, map_nil, printedRow, hrow]
        exact .right .nil

theorem handled_errorLine (hp : s.progress.interactive = false) (secs : Nat) (line : Text) :
    Handled s [line] [] (s.errorLine secs line) := by
  simp only [errorLine]
  split
  · rename_i e he
    exact handled_stepEvent hp he
  · rename_i he
    have hevents : toldEvents [line] = [] := by simp [toldEvents, he]
    have htext : toldText [line] = line ++ ['\n'] := by simp [toldText, he]
    simp only [diagnostic, redraw, hp, Bool.false_eq_true, ↓reduceIte]
    constructor
    case entry => rfl
    case progress => rfl
    case tree => simp [hevents, replay]
    case record => simp [hevents]
    case diagnostics => simp [htext]
    case err =>
      rw [htext]
      rfl
    case out => exact ⟨[], by simpa [hevents, replay] using Interleaving.nil, rfl⟩

theorem handled_errorLines (hp : s.progress.interactive = false) (secs : Nat) (lines : List Text) :
    Handled s lines [] (s.errorLines secs lines) := by
  induction lines generalizing s with
  | nil => exact .refl s
  | cons line rest ih =>
    have hfirst := handled_errorLine hp secs line
    exact hfirst.trans (ih (hfirst.plain hp))

theorem handled_output (hp : s.progress.interactive = false) (secs : Nat) (chunk : Bytes) :
    Handled s [] [chunk] (s.receive secs (.output chunk)) := by
  simp only [receive, childOutput, redraw, hp, Bool.false_eq_true, ↓reduceIte]
  constructor
  case entry => rfl
  case progress => rfl
  case tree => rfl
  case record => rfl
  case diagnostics => simp [toldText]
  case err => rfl
  case out => exact ⟨[chunk], .left .nil, by simp [encode]⟩

theorem handled_tick (hp : s.progress.interactive = false) (secs : Nat) :
    Handled s [] [] (s.receive secs .tick) := by
  simp only [receive, tick, redraw, hp, Bool.false_eq_true, ↓reduceIte]
  exact .refl s

theorem errorLine_lines (secs : Nat) (s : Session) (line : Text) :
    (s.errorLine secs line).1.lines = s.lines := by
  simp only [errorLine]
  split
  · simp only [stepEvent]
    split
    · rfl
    · split <;> rfl
  · rfl

theorem errorLines_lines (secs : Nat) (s : Session) (lines : List Text) :
    (s.errorLines secs lines).1.lines = s.lines := by
  induction lines generalizing s with
  | nil => rfl
  | cons line rest ih => exact (ih _).trans (errorLine_lines secs s line)

/-! ## Runs -/

theorem handled_quiet (hp : s.progress.interactive = false) {schedule : List (Nat × Arrival)}
    (h : errorArrivals schedule = []) : Handled s [] (outputChunks schedule) (s.receiveAll schedule) := by
  induction schedule generalizing s with
  | nil => exact .refl s
  | cons arrived rest ih =>
    obtain ⟨secs, arrival⟩ := arrived
    cases arrival with
    | output chunk =>
      have hfirst := handled_output hp secs chunk
      exact hfirst.trans (ih (hfirst.plain hp) h)
    | tick =>
      have hfirst := handled_tick hp secs
      exact hfirst.trans (ih (hfirst.plain hp) h)
    | errors chunk => simp at h
    | errorsClosed => simp at h

/-- From any point of a run on, what counts are the bytes that the buffer holds back, those that are
still to come, and the output. -/
theorem handled_receiveAll (hp : s.progress.interactive = false)
    (hleft : LineBuffer.cutLines s.lines.pending = ([], s.lines.pending))
    {schedule : List (Nat × Arrival)} {pieces : List Bytes}
    (h : errorArrivals schedule = pieces.map Arrival.errors ++ [.errorsClosed]) :
    Handled s (streamLines (s.lines.pending ++ pieces.flatten)) (outputChunks schedule)
      (s.receiveAll schedule) := by
  induction schedule generalizing s pieces with
  | nil => simp [errorArrivals] at h
  | cons arrived rest ih =>
    obtain ⟨secs, arrival⟩ := arrived
    cases arrival with
    | output chunk =>
      have hfirst := handled_output hp secs chunk
      exact hfirst.trans (ih (hfirst.plain hp) hleft h)
    | tick =>
      have hfirst := handled_tick hp secs
      exact hfirst.trans (ih (hfirst.plain hp) hleft h)
    | errors chunk =>
      cases pieces with
      | nil => simp at h
      | cons piece pieces =>
        obtain ⟨rfl, hrest⟩ : chunk = piece ∧
            errorArrivals rest = pieces.map Arrival.errors ++ [.errorsClosed] := by
          simpa using h
        have hfirst : Handled s (s.lines.push chunk).1 [] (s.receive secs (.errors chunk)) :=
          (handled_errorLines (s := { s with lines := (s.lines.push chunk).2 }) hp secs _).of_buffer
        have hbuffer : (s.receive secs (.errors chunk)).1.lines = (s.lines.push chunk).2 :=
          errorLines_lines secs _ _
        rw [flatten_cons, ← List.append_assoc, LineBuffer.streamLines_push, ← hbuffer]
        refine hfirst.trans (ih (hfirst.plain hp) ?_ hrest)
        rw [hbuffer]
        exact LineBuffer.push_pending s.lines chunk
    | errorsClosed =>
      cases pieces with
      | cons piece pieces => simp at h
      | nil =>
        have h : errorArrivals rest = [] := by simpa using h
        have hfirst : Handled s s.lines.finish.1.toList [] (s.receive secs .errorsClosed) :=
          (handled_errorLines (s := { s with lines := s.lines.finish.2 }) hp secs _).of_buffer
        rw [flatten_nil, append_nil, ← LineBuffer.finish_eq hleft,
          ← append_nil s.lines.finish.1.toList]
        exact hfirst.trans (handled_quiet (hfirst.plain hp) h)

end

end Session

/-- A run that is not shown on a terminal does not depend on how its streams arrive. The tree, the record,
the diagnostics and the error stream are what the lines of the bytes tell: each is an event, which is
replayed, or a diagnostic, which is passed on. The output is the root and then the chunks in order, with one
line for each row that an event resolves; no row is resolved twice. -/
theorem session_of_delivery (m : Module) (entry : Text) (p : Progress) (record : RunRecord)
    (hp : p.interactive = false) (schedule : List (Nat × Arrival)) (bytes : Bytes)
    (h : Delivers schedule bytes) :
    let opening := Session.start { entry, tree := .ofModule m, progress := p, record }
    let final := opening.1.receiveAll schedule
    let events := toldEvents (streamLines bytes)
    let replayed := (ofModule m).replay entry events
    final.1.tree = replayed.1 ∧
    final.1.diagnostics = toldText (streamLines bytes) ∧
    final.1.record = events.foldl RunRecord.record record ∧
    (opening.2 ++ final.2).err = encode (toldText (streamLines bytes)) ∧
    (∃ blocks, Interleaving (outputChunks schedule) (replayed.2.map (p.printedRow replayed.1)) blocks ∧
      (opening.2 ++ final.2).out = encode (p.label Row.root ++ ['\n']) ++ blocks.flatten) ∧
    replayed.2.Nodup ∧ ∀ i ∈ replayed.2, replayed.1.Resolved i ∧ ¬ (ofModule m).Resolved i := by
  obtain ⟨pieces, rfl, h⟩ := h
  let s : Session := { entry, tree := .ofModule m, progress := p, record }
  have hopen : s.start = (s, Written.toOut (p.label Row.root ++ ['\n'])) := by
    simp [s, Session.start, start, redraw, hp, ofModule]
  have hdone : s.Handled (streamLines pieces.flatten) (outputChunks schedule) (s.receiveAll schedule) :=
    Session.handled_receiveAll hp rfl h
  rw [hopen]
  refine ⟨hdone.tree, hdone.diagnostics, hdone.record, hdone.err, ?_, nodup_replay .., ?_⟩
  · obtain ⟨blocks, hblocks, hout⟩ := hdone.out
    rw [hdone.tree] at hblocks
    exact ⟨blocks, hblocks, by rw [← hout]; rfl⟩
  · intro i hi
    exact of_mem_replay hi

def oneStep : Module :=
  { Module.empty "m.jph" with workflows := [⟨"default", [], [.ensure ⟨"ok", ⟨2, 3⟩⟩ none], ⟨1, 1⟩⟩] }

def oneStepRun : Session where
  entry := "m"
  tree := .ofModule oneStep
  progress := ⟨false, false, none⟩
  record := ⟨"1", "/runs/1", []⟩

/-- The error stream of a run up to the middle of an event. -/
def cutBefore : Bytes :=
  encode "note\n__JAIPH_EVENT__ \x7b\"type\":\"STEP_END\",\"func\":\"m__ru"

def cutBehind : Bytes :=
  encode "le_ok\",\"kind\":\"rule\",\"name\":\"ok\",\"status\":0\x7d\r\nrest"

def cutSchedule : List (Nat × Arrival) :=
  [(0, .output [97]), (0, .errors cutBefore), (0, .tick), (1, .errors cutBehind), (1, .errorsClosed),
    (2, .output [98])]

theorem session_of_cut_event :
    Delivers cutSchedule (cutBefore ++ cutBehind) ∧
    (oneStepRun.start.1.receiveAll cutSchedule).1.diagnostics = "note\nrest\n".toList ∧
    ∃ blocks, Interleaving [[97], [98]] [encode "└── rule ok (0s)\n"] blocks ∧
      (oneStepRun.start.2 ++ (oneStepRun.start.1.receiveAll cutSchedule).2).out =
        encode "workflow default\n" ++ blocks.flatten := by
  have hd : Delivers cutSchedule (cutBefore ++ cutBehind) :=
    ⟨[cutBefore, cutBehind], by simp, rfl⟩
  have hsaid : toldText (streamLines (cutBefore ++ cutBehind)) = "note\nrest\n".toList := by
    decide +kernel
  have hrows : ((ofModule oneStep).replay "m"
        (toldEvents (streamLines (cutBefore ++ cutBehind)))).2.map
      ((mk false false none).printedRow ((ofModule oneStep).replay "m"
        (toldEvents (streamLines (cutBefore ++ cutBehind)))).1) =
      [encode "└── rule ok (0s)\n"] := by
    decide +kernel
  have hroot : encode ((mk false false none).label Row.root ++ ['\n']) =
      encode "workflow default\n" := by
    decide +kernel
  obtain ⟨-, htext, -, -, ⟨blocks, hblocks, hout⟩, -⟩ :=
    session_of_delivery oneStep "m" ⟨false, false, none⟩ ⟨"1", "/runs/1", []⟩ rfl cutSchedule _ hd
  rw [hrows] at hblocks
  rw [hroot] at hout
  rw [hsaid] at htext
  unfold oneStepRun
  exact ⟨hd, htext, blocks, hblocks, hout⟩

end Runbook
