import Mathlib.Data.List.Nodup
import Runbook.Capture
import Runbook.Proofs.Clock
import Runbook.Proofs.Path
import Runbook.RunRecord
import Runbook.Shell.StepName

/-!
# The step that a failure report points at

The report takes the failed step whose captures have the greatest name. Names hold the second and the number
of a step and are compared as texts, so a number with more digits can come before one with fewer.
-/

open List

namespace Runbook

/-! ## The greatest name -/

namespace RunRecord

theorem nameLe_some {a b : Text} : nameLe (some a) (some b) = a.le b := rfl

theorem nameLe_refl (a : Option Text) : nameLe a a = true := by
  cases a with
  | none => rfl
  | some a => exact Text.le_refl a

theorem nameLe_total (a b : Option Text) : nameLe a b = true ∨ nameLe b a = true := by
  cases a with
  | none => exact .inl rfl
  | some a =>
    cases b with
    | none => exact .inr rfl
    | some b =>
      simp only [nameLe, Text.le_iff]
      exact List.le_total a b

theorem nameLe_trans {a b c : Option Text} (h : nameLe a b = true) (h' : nameLe b c = true) :
    nameLe a c = true := by
  cases a with
  | none => rfl
  | some a =>
    cases b with
    | none => cases h
    | some b =>
      cases c with
      | none => cases h'
      | some c => exact Text.le_iff.mpr (List.le_trans (Text.le_iff.mp h) (Text.le_iff.mp h'))

theorem latest_eq_none {logs : List StepLog} (h : latest logs = none) : logs = [] := by
  cases logs with
  | nil => rfl
  | cons log rest =>
    simp only [latest] at h
    split at h
    · split at h <;> cases h
    · cases h

theorem latest_spec {logs : List StepLog} {log : StepLog} (h : latest logs = some log) :
    log ∈ logs ∧ ∀ other ∈ logs, nameLe other.outFile.fileName log.outFile.fileName = true := by
  induction logs generalizing log with
  | nil => cases h
  | cons first rest ih =>
    simp only [latest] at h
    split at h
    · rename_i found hfound
      obtain ⟨hmem, hle⟩ := ih hfound
      split at h
      · rename_i hfirst
        cases h
        exact ⟨by simp [hmem], forall_mem_cons.mpr ⟨hfirst, hle⟩⟩
      · rename_i hfirst
        cases h
        have hgt := (nameLe_total _ _).resolve_left hfirst
        exact ⟨by simp, forall_mem_cons.mpr
          ⟨nameLe_refl _, fun other hother => nameLe_trans (hle other hother) hgt⟩⟩
    · rename_i hnone
      cases h
      rw [latest_eq_none hnone]
      exact ⟨by simp, by simp [nameLe_refl]⟩

theorem failureFiles_of_failed {r : RunRecord} (t : FileTree) (h : ∃ log ∈ r.logs, log.status ≠ 0) :
    ∃ log ∈ r.logs, log.status ≠ 0 ∧ r.failureFiles t = (some log.outFile, some log.errFile) ∧
      ∀ other ∈ r.logs, other.status ≠ 0 →
        nameLe other.outFile.fileName log.outFile.fileName = true := by
  cases hlatest : latest (r.logs.filter (·.status ≠ 0)) with
  | none =>
    obtain ⟨log, hmem, hfailed⟩ := h
    have hnil := latest_eq_none hlatest
    have hlog : log ∈ r.logs.filter (·.status ≠ 0) := by simp [hmem, hfailed]
    rw [hnil] at hlog
    cases hlog
  | some log =>
    obtain ⟨hmem, hle⟩ := latest_spec hlatest
    obtain ⟨hlog, hfailed⟩ := mem_filter.mp hmem
    refine ⟨log, hlog, by simpa using hfailed, by rw [failureFiles, hlatest], ?_⟩
    intro other hother hstatus
    exact hle other (mem_filter.mpr ⟨hother, by simpa using hstatus⟩)

end RunRecord

/-! ## Names of captures -/

theorem isCaptureChar_of_mem_safeName {t : Text} {c : Char} (h : c ∈ safeName t) :
    isCaptureChar c = true := by
  obtain ⟨d, -, hc⟩ := mem_flatMap.mp h
  split at hc
  · rename_i hd
    rwa [mem_singleton.mp hc]
  · rw [eq_of_mem_replicate hc]
    rfl

theorem isCaptureChar_of_isDigit {c : Char} (h : c.isDigit = true) : isCaptureChar c = true := by
  simp [isCaptureChar, Char.isAlphanum, h]

theorem isCaptureChar_of_mem_compact {d : DateTime} {c : Char} (h : c ∈ d.compact) :
    isCaptureChar c = true := by
  simp only [DateTime.compact, mem_append] at h
  rcases h with ((((((h | h) | h) | h) | h) | h) | h) | h
  all_goals first
    | exact isCaptureChar_of_isDigit (isDigit_of_mem_padded h)
    | (rw [mem_singleton.mp h]
       rfl)

theorem isCaptureChar_of_mem_captureName {d : DateTime} {n : Nat} {func : Text} {c : Char}
    (h : c ∈ captureName d n func) : isCaptureChar c = true := by
  simp only [captureName, mem_append] at h
  rcases h with (((h | h) | h) | h) | h
  · exact isCaptureChar_of_mem_compact h
  · rw [mem_singleton.mp h]
    rfl
  · exact isCaptureChar_of_isDigit (isDigit_of_mem_padded h)
  · rw [mem_singleton.mp h]
    rfl
  · exact isCaptureChar_of_mem_safeName h

theorem length_padded_mono {width m n : Nat} (h : m ≤ n) :
    (padded width m).length ≤ (padded width n).length := by
  have hlen : (Text.ofNat m).length ≤ (Text.ofNat n).length := by
    have hpos : 0 < (Text.ofNat n).length := Nat.length_toDigits_pos
    refine (Nat.length_toDigits_le_iff (by decide) hpos).mpr (Nat.lt_of_le_of_lt h ?_)
    exact (Nat.length_toDigits_le_iff (by decide) hpos).mp (Nat.le_refl _)
  simp only [padded, length_append, length_replicate]
  omega

/-- A dash comes before every digit, so that numbers with a dash behind them are ordered as their digits
are. -/
theorem Text.le_append_dash {s t : Text} (hs : ∀ c ∈ s, c.isDigit = true) (ht : ∀ c ∈ t, c.isDigit = true)
    (hne : s ≠ t) (x y : Text) : le (s ++ '-' :: x) (t ++ '-' :: y) = le s t := by
  induction s generalizing t with
  | nil =>
    cases t with
    | nil => exact absurd rfl hne
    | cons b t =>
      have hb := (Char.isDigit_iff_toNat.mp (ht b (by simp))).1
      have hdash : '-'.toNat < '0'.toNat := by decide
      have hlt : '-'.toNat < b.toNat := Nat.lt_of_lt_of_le hdash hb
      exact (le_cons_iff.mpr (.inl hlt)).trans (le_iff.mpr (nil_le _)).symm
  | cons a s ih =>
    have ha := (Char.isDigit_iff_toNat.mp (hs a (by simp))).1
    cases t with
    | nil =>
      have hdash : '-'.toNat < '0'.toNat := by decide
      have hlt : '-'.toNat < a.toNat := Nat.lt_of_lt_of_le hdash ha
      have hshort : le (a :: s) [] = false :=
        Bool.eq_false_iff.mpr fun h => cons_ne_nil a s (le_nil.mp (le_iff.mp h))
      rw [hshort, Bool.eq_false_iff]
      intro h
      rcases le_cons_iff.mp h with h | ⟨h, -⟩
      · exact Nat.lt_asymm hlt h
      · exact Nat.ne_of_gt hlt (congrArg Char.toNat h)
    | cons b t =>
      rw [cons_append, cons_append, Bool.eq_iff_iff, le_cons_iff, le_cons_iff]
      by_cases hab : a = b
      · have hst : s ≠ t := fun he => hne (by rw [hab, he])
        rw [ih (fun c hc => hs c (by simp [hc])) (fun c hc => ht c (by simp [hc])) hst]
      · simp [hab]

theorem Path.fileName_append_slash {q t : Text} (hs : '/' ∉ t) (hlen : 2 < t.length) :
    (⟨q ++ '/' :: t⟩ : Path).fileName = some t := by
  have hseg : Component.ofSegment t = some (.name t) := by
    have h₁ : ¬ (t = [] ∨ t = ['.']) := by
      rintro (rfl | rfl) <;> simp at hlen
    have h₂ : t ≠ ['.', '.'] := by
      rintro rfl
      simp at hlen
    simp [Component.ofSegment, h₁, h₂]
  have hparts : bodyParts t = [.name t] := by
    rw [bodyParts_segment hs, hseg]
    rfl
  by_cases hq : q = []
  · subst hq
    have hcomponents : components ⟨'/' :: t⟩ = .root :: bodyParts t := rfl
    rw [nil_append, fileName, hcomponents, hparts]
    rfl
  · rw [fileName, components_append_slash hq, hparts, getLast?_concat]

theorem Path.fileName_out (dir : Text) {name : Text} (h : ∀ c ∈ name, isCaptureChar c = true) :
    (⟨dir ++ "/" ++ name ++ ".out"⟩ : Path).fileName = some (name ++ ".out") := by
  have hpath : dir ++ "/" ++ name ++ ".out" = dir ++ '/' :: (name ++ ".out".toList) := by
    simp
  rw [hpath]
  refine fileName_append_slash (fun hm => ?_) ?_
  · rcases mem_append.mp hm with hm | hm
    · exact absurd (h _ hm) (by decide)
    · exact absurd hm (by decide)
  · rw [length_append]
    exact Nat.lt_of_lt_of_le (by decide) (Nat.le_add_left 4 _)

/-! ## Steps of a run -/

/-- A step that has ended, with its number in the run. -/
structure EndedStep where
  number : Nat
  func : Text
  started : Instant
  ended : Instant
  status : Int
deriving DecidableEq, Repr

namespace EndedStep

/-- The file that keeps what the step wrote to one of its channels. -/
def capture (dir : Path) (s : EndedStep) (ending : Text) : Text :=
  dir.text ++ "/" ++ captureName s.started.dateTime s.number s.func ++ ending

def event (dir : Path) (s : EndedStep) : Event where
  phase := .finish
  func := s.func
  kind := Shell.stepKind s.func
  name := Shell.stepName s.func
  time := s.ended.dateTime.iso
  status := some s.status
  elapsedMs := some ((s.ended.millis : Int) - s.started.millis)
  outFile := some (s.capture dir ".out")
  errFile := some (s.capture dir ".err")

def log (dir : Path) (s : EndedStep) : StepLog :=
  ⟨s.func, s.status, ⟨s.capture dir ".out"⟩, ⟨s.capture dir ".err"⟩⟩

/-- Steps of one run, in any order: their numbers differ, and by the clock none started before a step
with a smaller number. Years have four digits. -/
structure OneRun (steps : List EndedStep) : Prop where
  distinct : (steps.map number).Nodup
  clock : ∀ s ∈ steps, ∀ o ∈ steps, s.number ≤ o.number → s.started.millis ≤ o.started.millis
  year : ∀ s ∈ steps, s.started.dateTime.year < 10000

theorem OneRun.number_inj {steps : List EndedStep} (h : OneRun steps) {s o : EndedStep} (hs : s ∈ steps)
    (ho : o ∈ steps) (hn : s.number = o.number) : s = o :=
  inj_on_of_nodup_map h.distinct hs ho hn

theorem fileName_capture (dir : Path) (s : EndedStep) :
    (⟨s.capture dir ".out"⟩ : Path).fileName =
      some (captureName s.started.dateTime s.number s.func ++ ".out") :=
  Path.fileName_out dir.text fun _ => isCaptureChar_of_mem_captureName

/-- A step comes no later than another by the second in which it started, or else by the digits of its
number. -/
def NotAfter (o s : EndedStep) : Prop :=
  o.started.seconds < s.started.seconds ∨
    o.started.seconds = s.started.seconds ∧ (padded 3 o.number).le (padded 3 s.number) = true

instance (o s : EndedStep) : Decidable (o.NotAfter s) := inferInstanceAs (Decidable (_ ∨ _))

theorem captureName_out (d : DateTime) (n : Nat) (func : Text) :
    captureName d n func ++ ".out" =
      d.compact ++ ('-' :: (padded 3 n ++ '-' :: (safeName func ++ ".out".toList))) := by
  simp [captureName]

theorem le_captureName {o s : EndedStep} (ho : o.started.dateTime.year < 10000)
    (hs : s.started.dateTime.year < 10000) (hne : o.number ≠ s.number) :
    Text.le (captureName o.started.dateTime o.number o.func ++ ".out")
      (captureName s.started.dateTime s.number s.func ++ ".out") = true ↔ o.NotAfter s := by
  rw [captureName_out, captureName_out]
  by_cases hsec : o.started.seconds = s.started.seconds
  · have hpad : padded 3 o.number ≠ padded 3 s.number := fun he => hne (padded_inj he)
    rw [Instant.dateTime_congr hsec, Text.le_append_left, ← singleton_append,
      ← singleton_append (x := '-') (l := padded 3 s.number ++ _), Text.le_append_left,
      Text.le_append_dash (fun _ => isDigit_of_mem_padded) (fun _ => isDigit_of_mem_padded) hpad]
    simp [NotAfter, hsec]
  · have hlen : o.started.dateTime.compact.length = s.started.dateTime.compact.length := by
      rw [(Instant.fits_dateTime ho).length_compact, (Instant.fits_dateTime hs).length_compact]
    have hcompact : o.started.dateTime.compact ≠ s.started.dateTime.compact := fun he =>
      hsec ((Instant.compact_inj ho hs).mp he)
    rw [Text.le_append_of_ne hlen hcompact, Instant.le_compact ho hs, NotAfter]
    omega

/-- A step with a greater number comes later, unless it started in the same second and its number has
more digits. -/
theorem OneRun.same_second {steps : List EndedStep} (h : OneRun steps) {o s : EndedStep} (ho : o ∈ steps)
    (hs : s ∈ steps) (hlt : s.number < o.number) (hle : o.NotAfter s) :
    o.started.seconds = s.started.seconds ∧
      (padded 3 s.number).length < (padded 3 o.number).length := by
  have hclock : s.started.seconds ≤ o.started.seconds :=
    Nat.div_le_div_right (h.clock s hs o ho (Nat.le_of_lt hlt))
  rcases hle with hbefore | ⟨hsec, hdigits⟩
  · omega
  · refine ⟨hsec, ?_⟩
    have hmono : (padded 3 s.number).length ≤ (padded 3 o.number).length :=
      length_padded_mono (Nat.le_of_lt hlt)
    rcases Nat.lt_or_eq_of_le hmono with hshort | heq
    · exact hshort
    · have hnumber := (le_padded heq.symm).mp hdigits
      omega

end EndedStep

namespace RunRecord

/-- The record behind the ends of steps, one after the other. -/
def recordSteps (r : RunRecord) (steps : List EndedStep) : RunRecord :=
  steps.foldl (fun r s => r.record (s.event r.dir)) r

theorem record_event (r : RunRecord) (s : EndedStep) :
    r.record (s.event r.dir) = { r with logs := r.logs ++ [s.log r.dir] } := rfl

theorem recordSteps_eq (r : RunRecord) (steps : List EndedStep) :
    r.recordSteps steps = { r with logs := r.logs ++ steps.map (·.log r.dir) } := by
  induction steps generalizing r with
  | nil => simp [recordSteps]
  | cons s steps ih =>
    have hstep : r.recordSteps (s :: steps) = (r.record (s.event r.dir)).recordSteps steps := rfl
    rw [hstep, record_event, ih]
    simp

/-- Behind the ends of steps in any order, the report points at the failed step that comes last by second
and digits. A failed step with a greater number is passed over only if it started in the same second and
its number has more digits, which never happens up to step 999. -/
theorem failureFiles_recordSteps (r : RunRecord) (t : FileTree) {steps : List EndedStep} (hr : r.logs = [])
    (hrun : EndedStep.OneRun steps) (hfailed : ∃ s ∈ steps, s.status ≠ 0) :
    ∃ s ∈ steps, s.status ≠ 0 ∧
      (r.recordSteps steps).failureFiles t =
        (some ⟨s.capture r.dir ".out"⟩, some ⟨s.capture r.dir ".err"⟩) ∧
      (∀ o ∈ steps, o.status ≠ 0 → o.NotAfter s) ∧
      (∀ o ∈ steps, o.status ≠ 0 → s.number < o.number →
        o.started.seconds = s.started.seconds ∧
          (padded 3 s.number).length < (padded 3 o.number).length) ∧
      ((∀ o ∈ steps, o.status ≠ 0 → o.number < 1000) →
        ∀ o ∈ steps, o.status ≠ 0 → o.number ≤ s.number) := by
  have hlogs : (r.recordSteps steps).logs = steps.map (·.log r.dir) := by
    rw [recordSteps_eq, hr, nil_append]
  have hsome : ∃ log ∈ (r.recordSteps steps).logs, log.status ≠ 0 := by
    obtain ⟨s, hs, hstatus⟩ := hfailed
    exact ⟨s.log r.dir, by rw [hlogs]; exact mem_map_of_mem hs, hstatus⟩
  obtain ⟨log, hlog, hstatus, hfiles, hgreatest⟩ := failureFiles_of_failed t hsome
  rw [hlogs] at hlog hgreatest
  obtain ⟨s, hs, rfl⟩ := mem_map.mp hlog
  have hafter : ∀ o ∈ steps, o.status ≠ 0 → o.NotAfter s := by
    intro o ho hostatus
    by_cases hn : o.number = s.number
    · rw [hrun.number_inj ho hs hn]
      exact .inr ⟨rfl, Text.le_refl _⟩
    · have hname := hgreatest (o.log r.dir) (mem_map_of_mem ho) hostatus
      simp only [EndedStep.log, EndedStep.fileName_capture, nameLe_some] at hname
      exact (EndedStep.le_captureName (hrun.year o ho) (hrun.year s hs) hn).mp hname
  have hpassed : ∀ o ∈ steps, o.status ≠ 0 → s.number < o.number →
      o.started.seconds = s.started.seconds ∧
        (padded 3 s.number).length < (padded 3 o.number).length :=
    fun o ho hostatus hlt => hrun.same_second ho hs hlt (hafter o ho hostatus)
  refine ⟨s, hs, hstatus, hfiles, hafter, hpassed, ?_⟩
  intro hsmall o ho hostatus
  refine Nat.le_of_not_lt fun hlt => ?_
  have hdigits := (hpassed o ho hostatus hlt).2
  rw [length_padded (length_ofNat_le 3 (by decide) (hsmall s hs hstatus)),
    length_padded (length_ofNat_le 3 (by decide) (hsmall o ho hostatus))] at hdigits
  exact Nat.lt_irrefl _ hdigits

/-- Two failed steps of one second: the report points at step 999 and not at step 1000. -/
theorem failureFiles_recordSteps_thousand :
    let steps : List EndedStep :=
      [⟨1000, "m__rule_b", ⟨1767225600000⟩, ⟨1767225600100⟩, 1⟩,
        ⟨999, "m__workflow_a", ⟨1767225600000⟩, ⟨1767225600200⟩, 1⟩]
    EndedStep.OneRun steps ∧
      (recordSteps { id := [], dir := "/r" } steps).failureFiles ⟨"/", .dir []⟩ =
        (some ⟨"/r/20260101T000000Z-999-m__workflow_a.out"⟩,
          some ⟨"/r/20260101T000000Z-999-m__workflow_a.err"⟩) := by
  intro steps
  have hrun : EndedStep.OneRun steps := ⟨by decide, by decide, by decide⟩
  refine ⟨hrun, ?_⟩
  obtain ⟨s, hs, -, hfiles, hafter, -⟩ :=
    failureFiles_recordSteps { id := [], dir := "/r" } ⟨"/", .dir []⟩ rfl hrun ⟨_, mem_cons_self, by decide⟩
  simp only [steps, mem_cons, not_mem_nil, or_false] at hs
  rcases hs with rfl | rfl
  · exact absurd (hafter _ (mem_cons_of_mem _ mem_cons_self) (by decide)) (by decide)
  · rw [hfiles]
    decide

end RunRecord

end Runbook
