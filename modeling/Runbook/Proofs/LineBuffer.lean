import Mathlib.Data.List.Forall2
import Runbook.LineBuffer

/-!
# Lines of a stream

The lines of a stream do not depend on how it is cut into chunks, so a buffer gives the lines of every
stream that it takes, one after the other, whatever calls bring them.
-/

open List

namespace Runbook

/-- The lines of the whole stream: the pieces between line feeds, of which the last one counts only if it
is not empty. -/
def streamLines (bytes : Bytes) : List Text :=
  let pieces := bytes.splitOn 10
  (if pieces.getLast? = some [] then pieces.dropLast else pieces).map LineBuffer.decodeLine

namespace LineBuffer

theorem cutLines_cons_feed (rest : Bytes) :
    cutLines (10 :: rest) = ([] :: (cutLines rest).1, (cutLines rest).2) := by
  simp [cutLines]

theorem cutLines_cons_of_nil {b : UInt8} (hb : b ≠ 10) {rest : Bytes} (h : (cutLines rest).1 = []) :
    cutLines (b :: rest) = ([], b :: (cutLines rest).2) := by
  simp [cutLines, hb, h]

theorem cutLines_cons_of_cons {b : UInt8} (hb : b ≠ 10) {rest line : Bytes} {more : List Bytes}
    (h : (cutLines rest).1 = line :: more) :
    cutLines (b :: rest) = ((b :: line) :: more, (cutLines rest).2) := by
  simp [cutLines, hb, h]

theorem splitOn_eq (bytes : Bytes) :
    bytes.splitOn 10 = (cutLines bytes).1 ++ [(cutLines bytes).2] := by
  induction bytes with
  | nil => rfl
  | cons b rest ih =>
    rw [splitOn_cons_eq_if_modifyHead, ih]
    by_cases hb : b = 10
    · subst hb
      simp [cutLines_cons_feed]
    · cases hl : (cutLines rest).1 with
      | nil => simp [hb, cutLines_cons_of_nil hb hl]
      | cons line more => simp [hb, cutLines_cons_of_cons hb hl]

theorem cutLines_append (a b : Bytes) :
    cutLines (a ++ b) =
      ((cutLines a).1 ++ (cutLines ((cutLines a).2 ++ b)).1, (cutLines ((cutLines a).2 ++ b)).2) := by
  induction a with
  | nil => simp [cutLines]
  | cons c rest ih =>
    by_cases hc : c = 10
    · subst hc
      simp [cutLines_cons_feed, ih]
    · cases hl : (cutLines rest).1 with
      | nil =>
        rw [hl, nil_append] at ih
        have hsame : cutLines (c :: (rest ++ b)) = cutLines (c :: ((cutLines rest).2 ++ b)) := by
          simp only [cutLines, ih]
        rw [cons_append, hsame, cutLines_cons_of_nil hc hl]
        simp
      | cons line more =>
        rw [hl, cons_append] at ih
        rw [cons_append, cutLines_cons_of_cons hc (congrArg Prod.fst ih),
          cutLines_cons_of_cons hc hl, ih]
        simp

theorem streamLines_eq (bytes : Bytes) :
    streamLines bytes =
      (cutLines bytes).1.map decodeLine ++ (LineBuffer.mk (cutLines bytes).2).finish.1.toList := by
  simp only [streamLines, splitOn_eq, finish, getLast?_concat, Option.some.injEq,
    dropLast_concat]
  split <;> simp

theorem cutLines_left (bytes : Bytes) : cutLines (cutLines bytes).2 = ([], (cutLines bytes).2) := by
  have h := cutLines_append bytes []
  rw [append_nil, append_nil] at h
  have hl := congrArg Prod.fst h
  have hr := congrArg Prod.snd h
  exact Prod.ext (self_eq_append_right.mp hl) hr.symm

theorem streamLines_push (b : LineBuffer) (chunk rest : Bytes) :
    streamLines (b.pending ++ chunk ++ rest) =
      (b.push chunk).1 ++ streamLines ((b.push chunk).2.pending ++ rest) := by
  rw [streamLines_eq, cutLines_append (b.pending ++ chunk) rest]
  simp [streamLines_eq, push]

theorem push_pending (b : LineBuffer) (chunk : Bytes) :
    cutLines (b.push chunk).2.pending = ([], (b.push chunk).2.pending) :=
  cutLines_left (b.pending ++ chunk)

theorem finish_eq {b : LineBuffer} (h : cutLines b.pending = ([], b.pending)) :
    b.finish.1.toList = streamLines b.pending := by
  rw [streamLines_eq, h]
  rfl

/-! ## Sequences of calls -/

inductive Call where
  | push (chunk : Bytes)
  | finish
deriving DecidableEq, Repr

/-- What a call gives: the lines that a chunk completes, or the last line, if there is one. -/
inductive Reply where
  | lines (texts : List Text)
  | last (text : Option Text)
deriving DecidableEq, Repr

def Reply.texts : Reply → List Text
  | .lines texts => texts
  | .last text => text.toList

def call (b : LineBuffer) : Call → Reply × LineBuffer
  | .push chunk => (.lines (b.push chunk).1, (b.push chunk).2)
  | .finish => (.last b.finish.1, b.finish.2)

/-- The replies to calls in order, and the buffer behind them. -/
def callAll (b : LineBuffer) : List Call → List Reply × LineBuffer
  | [] => ([], b)
  | c :: rest => ((b.call c).1 :: ((b.call c).2.callAll rest).1, ((b.call c).2.callAll rest).2)

/-- The calls for whole streams, each given by its chunks and ended by `finish`, and for the chunks of a
stream that has not ended. -/
def sequence (closed : List (List Bytes)) (opened : List Bytes) : List Call :=
  closed.flatMap (fun chunks => chunks.map .push ++ [.finish]) ++ opened.map .push

theorem exists_sequence (calls : List Call) : ∃ closed opened, calls = sequence closed opened := by
  induction calls with
  | nil => exact ⟨[], [], rfl⟩
  | cons c rest ih =>
    obtain ⟨closed, opened, rfl⟩ := ih
    cases c with
    | finish => exact ⟨[] :: closed, opened, rfl⟩
    | push chunk =>
      -- the chunk joins the first stream, which may be the one that has not ended
      cases closed with
      | nil => exact ⟨[], chunk :: opened, rfl⟩
      | cons chunks closed => exact ⟨(chunk :: chunks) :: closed, opened, rfl⟩

def fullLines (bytes : Bytes) : List Text := (bytes.splitOn 10).dropLast.map decodeLine

def endPiece (bytes : Bytes) : Bytes := (bytes.splitOn 10).getLastD []

/-- The line that the piece behind the last newline makes: none if it is empty. -/
def endLine (bytes : Bytes) : Option Text :=
  if endPiece bytes = [] then none else some (decodeLine (endPiece bytes))

/-- The replies to the chunks of a stream, one for each chunk, are together its full lines. -/
def Pushed (chunks : List Bytes) (replies : List Reply) : Prop :=
  ∃ texts : List (List Text), texts.length = chunks.length ∧ replies = texts.map .lines ∧
    texts.flatten = fullLines chunks.flatten

/-- The replies to the chunks of a stream and to the `finish` behind them. -/
def Answered (chunks : List Bytes) (replies : List Reply) : Prop :=
  ∃ pushed, Pushed chunks pushed ∧ replies = pushed ++ [.last (endLine chunks.flatten)]

theorem fullLines_eq (bytes : Bytes) : fullLines bytes = (cutLines bytes).1.map decodeLine := by
  rw [fullLines, splitOn_eq, dropLast_concat]

theorem endPiece_eq (bytes : Bytes) : endPiece bytes = (cutLines bytes).2 := by
  rw [endPiece, splitOn_eq, getLastD_concat]

theorem feed_not_mem_left (bytes : Bytes) : 10 ∉ (cutLines bytes).2 := by
  induction bytes with
  | nil => simp [cutLines]
  | cons b rest ih =>
    by_cases hb : b = 10
    · subst hb
      rwa [cutLines_cons_feed]
    · cases hl : (cutLines rest).1 with
      | nil =>
        rw [cutLines_cons_of_nil hb hl]
        exact not_mem_cons_of_ne_of_not_mem (Ne.symm hb) ih
      | cons line more => rwa [cutLines_cons_of_cons hb hl]

theorem callAll_append (b : LineBuffer) (calls more : List Call) :
    b.callAll (calls ++ more) =
      ((b.callAll calls).1 ++ ((b.callAll calls).2.callAll more).1, ((b.callAll calls).2.callAll more).2) := by
  induction calls generalizing b with
  | nil => rfl
  | cons c rest ih => simp [callAll, ih]

theorem callAll_push (b : LineBuffer) (chunks : List Bytes) (h : cutLines b.pending = ([], b.pending)) :
    ∃ texts : List (List Text), texts.length = chunks.length ∧
      b.callAll (chunks.map .push) = (texts.map .lines, ⟨(cutLines (b.pending ++ chunks.flatten)).2⟩) ∧
      texts.flatten = (cutLines (b.pending ++ chunks.flatten)).1.map decodeLine := by
  induction chunks generalizing b with
  | nil => exact ⟨[], rfl, by simp [callAll, h], by simp [h]⟩
  | cons chunk rest ih =>
    obtain ⟨texts, hlength, hcalls, htexts⟩ := ih (b.push chunk).2 (push_pending b chunk)
    have hcut := cutLines_append (b.pending ++ chunk) rest.flatten
    rw [List.append_assoc] at hcut
    refine ⟨(b.push chunk).1 :: texts, by simp [hlength], ?_, ?_⟩
    · simp only [map_cons, callAll, call, hcalls, flatten_cons, hcut]
      rfl
    · simp only [flatten_cons, htexts, hcut, map_append]
      rfl

theorem pushed_callAll (chunks : List Bytes) :
    Pushed chunks (callAll {} (chunks.map .push)).1 ∧
      (callAll {} (chunks.map .push)).2 = ⟨endPiece chunks.flatten⟩ := by
  obtain ⟨texts, hlength, hcalls, htexts⟩ := callAll_push {} chunks rfl
  rw [hcalls, endPiece_eq]
  exact ⟨⟨texts, hlength, rfl, htexts.trans (fullLines_eq _).symm⟩, rfl⟩

theorem answered_callAll (chunks : List Bytes) :
    Answered chunks (callAll {} (chunks.map .push ++ [.finish])).1 ∧
      (callAll {} (chunks.map .push ++ [.finish])).2 = {} := by
  obtain ⟨hpushed, hleft⟩ := pushed_callAll chunks
  rw [callAll_append, hleft]
  exact ⟨⟨_, hpushed, rfl⟩, rfl⟩

theorem callAll_sequence (closed : List (List Bytes)) (opened : List Bytes) :
    ∃ answers rest, (callAll {} (sequence closed opened)).1 = answers.flatten ++ rest ∧
      List.Forall₂ Answered closed answers ∧ Pushed opened rest ∧
      (callAll {} (sequence closed opened)).2 = ⟨endPiece opened.flatten⟩ := by
  induction closed with
  | nil =>
    obtain ⟨hpushed, hleft⟩ := pushed_callAll opened
    exact ⟨[], _, rfl, .nil, hpushed, hleft⟩
  | cons chunks closed ih =>
    obtain ⟨answers, rest, hreplies, hanswered, hpushed, hleft⟩ := ih
    obtain ⟨hfirst, hfresh⟩ := answered_callAll chunks
    have hsplit : sequence (chunks :: closed) opened =
        (chunks.map .push ++ [.finish]) ++ sequence closed opened := by
      simp [sequence]
    rw [hsplit, callAll_append, hfresh]
    refine ⟨_ :: answers, rest, ?_, .cons hfirst hanswered, hpushed, hleft⟩
    rw [hreplies, flatten_cons, List.append_assoc]

theorem Pushed.texts {chunks : List Bytes} {replies : List Reply} (h : Pushed chunks replies) :
    replies.flatMap Reply.texts = fullLines chunks.flatten := by
  obtain ⟨texts, -, rfl, htexts⟩ := h
  rw [← htexts, flatMap_map]
  exact flatMap_id

theorem Answered.texts {chunks : List Bytes} {replies : List Reply} (h : Answered chunks replies) :
    replies.flatMap Reply.texts = fullLines chunks.flatten ++ (endLine chunks.flatten).toList := by
  obtain ⟨pushed, hpushed, rfl⟩ := h
  rw [flatMap_append, hpushed.texts, flatMap_singleton]
  rfl

theorem texts_answers {closed : List (List Bytes)} {answers : List (List Reply)}
    (h : List.Forall₂ Answered closed answers) :
    answers.flatten.flatMap Reply.texts =
      closed.flatMap fun chunks => fullLines chunks.flatten ++ (endLine chunks.flatten).toList := by
  induction h with
  | nil => rfl
  | cons hfirst _ ih => rw [flatten_cons, flatMap_append, hfirst.texts, ih, flatMap_cons]

/-- Any calls are those for some whole streams and one that has not ended. Each whole stream is answered
with its full lines and at `finish` with what stands behind the last newline; of the last one the rest is
pending. Texts and buffer are the same if each stream comes in one chunk. -/
theorem callAll_splits (calls : List Call) :
    ∃ closed opened answers rest, calls = sequence closed opened ∧
      (callAll {} calls).1 = answers.flatten ++ rest ∧
      List.Forall₂ Answered closed answers ∧ Pushed opened rest ∧
      (callAll {} calls).2.pending = endPiece opened.flatten ∧ 10 ∉ (callAll {} calls).2.pending ∧
      (callAll {} (sequence (closed.map fun chunks => [chunks.flatten]) [opened.flatten])).2 =
        (callAll {} calls).2 ∧
      (callAll {} (sequence (closed.map fun chunks => [chunks.flatten]) [opened.flatten])).1.flatMap
        Reply.texts = (callAll {} calls).1.flatMap Reply.texts := by
  obtain ⟨closed, opened, rfl⟩ := exists_sequence calls
  obtain ⟨answers, rest, hreplies, hanswered, hpushed, hleft⟩ := callAll_sequence closed opened
  obtain ⟨answers', rest', hreplies', hanswered', hpushed', hleft'⟩ :=
    callAll_sequence (closed.map fun chunks => [chunks.flatten]) [opened.flatten]
  refine ⟨closed, opened, answers, rest, rfl, hreplies, hanswered, hpushed, by rw [hleft], ?_, ?_, ?_⟩
  · rw [hleft, endPiece_eq]
    exact feed_not_mem_left _
  · rw [hleft, hleft', flatten_singleton]
  · rw [hreplies, hreplies', flatMap_append, flatMap_append, texts_answers hanswered,
      texts_answers hanswered', hpushed.texts, hpushed'.texts, flatMap_map]
    simp only [flatten_singleton]

end LineBuffer

end Runbook
