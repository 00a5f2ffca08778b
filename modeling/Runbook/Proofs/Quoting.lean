import Runbook.Proofs.LineForms
import Runbook.Prompt

/-!
# Quoted prompts

A prompt is read line by line up to the first quote that is not escaped, and decoded as one text. A text
that is written with its special characters escaped comes back as it was.
-/

open List

namespace Runbook
open Reader Prompt Text

/-! ## Closing quotes -/

theorem eq_of_cutQuote {before t a b : Text} (h : cutQuote before t = some (a, b)) : t = a ++ '"' :: b := by
  induction t generalizing before a with
  | nil => cases h
  | cons c rest ih =>
    simp only [cutQuote] at h
    split at h
    · rename_i hc
      cases h
      rw [hc.1]
      rfl
    · obtain ⟨⟨a', b'⟩, hcut, he⟩ := Option.map_eq_some_iff.mp h
      cases he
      rw [ih hcut]
      rfl

theorem cutQuote_close {before t a b : Text} (h : cutQuote before t = some (a, b)) (tail : Text) :
    cutQuote before (a ++ '"' :: tail) = some (a, tail) := by
  induction t generalizing before a with
  | nil => cases h
  | cons c rest ih =>
    simp only [cutQuote] at h
    split at h
    · rename_i hc
      cases h
      simp [cutQuote, hc.2]
    · rename_i hc
      obtain ⟨⟨a', b'⟩, hcut, he⟩ := Option.map_eq_some_iff.mp h
      cases he
      simp [cutQuote, hc, ih hcut]

/-- A text that can stand between the quotes of a prompt: no line but the last closes the quote, and the
last line lets it be closed behind it. -/
def Quotable (text : Text) : Prop :=
  ∃ init last, text.splitOn '\n' = init ++ [last] ∧ (∀ l ∈ init, cutQuote [] l = none) ∧
    ∀ tail, cutQuote [] (last ++ '"' :: tail) = some (last, tail)

theorem quotable_of_cutQuote {raw text tail : Text} (hraw : '\n' ∉ raw)
    (h : cutQuote [] raw = some (text, tail)) : Quotable text := by
  have htext : '\n' ∉ text := fun hn => hraw (by rw [eq_of_cutQuote h]; simp [hn])
  exact ⟨[], text, splitOn_eq_singleton htext, by simp, cutQuote_close h⟩

theorem quotable_append {text raw more tail : Text}
    (htext : ∀ l ∈ text.splitOn '\n', cutQuote [] l = none) (hraw : '\n' ∉ raw)
    (h : cutQuote [] raw = some (more, tail)) : Quotable (text ++ '\n' :: more) := by
  have hmore : '\n' ∉ more := fun hn => hraw (by rw [eq_of_cutQuote h]; simp [hn])
  refine ⟨text.splitOn '\n', more, ?_, htext, cutQuote_close h⟩
  rw [splitOn_append_cons_self, splitOn_eq_singleton hmore]

/-! ## Reading a prompt -/

/-- The lines of a prompt that is written behind a margin. -/
def promptLines (margin text : Text) : List Text :=
  (margin ++ "prompt \"" ++ text ++ "\"").splitOn '\n'

theorem not_crlf_prompt (margin : Text) {text : Text} (hmargin : '\r' ∉ margin) (h : ¬ ['\r', '\n'] <:+: text) :
    ¬ ['\r', '\n'] <:+: margin ++ "prompt \"" ++ text ++ "\"" := by
  have hreturn : '\r' ∉ margin ++ ("prompt \"" : Text) := by simp [hmargin]
  have hword : ¬ ['\r', '\n'] <:+: margin ++ ("prompt \"" : Text) := fun hin => hreturn (hin.subset (by simp))
  refine not_crlf_append (not_crlf_append hword h fun hq => ?_) ?_ fun _ hq => ?_
  · exact absurd (mem_of_getLast? hq) hreturn
  · simp [infix_cons_iff]
  · cases hq

namespace Reader

abbrev inBlock (r : Reader) (b : Block) : Reader := { r with block := b }

theorem steps_prompt (r : Reader) (head : Heading) (steps : List Step) (loc : Location) (text : Text)
    (line : Nat) {init : List Text} {last : Text} (hinit : ∀ l ∈ init, cutQuote [] l = none)
    (hlast : ∀ tail, cutQuote [] (last ++ '"' :: tail) = some (last, tail)) :
    (r.inBlock (.prompt head steps loc text)).steps line (init ++ [last ++ ['"']]) =
      .ok (r.inBlock (.workflow head
        (steps ++ [.prompt (['\n'].intercalate (text :: (init ++ [last]))) loc]))) := by
  induction init generalizing text line with
  | nil =>
    simp only [nil_append, Reader.steps, step, promptLine, hlast [], promptStep]
    simp [intercalate_cons_cons]
    rfl
  | cons l init ih =>
    have hl := hinit l (by simp)
    have hrest := ih (text ++ '\n' :: l) (line + 1) fun k hk => hinit k (by simp [hk])
    simp only [cons_append, Reader.steps, step, promptLine, hl]
    refine hrest.trans ?_
    rw [intercalate_cons_of_ne_nil (by simp), intercalate_cons_of_ne_nil (by simp),
      intercalate_cons_of_ne_nil (by simp)]
    simp

theorem workflowLine_prompt (r : Reader) (head : Heading) (steps : List Step) (line : Nat) {margin : Text}
    (hmargin : ∀ c ∈ margin, isBlank c = true) (rest : Text) :
    r.workflowLine head steps line (margin ++ ("prompt \"" ++ rest)) =
      match cutQuote [] rest with
      | some (text, tail) =>
        r.promptStep head steps ⟨line, margin.byteLength + 1⟩ text line (margin ++ ("prompt \"" ++ rest)) tail
      | none => .ok (r.inBlock (.prompt head steps ⟨line, margin.byteLength + 1⟩ rest)) := by
  have htrim : (margin ++ ("prompt \"" ++ rest)).trim = "prompt \"" ++ rest.trimEnd := by
    have hquote : trimEnd ('"' :: rest) = '"' :: rest.trimEnd := trimEnd_cons (by decide) rest
    have hword : trimStart ("prompt \"" ++ rest) = "prompt \"" ++ rest := trimStart_cons (by decide) _
    rw [trim_append hmargin, trim, hword]
    have hend := trimEnd_append (a := "prompt ") (b := '"' :: rest) (by simp [hquote])
    rw [hquote] at hend
    exact hend
  have hbody : BodyLine.of (margin ++ ("prompt \"" ++ rest)).trim = .prompt := by
    rw [htrim]
    refine BodyLine.of_prompt ('"' :: rest.trimEnd) (by simp) ?_
    rw [trim, trimStart_cons (by decide), trimEnd_cons (by decide), trimEnd_trimEnd]
  have hcut : cut "prompt" (margin ++ ("prompt \"" ++ rest)) = some (margin, ' ' :: '"' :: rest) :=
    cut_append (c := 'p') (by intro hp; exact absurd (hmargin 'p' hp) (by decide)) _
  have hstart : trimStart (' ' :: '"' :: rest) = '"' :: rest := rfl
  cases hquote : cutQuote [] rest <;>
    simp only [workflowLine, hbody, openPrompt, hcut, Option.getD_some, hstart, hquote]

theorem steps_promptLines (r : Reader) (head : Heading) (steps : List Step) (line : Nat) (margin : Text)
    {text : Text} (hmargin : ∀ c ∈ margin, c = ' ') (h : Quotable text) :
    (r.inBlock (.workflow head steps)).steps line (promptLines margin text) =
      .ok (r.inBlock (.workflow head (steps ++ [.prompt text ⟨line, margin.byteLength + 1⟩]))) := by
  obtain ⟨init, last, hp, hinit, hlast⟩ := h
  have hblank : ∀ c ∈ margin, isBlank c = true := fun c hc => hmargin c hc ▸ by decide
  have hword : '\n' ∉ ("prompt \"" : Text) := by decide
  have hopen : (margin ++ "prompt \"").splitOn '\n' = [] ++ [margin ++ "prompt \""] := by
    refine splitOn_eq_singleton fun hn => ?_
    rcases mem_append.mp hn with hn | hn
    · exact absurd (hmargin _ hn) (by decide)
    · exact hword hn
  have hclose : List.splitOn '\n' "\"" = [['"']] := rfl
  have htext : text = ['\n'].intercalate (init ++ [last]) := by rw [← hp, intercalate_splitOn]
  cases init with
  | nil =>
    have hlines : promptLines margin text = [margin ++ ("prompt \"" ++ (last ++ ['"']))] := by
      rw [promptLines, splitOn_append (splitOn_append hopen hp) hclose]
      simp
    have hcut := hlast []
    rw [hlines, htext, nil_append, intercalate_singleton]
    simp only [Reader.steps, step, workflowLine_prompt _ _ _ _ hblank, hcut, promptStep]
    rfl
  | cons first init =>
    have hlines : promptLines margin text =
        (margin ++ ("prompt \"" ++ first)) :: (init ++ [last ++ ['"']]) := by
      have hfirst : (margin ++ "prompt \"" ++ text).splitOn '\n' =
          ((margin ++ "prompt \"" ++ first) :: init) ++ [last] := splitOn_append hopen hp
      rw [promptLines, splitOn_append hfirst hclose]
      simp
    have hcut := hinit first (by simp)
    rw [hlines, htext]
    simp only [Reader.steps, step, workflowLine_prompt _ _ _ _ hblank, hcut]
    exact steps_prompt r head steps _ first (line + 1) (fun l hl => hinit l (by simp [hl])) hlast

end Reader

/-! ## Escaping -/

namespace Prompt

/-- A character as it is written between the quotes of a prompt. -/
def escapeChar (c : Char) : Text :=
  if c = '\\' ∨ c = '"' ∨ c = '$' ∨ c = '`' then ['\\', c] else [c]

/-- A text as it is written between the quotes of a prompt. -/
def escape (t : Text) : Text := t.flatMap escapeChar

/-- An even number of backslashes stands at the end of what was passed, so a quote would close. -/
def Unescaped (before : Text) : Prop := (before.takeWhile (· == '\\')).length % 2 = 0

theorem escape_cons (c : Char) (t : Text) : escape (c :: t) = escapeChar c ++ escape t := flatMap_cons

/-- An escaped character never closes the quote, and leaves no backslash that escapes the next one. -/
theorem cutQuote_escapeChar {before : Text} (h : Unescaped before) (c : Char) (tail : Text) :
    ∃ passed, Unescaped passed ∧
      cutQuote before (escapeChar c ++ tail) =
        (cutQuote passed tail).map fun (a, b) => (escapeChar c ++ a, b) := by
  unfold Unescaped at h
  by_cases hc : c = '\\' ∨ c = '"' ∨ c = '$' ∨ c = '`'
  · have hodd : ((('\\' :: before).takeWhile (· == '\\')).length) % 2 ≠ 0 := by
      simp
      omega
    refine ⟨c :: '\\' :: before, ?_, ?_⟩
    · by_cases hb : c = '\\'
      · simp [Unescaped, hb]
        omega
      · simp [Unescaped, hb]
    · simp only [escapeChar, hc, ↓reduceIte, cons_append, nil_append, cutQuote, hodd]
      cases cutQuote (c :: '\\' :: before) tail <;> simp
  · have hb : c ≠ '\\' := fun hb => hc (.inl hb)
    have hq : c ≠ '"' := fun hq => hc (.inr (.inl hq))
    refine ⟨c :: before, by simp [Unescaped, hb], ?_⟩
    rw [escapeChar, if_neg hc]
    simp [cutQuote, hq]

theorem cutQuote_escape (before : Text) (h : Unescaped before) (t tail : Text) :
    ∃ passed, Unescaped passed ∧
      cutQuote before (escape t ++ tail) = (cutQuote passed tail).map fun (a, b) => (escape t ++ a, b) := by
  induction t generalizing before with
  | nil => exact ⟨before, h, by simp [escape]⟩
  | cons c t ih =>
    obtain ⟨middle, hm, hcut⟩ := cutQuote_escapeChar h c (escape t ++ tail)
    obtain ⟨passed, hp, hrest⟩ := ih middle hm
    refine ⟨passed, hp, ?_⟩
    rw [escape_cons, List.append_assoc, hcut, hrest]
    cases cutQuote passed tail <;> simp

theorem cutQuote_escape_none (t : Text) : cutQuote [] (escape t) = none := by
  obtain ⟨passed, -, h⟩ := cutQuote_escape [] rfl t []
  rw [append_nil] at h
  exact h

theorem cutQuote_escape_close (t tail : Text) :
    cutQuote [] (escape t ++ '"' :: tail) = some (escape t, tail) := by
  obtain ⟨passed, hp, h⟩ := cutQuote_escape [] rfl t ('"' :: tail)
  unfold Unescaped at hp
  simp [h, cutQuote, hp]

theorem splitOn_escape (t : Text) :
    (escape t).splitOn '\n' = (t.splitOn '\n').map escape := by
  induction t with
  | nil => rfl
  | cons c t ih =>
    obtain ⟨piece, more, hp⟩ := exists_cons_of_ne_nil (splitOn_ne_nil '\n' t)
    rw [hp, map_cons] at ih
    by_cases hn : c = '\n'
    · subst hn
      have hnil : escape [] = [] := rfl
      simp [escape_cons, escapeChar, splitOn_cons_eq_if_modifyHead, hp, ih, hnil]
    · have hchar : (escapeChar c).splitOn '\n' = [] ++ [escapeChar c] := by
        refine splitOn_eq_singleton fun hm => ?_
        unfold escapeChar at hm
        split at hm <;> grind
      rw [splitOn_cons_of_ne hn hp, escape_cons, splitOn_append hchar ih]
      rfl

theorem quotable_escape (t : Text) : Quotable (escape t) := by
  obtain ⟨init, last, hp⟩ := (eq_nil_or_concat (t.splitOn '\n')).resolve_left
    (splitOn_ne_nil _ t)
  refine ⟨init.map escape, escape last, by simp [splitOn_escape, hp], fun l hl => ?_,
    cutQuote_escape_close last⟩
  obtain ⟨k, -, rfl⟩ := mem_map.mp hl
  exact cutQuote_escape_none k

theorem parse_escapeChar (c : Char) (t : Text) :
    parse (escapeChar c ++ t) = (parse t).map (consLiteral c) := by
  by_cases hc : c = '\\' ∨ c = '"' ∨ c = '$' ∨ c = '`'
  · have he : isEscapable c = true := by
      rcases hc with rfl | rfl | rfl | rfl <;> decide
    simp [escapeChar, hc, parse, he]
  · simp only [not_or] at hc
    simp [escapeChar, hc, parse]

theorem parse_escape (t : Text) : parse (escape t) = .ok (if t = [] then [] else [.literal t]) := by
  induction t with
  | nil => simp [escape, parse]
  | cons c t ih =>
    rw [escape_cons, parse_escapeChar, ih]
    by_cases ht : t = []
    · simp [ht, Except.map, consLiteral]
    · simp [ht, Except.map, consLiteral]

theorem getLast?_escapeChar (c : Char) : (escapeChar c).getLast? = some c := by
  unfold escapeChar
  split <;> rfl

theorem head?_of_escape {t : Text} (h : (escape t).head? = some '\n') : t.head? = some '\n' := by
  cases t with
  | nil => cases h
  | cons c t =>
    rw [escape_cons, escapeChar] at h
    split at h
    · cases h
    · exact h

theorem not_crlf_escape {t : Text} (h : ¬ ['\r', '\n'] <:+: t) : ¬ ['\r', '\n'] <:+: escape t := by
  induction t with
  | nil => exact h
  | cons c t ih =>
    rw [infix_cons_iff, not_or] at h
    rw [escape_cons]
    refine not_crlf_append ?_ (ih h.2) fun hlast hhead => h.1 ?_
    · unfold escapeChar
      split <;> simp [infix_cons_iff]
    · rw [getLast?_escapeChar] at hlast
      obtain ⟨tail, ht⟩ := head?_eq_some_iff.mp (head?_of_escape hhead)
      rw [Option.some.inj hlast, ht]
      exact ⟨tail, rfl⟩

/-! ## A prompt in a source text -/

def source (t : Text) : Text :=
  unlines ["workflow w \x7b", "  prompt \"" ++ escape t ++ "\"", "\x7d"]

theorem lines_source {t ending : Text} (h : ¬ ['\r', '\n'] <:+: t) (hending : ending = [] ∨ ending = ['\n']) :
    (source t ++ ending).lines =
      ["workflow w \x7b".toList] ++ (promptLines "  " (escape t) ++ ["\x7d".toList]) := by
  have hsource : source t ++ ending =
      "workflow w \x7b\n" ++ (("  prompt \"" ++ escape t ++ "\"" ++ ['\n']) ++ (['}'] ++ ending)) := by
    simp [source, unlines, intercalate_cons_cons]
  have hcrlf : ¬ ['\r', '\n'] <:+: "  prompt \"" ++ escape t ++ "\"" ++ ['\n'] := by
    refine not_crlf_append (not_crlf_prompt "  " (by decide) (not_crlf_escape h)) ?_ fun hq => ?_
    · simp [infix_cons_iff]
    · rw [getLast?_append_of_ne_nil _ (by decide)] at hq
      cases hq
  have hlast : lines (['}'] ++ ending) = [['}']] := by
    rcases hending with rfl | rfl <;> rfl
  rw [hsource, lines_append rfl, lines_append getLast?_concat,
    lines_eq_splitOn hcrlf, hlast]
  rfl

end Prompt

/-- Whatever a text holds, it survives as a prompt once its special characters are escaped: its lines are
read up to the right quote, and decoding gives it back as one literal. -/
theorem Module.parse_promptSource (file : Path) {t ending : Text} (h : ¬ ['\r', '\n'] <:+: t)
    (hending : ending = [] ∨ ending = ['\n']) :
    Module.parse file (source t ++ ending) =
      .ok { Module.empty file with
        workflows := [⟨"w", [], [.prompt (escape t) ⟨2, 3⟩], ⟨1, 1⟩⟩] } ∧
    ∃ segments, Prompt.parse (Prompt.escape t) = .ok segments ∧ Prompt.decoded segments = t ∧
      segments = if t = [] then [] else [.literal t] := by
  constructor
  · have hprompt := steps_promptLines (start file) ⟨"w", [], false, 1⟩ [] 2 "  "
      (by simp) (quotable_escape t)
    have hopen : (start file).steps 1 ["workflow w \x7b".toList] =
        .ok ((start file).inBlock (.workflow ⟨"w", [], false, 1⟩ [])) := by
      have hw : isIdentifier "w" = true := by decide
      exact steps_cons_ok (r := start file) (topLine_declaration _ 1 .workflow hw) []
    have hbody : ((start file).inBlock (.workflow ⟨"w", [], false, 1⟩ [])).steps 2
        (promptLines "  " (escape t) ++ ["\x7d".toList]) =
        .ok ((start file).closeWorkflow ⟨"w", [], false, 1⟩ [.prompt (escape t) ⟨2, 3⟩]) := by
      rw [steps_append, hprompt]
      rfl
    rw [Module.parse, lines_source h hending, steps_append, hopen]
    exact congrArg (· >>= finish) hbody
  · refine ⟨_, parse_escape t, ?_, rfl⟩
    by_cases ht : t = [] <;> simp [ht, decoded]

/-- A quote before the line end and a backslash before the closing quote. -/
theorem Module.parse_promptSource_quote :
    Module.parse "f" "workflow w \x7b\n  prompt \"a\\\"\n\\\\\"\n\x7d\n" =
      .ok { Module.empty "f" with workflows := [⟨"w", [], [.prompt "a\\\"\n\\\\" ⟨2, 3⟩], ⟨1, 1⟩⟩] } ∧
    ∃ segments, Prompt.parse "a\\\"\n\\\\" = .ok segments ∧ Prompt.decoded segments = "a\"\n\\" ∧
      segments = [.literal "a\"\n\\"] := by
  have hreturn : '\r' ∉ ("a\"\n\\" : Text) := by decide
  have hescape : escape "a\"\n\\" = "a\\\"\n\\\\" := by decide
  have hsource : Prompt.source "a\"\n\\" ++ ['\n'] = "workflow w \x7b\n  prompt \"a\\\"\n\\\\\"\n\x7d\n" := by
    decide
  have h := Module.parse_promptSource "f" (t := "a\"\n\\") (fun hin => hreturn (hin.subset (by simp)))
    (.inr rfl)
  rw [hsource, hescape] at h
  exact h

end Runbook
