import Runbook.Proofs.Quoting

/-!
# What a module holds

Every text that the reader keeps from a line says the same when it stands on a line of its own: comments are
comments, commands are no closing braces, shell lines have no keyword, and a prompt can be quoted again.
-/

open List

namespace Runbook

variable {line rule : Text}

open Text (Clean)

/-! ## Forms -/

def Commented (comments : List Text) : Prop := ∀ c ∈ comments, Clean c ∧ isComment c = true

/-- The name of a declaration and the comments above it. -/
def Declared (name : Text) (comments : List Text) : Prop := isIdentifier name = true ∧ Commented comments

def RuleCommand (c : Text) : Prop :=
  Clean c ∧ c ≠ ['}'] ∧ (isComment c = true ∨ afterKeyword "run" c = none)

def ConditionalCommand (c : Text) : Prop := Clean c ∧ isComment c = false ∧ c ≠ "fi".toList

def Step.Canonical : Step → Prop
  | .ensure check args => isReference check.value = true ∧ ∀ a ∈ args, Clean a
  | .run call => isReference call.value = true
  | .prompt text _ => Quotable text
  | .shell command _ => Clean command ∧ (BodyLine.of command = .comment ∨ BodyLine.of command = .shell)
  | .unlessRun check call => isReference check.value = true ∧ isReference call.value = true
  | .unlessShell check commands =>
    isReference check.value = true ∧ (∀ c ∈ commands, ConditionalCommand c.command) ∧
      ∀ c ∈ commands.head?, Reader.conditionalRun [] c.command = none

/-- A module whose declarations are read again as they are written. -/
structure Module.Canonical (m : Module) : Prop where
  imports : ∀ i ∈ m.imports, '\n' ∉ i.path ∧ isIdentifier i.owner = true
  rules : ∀ d ∈ m.rules, Declared d.name d.comments ∧ ∀ c ∈ d.commands, RuleCommand c
  functions : ∀ d ∈ m.functions, Declared d.name d.comments ∧ ∀ c ∈ d.commands, Clean c
  workflows : ∀ w ∈ m.workflows, Declared w.name w.comments ∧ ∀ s ∈ w.steps, s.Canonical

def Block.Canonical : Block → Prop
  | .top => True
  | .rule head commands => Declared head.name head.comments ∧ ∀ c ∈ commands, RuleCommand c
  | .function head commands => Declared head.name head.comments ∧ ∀ c ∈ commands, Clean c
  | .workflow head steps => Declared head.name head.comments ∧ ∀ s ∈ steps, s.Canonical
  | .conditional head steps _ check commands =>
    (Declared head.name head.comments ∧ ∀ s ∈ steps, s.Canonical) ∧ (Step.unlessShell check commands).Canonical
  | .conditionalEnd head steps _ check call =>
    (Declared head.name head.comments ∧ ∀ s ∈ steps, s.Canonical) ∧ (Step.unlessRun check call).Canonical
  | .prompt head steps _ text =>
    (Declared head.name head.comments ∧ ∀ s ∈ steps, s.Canonical) ∧
      ∀ l ∈ text.splitOn '\n', cutQuote [] l = none

structure Reader.Canonical (r : Reader) : Prop where
  module : r.module.Canonical
  comments : Commented r.comments
  block : r.block.Canonical

/-! ## What a line yields -/

theorem mem_of_mem_unquote {t : Text} {c : Char} (h : c ∈ unquote t) : c ∈ t := by
  have hwith {quote : Char} {u : Text} (hu : unquoteWith quote t = some u) : ∀ d ∈ u, d ∈ t := by
    unfold unquoteWith at hu
    split at hu
    · split at hu
      · cases hu
        exact fun d hd => mem_cons_of_mem _ (dropLast_subset _ hd)
      · cases hu
    · cases hu
  unfold unquote at h
  cases hd : unquoteWith '"' t with
  | some u =>
    rw [hd] at h
    exact hwith hd c h
  | none =>
    rw [hd, Option.none_or] at h
    cases hs : unquoteWith '\'' t with
    | some u =>
      rw [hs] at h
      exact hwith hs c h
    | none =>
      rw [hs] at h
      exact h

theorem importParts_spec {rest path owner : Text} (h : importParts rest = some (path, owner)) :
    (∀ c ∈ path, c ∈ rest) ∧ isIdentifier owner = true := by
  simp only [importParts, Option.bind_eq_bind, Option.bind_eq_some_iff] at h
  obtain ⟨⟨head, own⟩, hcut, before, has, last, -, h⟩ := h
  split at h
  · rename_i hif
    cases h
    obtain ⟨d, -, rfl⟩ := Text.eq_of_cutAtLast hcut
    refine ⟨fun c hc => ?_, hif.2.2⟩
    have hbefore : c ∈ before := (Text.isInfix_trim before).subset (mem_of_mem_unquote hc)
    have hhead : c ∈ head.trimEnd := by
      rw [← isSuffixOf?_eq_some_iff_append_eq.mp has]
      exact mem_append_left _ hbefore
    exact mem_append_left _ ((Text.isPrefix_trimEnd head).subset hhead)
  · cases h

theorem isIdentifier_of_declaredName {keyword name : Text} {parens : Bool}
    (h : declaredName keyword parens line = some name) : isIdentifier name = true := by
  simp only [declaredName, Option.bind_eq_bind, Option.bind_eq_some_iff] at h
  obtain ⟨rest, -, head, -, h⟩ := h
  obtain ⟨hname, h⟩ := Option.ite_none_right_eq_some.mp h
  exact Option.some.inj h ▸ hname

theorem isReference_of_conditionalRule (h : conditionalRule line = some rule) : isReference rule = true := by
  simp only [conditionalRule, Option.bind_eq_bind, Option.bind_eq_some_iff] at h
  obtain ⟨_, -, _, -, _, -, _, -, _, -, _, -, h⟩ := h
  split at h
  · rename_i hif
    exact Option.some.inj h ▸ hif.2.2.1
  · cases h

theorem clean_of_ensureParts {body args : Text} (hbody : '\n' ∉ body) (h : ensureParts body = (rule, some args))
    : Clean args := by
  unfold ensureParts at h
  split at h
  · rename_i rule' args' hcut
    obtain ⟨c, -, rfl⟩ := Text.eq_of_cutAt hcut
    obtain ⟨-, h⟩ := Prod.mk.inj h
    split at h
    · cases h
    · rename_i hargs
      cases h
      exact .of_trim (fun hn => hbody (by simp [hn])) hargs
  · cases h

theorem conditionalRule_of_bodyLine (h : BodyLine.of line = .conditional rule) :
    conditionalRule line = some rule := by
  unfold BodyLine.of at h
  repeat' split at h
  all_goals cases h
  assumption

theorem afterKeyword_of_bodyLine {body : Text} (h : BodyLine.of line = .ensure body) :
    afterKeyword "ensure" line = some body := by
  unfold BodyLine.of at h
  repeat' split at h
  all_goals cases h
  assumption

theorem ne_nil_of_bodyLine {b : BodyLine} (h : BodyLine.of line = b) (hb : b ≠ .blank) : line ≠ [] := by
  rintro rfl
  exact hb h.symm

theorem afterKeyword_of_topLine {rest : Text} (h : TopLine.of line = .importing rest) :
    afterKeyword "import" line = some rest := by
  unfold TopLine.of at h
  repeat' split at h
  all_goals cases h
  assumption

theorem comment_of_topLine (h : TopLine.of line = .comment) : line ≠ [] ∧ isComment line = true := by
  unfold TopLine.of at h
  repeat' split at h
  all_goals cases h
  constructor <;> assumption

theorem forall_mem_concat {α : Type} {P : α → Prop} {xs : List α} {y : α} (hxs : ∀ x ∈ xs, P x) (hy : P y) :
    ∀ x ∈ xs ++ [y], P x :=
  forall_mem_append.mpr ⟨hxs, forall_mem_singleton.mpr hy⟩

/-! ## Reading keeps the forms -/

namespace Reader

variable {head : Heading} {steps : List Step} {text : Text}
variable {r r' : Reader} {line : Nat} {raw : Text}

theorem Canonical.inBlock (h : r.Canonical) {b : Block} (hb : b.Canonical) : (r.inBlock b).Canonical :=
  ⟨h.module, h.comments, hb⟩

theorem Canonical.push (h : r.Canonical) {s : Step} (hb : (Block.workflow head steps).Canonical)
    (hs : s.Canonical) : (r.inBlock (.workflow head (steps ++ [s]))).Canonical :=
  h.inBlock ⟨hb.1, forall_mem_concat hb.2 hs⟩

theorem openBlock_canonical {comments : List Text} {decl : Text} {exported : Bool} {b : Block}
    (hc : Commented comments) (h : openBlock line comments text exported decl = .ok b) : b.Canonical := by
  simp only [openBlock] at h
  split at h
  · split at h
    · rename_i name hname
      cases h
      exact ⟨⟨isIdentifier_of_declaredName hname, hc⟩, by simp⟩
    · cases h
  · split at h
    · split at h
      · rename_i name hname
        split at h
        · cases h
        · cases h
          exact ⟨⟨isIdentifier_of_declaredName hname, hc⟩, by simp⟩
      · cases h
    · split at h
      · split at h
        · rename_i name hname
          cases h
          exact ⟨⟨isIdentifier_of_declaredName hname, hc⟩, by simp⟩
        · cases h
      · cases h

theorem topLine_canonical (h : r.Canonical) (hraw : '\n' ∉ raw) (hr : r.topLine line raw = .ok r') :
    r'.Canonical := by
  simp only [topLine] at hr
  split at hr
  · cases hr
    exact h
  · split at hr
    · cases hr
      exact ⟨h.module, by simp [Commented], h.block⟩
    · rename_i hof
      cases hr
      obtain ⟨hne, hc⟩ := comment_of_topLine hof
      exact ⟨h.module, forall_mem_concat h.comments ⟨.of_trim hraw hne, hc⟩, h.block⟩
    · rename_i rest hof
      split at hr
      · rename_i path owner hparts
        cases hr
        obtain ⟨hmem, howner⟩ := importParts_spec hparts
        have htrim : '\n' ∉ raw.trim := fun hn => hraw ((Text.isInfix_trim raw).subset hn)
        have hrest := clean_of_afterKeyword htrim (afterKeyword_of_topLine hof)
        have himport : '\n' ∉ path ∧ isIdentifier owner = true :=
          ⟨fun hn => hrest.lf_not_mem (hmem _ hn), howner⟩
        exact ⟨{ h.module with imports := forall_mem_concat h.module.imports himport }, by simp [Commented],
          h.block⟩
      · cases hr
    · obtain ⟨b, hb, rfl⟩ := of_map_ok hr
      exact ⟨h.module, by simp [Commented], openBlock_canonical h.comments hb⟩

theorem ruleLine_canonical {commands : List Text} (h : r.Canonical) (hb : (Block.rule head commands).Canonical)
    (hraw : '\n' ∉ raw) (hr : r.ruleLine head commands line raw = .ok r') : r'.Canonical := by
  simp only [ruleLine] at hr
  split at hr
  · cases hr
    exact h
  · rename_i hne
    split at hr
    · cases hr
      exact ⟨{ h.module with rules := forall_mem_concat h.module.rules hb }, h.comments, trivial⟩
    · rename_i hbrace
      split at hr
      · cases hr
      · rename_i hrun
        cases hr
        refine h.inBlock ⟨hb.1, forall_mem_concat hb.2 ⟨.of_trim hraw hne, hbrace, ?_⟩⟩
        by_cases hc : isComment raw.trim = true
        · exact .inl hc
        · exact .inr (by simpa [hc] using hrun)

theorem functionLine_canonical {commands : List Text} (h : r.Canonical)
    (hb : (Block.function head commands).Canonical) (hraw : '\n' ∉ raw) :
    (r.functionLine head commands raw).Canonical := by
  simp only [functionLine]
  split
  · exact h
  · rename_i hne
    split
    · exact ⟨{ h.module with functions := forall_mem_concat h.module.functions hb }, h.comments, trivial⟩
    · refine h.inBlock ⟨hb.1, forall_mem_concat hb.2 ?_⟩
      have hclean := Clean.of_trim hraw hne
      split
      · exact hclean
      · cases hrun : afterKeyword "run" raw.trim with
        | none => exact hclean
        | some command => exact clean_of_afterKeyword hclean.lf_not_mem hrun

theorem promptStep_canonical {loc : Location} {rest : Text} (h : r.Canonical)
    (hb : (Block.workflow head steps).Canonical) (htext : Quotable text)
    (hr : r.promptStep head steps loc text line raw rest = .ok r') : r'.Canonical := by
  simp only [promptStep] at hr
  split at hr
  · cases hr
    exact h.push hb htext
  · cases hr

theorem openPrompt_canonical (h : r.Canonical) (hb : (Block.workflow head steps).Canonical) (hraw : '\n' ∉ raw)
    (hr : r.openPrompt head steps line raw = .ok r') : r'.Canonical := by
  simp only [openPrompt] at hr
  split at hr
  · rename_i rest hrest
    have hlf : '\n' ∉ rest := by
      intro hn
      have hafter := (Text.trimStart_suffix _).subset (hrest ▸ mem_cons_of_mem '"' hn)
      cases hcut : Text.cut "prompt" raw with
      | none =>
        rw [hcut] at hafter
        exact hraw hafter
      | some cut =>
        rw [hcut, Option.getD_some] at hafter
        rw [Text.eq_of_cut hcut] at hraw
        exact hraw (by simp [hafter])
    split at hr
    · rename_i text tail hcut
      exact promptStep_canonical h hb (quotable_of_cutQuote hlf hcut) hr
    · rename_i hcut
      cases hr
      exact h.inBlock ⟨hb, by simpa [splitOn_eq_singleton hlf] using hcut⟩
  · cases hr

theorem promptLine_canonical {loc : Location} (h : r.Canonical)
    (hb : (Block.prompt head steps loc text).Canonical) (hraw : '\n' ∉ raw)
    (hr : r.promptLine head steps loc text line raw = .ok r') : r'.Canonical := by
  simp only [promptLine] at hr
  split at hr
  · rename_i more tail hcut
    exact promptStep_canonical h hb.1 (quotable_append hb.2 hraw hcut) hr
  · rename_i hcut
    cases hr
    refine h.inBlock ⟨hb.1, ?_⟩
    rw [splitOn_append_cons_self, splitOn_eq_singleton hraw]
    exact forall_mem_concat hb.2 hcut

theorem workflowLine_canonical (h : r.Canonical) (hb : (Block.workflow head steps).Canonical)
    (hraw : '\n' ∉ raw) (hr : r.workflowLine head steps line raw = .ok r') : r'.Canonical := by
  simp only [workflowLine] at hr
  split at hr
  · cases hr
    exact h
  · cases hr
    exact ⟨{ h.module with workflows := forall_mem_concat h.module.workflows hb }, h.comments, trivial⟩
  · rename_i hof
    cases hr
    exact h.push hb ⟨.of_trim hraw (ne_nil_of_bodyLine hof (by simp)), .inl hof⟩
  · rename_i hof
    cases hr
    exact h.push hb ⟨.of_trim hraw (ne_nil_of_bodyLine hof (by simp)), .inr hof⟩
  · rename_i rule hof
    cases hr
    have hrule := isReference_of_conditionalRule (conditionalRule_of_bodyLine hof)
    exact h.inBlock ⟨hb, hrule, by simp, by simp⟩
  · exact openPrompt_canonical h hb hraw hr
  · rename_i body hof
    split at hr
    · rename_i hrule
      cases hr
      refine h.push hb ⟨hrule, fun a ha => ?_⟩
      have htrim : '\n' ∉ raw.trim := fun hn => hraw ((Text.isInfix_trim raw).subset hn)
      have hbody := clean_of_afterKeyword htrim (afterKeyword_of_bodyLine hof)
      exact clean_of_ensureParts hbody.lf_not_mem (Prod.ext rfl ha)
    · cases hr
  · split at hr
    · rename_i htarget
      cases hr
      exact h.push hb htarget
    · cases hr

theorem isReference_of_conditionalRun {commands : List ShellLine} {target : Text}
    (h : conditionalRun commands text = some target) : isReference target = true := by
  unfold conditionalRun at h
  split at h
  · exact (Option.filter_eq_some_iff.mp h).2
  · cases h

theorem conditionalLine_canonical {start : Nat} {check : Reference} {commands : List ShellLine}
    (h : r.Canonical) (hb : (Block.conditional head steps start check commands).Canonical) (hraw : '\n' ∉ raw) :
    (r.conditionalLine head steps start check commands line raw).Canonical := by
  simp only [conditionalLine]
  split
  · exact h
  · rename_i hline
    split
    · exact h.push hb.1 hb.2
    · split
      · rename_i target hrun
        exact h.inBlock ⟨hb.1, hb.2.1, isReference_of_conditionalRun hrun⟩
      · rename_i hfi target hrun
        have hcommand : ConditionalCommand raw.trim :=
          ⟨.of_trim hraw fun he => hline (.inl he), by simpa using fun hc => hline (.inr hc), hfi⟩
        refine h.inBlock ⟨hb.1, hb.2.1, forall_mem_concat hb.2.2.1 hcommand, fun c hc => ?_⟩
        cases commands with
        | nil =>
          cases hc
          exact hrun
        | cons first more => exact hb.2.2.2 c hc

theorem conditionalEndLine_canonical {start : Nat} {check call : Reference} (h : r.Canonical)
    (hb : (Block.conditionalEnd head steps start check call).Canonical)
    (hr : r.conditionalEndLine head steps check call line raw = .ok r') : r'.Canonical := by
  simp only [conditionalEndLine] at hr
  split at hr
  · cases hr
    exact h
  · split at hr
    · cases hr
      exact h.push hb.1 hb.2
    · cases hr

theorem step_canonical (h : r.Canonical) (hraw : '\n' ∉ raw) (hr : r.step line raw = .ok r') :
    r'.Canonical := by
  have hb := h.block
  simp only [step] at hr
  cases hblock : r.block with
  | top =>
    rw [hblock] at hr
    exact topLine_canonical h hraw hr
  | rule head commands =>
    rw [hblock] at hr hb
    exact ruleLine_canonical h hb hraw hr
  | function head commands =>
    rw [hblock] at hr hb
    cases hr
    exact functionLine_canonical h hb hraw
  | workflow head steps =>
    rw [hblock] at hr hb
    exact workflowLine_canonical h hb hraw hr
  | conditional head steps start check commands =>
    rw [hblock] at hr hb
    cases hr
    exact conditionalLine_canonical h hb hraw
  | conditionalEnd head steps start check call =>
    rw [hblock] at hr hb
    exact conditionalEndLine_canonical h hb hr
  | prompt head steps loc text =>
    rw [hblock] at hr hb
    exact promptLine_canonical h hb hraw hr

theorem steps_canonical {raws : List Text} (h : r.Canonical) (hraws : ∀ raw ∈ raws, '\n' ∉ raw)
    (hr : r.steps line raws = .ok r') : r'.Canonical := by
  induction raws generalizing r line with
  | nil =>
    cases hr
    exact h
  | cons raw rest ih =>
    obtain ⟨next, hn, hr⟩ := of_bind_ok hr
    exact ih (step_canonical h (hraws raw (by simp)) hn) (fun k hk => hraws k (by simp [hk])) hr

end Reader

theorem Module.canonical_of_parse {file : Path} {source : Text} {m : Module}
    (h : Module.parse file source = .ok m) : m.Canonical := by
  obtain ⟨r, hr, hf⟩ := of_bind_ok h
  have hstart : (Reader.start file).Canonical :=
    ⟨⟨by simp [Reader.start, Module.empty], by simp [Reader.start, Module.empty],
      by simp [Reader.start, Module.empty], by simp [Reader.start, Module.empty]⟩,
      by simp [Commented, Reader.start], trivial⟩
  obtain ⟨-, rfl⟩ := Reader.of_finish_ok hf
  exact (Reader.steps_canonical hstart (fun _ => Text.lf_not_mem_of_mem_lines) hr).module

end Runbook
