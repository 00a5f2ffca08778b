import Runbook.Proofs.Reader
import Runbook.Proofs.Reference

/-!
# Written lines

How each kind of line is written so that the reader takes it for what it is: a keyword, one blank and
what belongs to it.
-/

open List

namespace Runbook
open BodyLine Text

variable {line owner rule : Text} {c : Char}

/-- A text as the reader keeps it from one line: not empty, and without blanks at its ends. -/
structure Text.Clean (t : Text) : Prop where
  ne_nil : t ≠ []
  trim_eq : t.trim = t
  lf_not_mem : '\n' ∉ t

namespace Text

variable {t : Text}

theorem Clean.of_trim {raw : Text} (hraw : '\n' ∉ raw) (h : raw.trim ≠ []) : Clean raw.trim :=
  ⟨h, trim_trim raw, fun hn => hraw ((isInfix_trim raw).subset hn)⟩

theorem Clean.of_ends {c d : Char} (hhead : t.head? = some c) (hc : isBlank c = false)
    (hlast : t.getLast? = some d) (hd : isBlank d = false) (hlf : '\n' ∉ t) : Clean t := by
  have hne : t ≠ [] := by
    rintro rfl
    cases hhead
  refine ⟨hne, trim_eq_self_iff.mpr ⟨fun e he => ?_, fun e he => ?_⟩, hlf⟩
  · rwa [← Option.some.inj (hhead.symm.trans he)]
  · rwa [← Option.some.inj (hlast.symm.trans he)]

theorem Clean.of_not_blank (ht : t ≠ []) (h : ∀ c ∈ t, isBlank c = false) : Clean t := by
  refine ⟨ht, trim_eq_self_iff.mpr ⟨fun c hc => ?_, fun c hc => ?_⟩, fun hn => ?_⟩
  · exact h c (mem_of_head? hc)
  · exact h c (mem_of_getLast? hc)
  · exact absurd (h _ hn) (by decide)

theorem Clean.of_word (ht : t ≠ []) (h : t.all (!isBlank ·) = true) : Clean t :=
  .of_not_blank ht (by simpa using h)

theorem Clean.trimEnd_eq (h : Clean t) : t.trimEnd = t := by
  have hl := getLast?_eq_some_getLast h.ne_nil
  exact trimEnd_eq_self hl ((trim_eq_self_iff.mp h.trim_eq).2 _ hl)

theorem Clean.of_isReference (h : isReference t = true) : Clean t :=
  .of_not_blank (ne_nil_of_isReference h) (isBlank_of_isReference h)

theorem Clean.of_isIdentifier (h : isIdentifier t = true) : Clean t :=
  .of_not_blank (ne_nil_of_isIdentifier h) fun c hc => isBlank_of_isNameChar (isNameChar_of_isIdentifier h c hc)

theorem Clean.keyword {word : Text} (hword : Clean word) (ht : Clean t) : Clean (word ++ ' ' :: t) := by
  refine ⟨by simp, trim_eq_self_iff.mpr ⟨fun c hc => ?_, fun c hc => ?_⟩, ?_⟩
  · rw [head?_append_of_ne_nil _ hword.ne_nil] at hc
    exact (trim_eq_self_iff.mp hword.trim_eq).1 c hc
  · rw [getLast?_append_of_ne_nil _ (by simp), getLast?_cons_of_ne_nil ht.ne_nil] at hc
    exact (trim_eq_self_iff.mp ht.trim_eq).2 c hc
  · simp [hword.lf_not_mem, ht.lf_not_mem]

theorem Clean.run (h : Clean t) : Clean ("run" ++ ' ' :: t) :=
  .keyword (.of_word (by decide) (by decide)) h

theorem Clean.ensure (h : Clean t) : Clean ("ensure" ++ ' ' :: t) :=
  .keyword (.of_word (by decide) (by decide)) h

theorem Clean.heading {name : Text} (h : isIdentifier name = true) : Clean (name ++ [' ', '{']) :=
  .keyword (.of_isIdentifier h) (.of_word (by simp) (by decide))

end Text

theorem afterKeyword_append {t : Text} (hne : t ≠ []) (htrim : t.trim = t) (keyword : Text) :
    afterKeyword keyword (keyword ++ ' ' :: t) = some t := by
  have hcut : keyword.isPrefixOf? (keyword ++ ' ' :: t) = some (' ' :: t) :=
    isPrefixOf?_eq_some_iff_append_eq.mpr rfl
  have hblank : isBlank ' ' = true := by decide
  simp [afterKeyword, hcut, hblank, htrim, hne]

theorem afterKeyword_of_head?_ne (keyword : Text) {k : Char} (hk : keyword.head? = some k)
    (hc : line.head? = some c) (h : k ≠ c) : afterKeyword keyword line = none := by
  obtain ⟨_, rfl⟩ := head?_eq_some_iff.mp hk
  obtain ⟨_, rfl⟩ := head?_eq_some_iff.mp hc
  simp [afterKeyword, List.isPrefixOf?, h]

theorem clean_of_afterKeyword {keyword t : Text} (hline : '\n' ∉ line) (h : afterKeyword keyword line = some t)
    : Clean t := by
  unfold afterKeyword at h
  split at h
  · rename_i c rest hcut
    have hrest : '\n' ∉ rest := fun hn => hline (by
      rw [← isPrefixOf?_eq_some_iff_append_eq.mp hcut]
      simp [hn])
    split at h
    · rename_i hc
      cases h
      exact .of_trim hrest hc.2
    · cases h
  · cases h

/-! ## Lines outside all blocks -/

theorem importParts_append (path : Text) (h : isIdentifier owner = true) :
    importParts ('"' :: (path ++ ("\" as" ++ ' ' :: owner))) = some (path, owner) := by
  have hcut : cutAtLast isBlank ('"' :: (path ++ ("\" as" ++ ' ' :: owner))) =
      some ('"' :: (path ++ "\" as"), owner) := by
    have happ := cutAtLast_append (p := isBlank) (c := ' ') (by decide)
      (fun d hd => isBlank_of_isNameChar (isNameChar_of_isIdentifier h d hd)) ('"' :: (path ++ "\" as"))
    rwa [cons_append, List.append_assoc] at happ
  have htrim : trimEnd ('"' :: (path ++ "\" as")) = '"' :: (path ++ "\" as") :=
    trimEnd_eq_self (c := 's') (by simp [getLast?_cons]) (by decide)
  have has : List.isSuffixOf? ['a', 's'] ('"' :: (path ++ "\" as")) = some ('"' :: path ++ ['"', ' ']) :=
    isSuffixOf?_eq_some_iff_append_eq.mpr (by simp)
  have hpath : trim ('"' :: path ++ ['"', ' ']) = '"' :: (path ++ ['"']) := by
    have happ : '"' :: path ++ ['"', ' '] = ('"' :: (path ++ ['"'])) ++ [' '] := by simp
    have hend : trimEnd ('"' :: (path ++ ['"'])) = '"' :: (path ++ ['"']) :=
      trimEnd_eq_self (c := '"') (by simp [getLast?_cons]) (by decide)
    rw [trim, cons_append, trimStart_cons (by decide), ← cons_append, happ,
      trimEnd_append_blank (forall_mem_singleton.mpr (by decide)), hend]
  have hlast : ('"' :: path ++ ['"', ' ']).getLast? = some ' ' := by simp [getLast?_cons]
  have hquote : unquote ('"' :: (path ++ ['"'])) = path := by
    simp [unquote, unquoteWith]
  have hblank : isBlank ' ' = true := by decide
  simp only [importParts, hcut, htrim, has, hlast, hpath, hquote, Option.bind_eq_bind, Option.bind_some, h,
    hblank]
  simp

theorem clean_import {path : Text} (hpath : '\n' ∉ path) (h : isIdentifier owner = true) :
    Clean ('"' :: (path ++ ("\" as" ++ ' ' :: owner))) := by
  have hword : Clean ('"' :: (path ++ "\" as")) :=
    .of_ends (c := '"') rfl (by decide) (d := 's') (by simp [getLast?_cons]) (by decide) (by simp [hpath])
  rw [← List.append_assoc, ← cons_append]
  exact hword.keyword (.of_isIdentifier h)

def importLine (path owner : Text) : Text := "import" ++ ' ' :: ('"' :: (path ++ ("\" as" ++ ' ' :: owner)))

theorem clean_importLine {path : Text} (hpath : '\n' ∉ path) (h : isIdentifier owner = true) :
    Clean (importLine path owner) :=
  .keyword (.of_word (by decide) (by decide)) (clean_import hpath h)

theorem declaredName_append {name : Text} (h : isIdentifier name = true) (keyword : Text) (parens : Bool) :
    declaredName keyword parens (keyword ++ ' ' :: (name ++ [' ', '{'])) = some name := by
  have hname := Clean.of_isIdentifier h
  have hclean := Clean.heading h
  have hbrace : List.isSuffixOf? ['{'] (name ++ [' ', '{']) = some (name ++ [' ']) :=
    isSuffixOf?_eq_some_iff_append_eq.mpr (by simp)
  have htrim : trimEnd (name ++ [' ']) = name := by
    rw [trimEnd_append_blank (forall_mem_singleton.mpr (by decide)), hname.trimEnd_eq]
  have hparens : List.isSuffixOf? ['(', ')'] name = none := by
    cases hs : List.isSuffixOf? ['(', ')'] name with
    | none => rfl
    | some head =>
      have hmem : ')' ∈ name := by
        rw [← isSuffixOf?_eq_some_iff_append_eq.mp hs]
        simp
      exact absurd (isNameChar_of_isIdentifier h ')' hmem) (by decide)
  simp only [declaredName, afterKeyword_append hclean.ne_nil hclean.trim_eq, hbrace, htrim, hparens,
    Option.bind_eq_bind, Option.bind_some, Option.getD_none]
  simp [h]

/-- The block of a declaration that has just been opened. -/
def Block.opened (head : Heading) : Kind → Block
  | .rule => .rule head []
  | .function => .function head []
  | .workflow => .workflow head []

theorem Kind.clean_text (kind : Kind) : Clean kind.text := by
  cases kind <;> exact .of_word (by decide) (by decide)

theorem Kind.firstWord_text (kind : Kind) (t : Text) : firstWord (kind.text ++ ' ' :: t) = kind.text := by
  have hall : kind.text.all (!isBlank ·) = true := by cases kind <;> decide
  have hblank := all_eq_true.mp hall
  obtain ⟨c, rest, hc⟩ := exists_cons_of_ne_nil kind.clean_text.ne_nil
  have hstart : trimStart (kind.text ++ ' ' :: t) = kind.text ++ ' ' :: t := by
    rw [hc]
    exact trimStart_cons (by simpa using hblank c (by simp [hc])) _
  have hspace : (!isBlank ' ') = false := by decide
  rw [firstWord, hstart, takeWhile_append_of_pos hblank, takeWhile_cons, hspace]
  simp

theorem TopLine.of_declaration (kind : Kind) (t : Text) :
    TopLine.of (kind.text ++ ' ' :: t) = .declaration false (kind.text ++ ' ' :: t) := by
  obtain ⟨c, hc, hi, he, hn⟩ : ∃ c, kind.text.head? = some c ∧ 'i' ≠ c ∧ 'e' ≠ c ∧ c ≠ '#' := by
    cases kind
    exacts [⟨'r', by decide⟩, ⟨'f', by decide⟩, ⟨'w', by decide⟩]
  have hhead : (kind.text ++ ' ' :: t).head? = some c := by
    rw [head?_append_of_ne_nil _ kind.clean_text.ne_nil, hc]
  have himport := afterKeyword_of_head?_ne "import" (by decide) hhead hi
  have hexport := afterKeyword_of_head?_ne "export" (by decide) hhead he
  have hline : kind.text ++ ' ' :: t ≠ [] := by simp
  have hcomment : isComment (kind.text ++ ' ' :: t) = false := by simp [isComment, hhead, hn]
  simp only [TopLine.of, hline, hcomment, himport, hexport, ↓reduceIte, Bool.false_eq_true]

theorem TopLine.of_import {rest : Text} (hhead : line.head? = some 'i')
    (h : afterKeyword "import" line = some rest) : TopLine.of line = .importing rest := by
  obtain ⟨tail, rfl⟩ := head?_eq_some_iff.mp hhead
  rw [TopLine.of, if_neg (by simp), if_neg (by simp [isComment]), h]

namespace Reader

theorem openBlock_declaration (line : Nat) (comments : List Text) (text : Text) (kind : Kind) {name : Text}
    (h : isIdentifier name = true) :
    openBlock line comments text false (kind.text ++ ' ' :: (name ++ [' ', '{'])) =
      .ok (.opened ⟨name, comments, false, line⟩ kind) := by
  have hrule : Kind.function.text ≠ "rule" ∧ Kind.workflow.text ≠ "rule" := by decide
  have hfunction : Kind.workflow.text ≠ "function" := by decide
  unfold openBlock
  rw [kind.firstWord_text]
  dsimp only
  cases kind with
  | rule =>
    have hname : declaredName "rule" false (Kind.rule.text ++ _) = _ := declaredName_append h _ false
    refine (if_pos rfl).trans ?_
    rw [hname]
    rfl
  | function =>
    have hname : declaredName "function" true (Kind.function.text ++ _) = _ := declaredName_append h _ true
    refine (if_neg hrule.1).trans ((if_pos rfl).trans ?_)
    rw [hname]
    rfl
  | workflow =>
    have hname : declaredName "workflow" false (Kind.workflow.text ++ _) = _ := declaredName_append h _ false
    refine (if_neg hrule.2).trans ((if_neg hfunction).trans ((if_pos rfl).trans ?_))
    rw [hname]
    rfl

theorem topLine_declaration (r : Reader) (line : Nat) (kind : Kind) {name : Text}
    (h : isIdentifier name = true) :
    r.topLine line (kind.text ++ ' ' :: (name ++ [' ', '{'])) =
      .ok { r with comments := [], block := .opened ⟨name, r.comments, false, line⟩ kind } := by
  have hclean : Clean (kind.text ++ ' ' :: (name ++ [' ', '{'])) := .keyword kind.clean_text (.heading h)
  have hi : ¬ (line = 1 ∧ (kind.text ++ ' ' :: (name ++ [' ', '{'])).startsWith "#!" = true) := by
    rintro ⟨-, hs⟩
    cases kind <;> cases hs
  simp only [topLine, hclean.trim_eq, TopLine.of_declaration, openBlock_declaration line _ _ kind h]
  rw [if_neg hi]
  rfl

theorem topLine_import (r : Reader) (line : Nat) {path owner : Text} (hpath : '\n' ∉ path)
    (h : isIdentifier owner = true) :
    ∃ loc, r.topLine line (importLine path owner) =
      .ok { r with
        module := { r.module with imports := r.module.imports ++ [⟨path, owner, loc⟩] }
        comments := [] } := by
  have hrest := clean_import hpath h
  have htrim := (clean_importLine hpath h).trim_eq
  have hafter : afterKeyword "import" (importLine path owner) = _ :=
    afterKeyword_append hrest.ne_nil hrest.trim_eq _
  have hhead : (importLine path owner).head? = some 'i' := rfl
  refine ⟨⟨line, keywordCol "import" (importLine path owner)⟩, ?_⟩
  generalize importLine path owner = raw at htrim hafter hhead ⊢
  have hof : TopLine.of raw = .importing _ := TopLine.of_import hhead hafter
  have hi : ¬ (line = 1 ∧ raw.startsWith "#!" = true) := by
    obtain ⟨rest, rfl⟩ := head?_eq_some_iff.mp hhead
    rintro ⟨-, hs⟩
    cases hs
  simp only [topLine, htrim, hof, importParts_append path h]
  rw [if_neg hi]

theorem topLine_comment (r : Reader) {line : Nat} (hline : line ≠ 1) {text : Text} (h : Clean text)
    (hc : isComment text = true) :
    r.topLine line text = .ok { r with comments := r.comments ++ [text] } := by
  simp [topLine, hline, h.trim_eq, TopLine.of, h.ne_nil, hc]

end Reader

/-! ## Lines inside a workflow -/

theorem conditionalRule_of_head? (hc : line.head? = some c) (hi : c ≠ 'i') : conditionalRule line = none := by
  obtain ⟨rest, rfl⟩ := head?_eq_some_iff.mp hc
  simp [conditionalRule, List.isPrefixOf?, hi.symm]

theorem BodyLine.of_head? (hc : line.head? = some c) (hb : c ≠ '}') (hn : c ≠ '#') (hi : c ≠ 'i') :
    of line =
      if (afterKeyword "prompt" line).isSome then .prompt
      else
        match afterKeyword "ensure" line with
        | some body => .ensure body
        | none =>
          match afterKeyword "run" line with
          | some target => .run target
          | none => .shell := by
  have hcond := conditionalRule_of_head? hc hi
  obtain ⟨rest, rfl⟩ := head?_eq_some_iff.mp hc
  rw [of, if_neg (by simp), if_neg (by simp [hb]), if_neg (by simp [isComment, hn])]
  generalize conditionalRule (c :: rest) = rule at hcond ⊢
  subst hcond
  rfl

theorem BodyLine.of_run {target : Text} (h : Clean target) :
    of ("run" ++ ' ' :: target) = .run target := by
  have hhead : List.head? ("run".toList ++ ' ' :: target) = some 'r' := rfl
  have hprompt := afterKeyword_of_head?_ne "prompt" (k := 'p') (by decide) hhead (by decide)
  have hensure := afterKeyword_of_head?_ne "ensure" (k := 'e') (by decide) hhead (by decide)
  rw [of_head? hhead (by decide) (by decide) (by decide), hprompt, hensure,
    afterKeyword_append h.ne_nil h.trim_eq]
  rfl

theorem BodyLine.of_ensure {body : Text} (h : Clean body) :
    of ("ensure" ++ ' ' :: body) = .ensure body := by
  have hhead : List.head? ("ensure".toList ++ ' ' :: body) = some 'e' := rfl
  have hprompt := afterKeyword_of_head?_ne "prompt" (k := 'p') (by decide) hhead (by decide)
  rw [of_head? hhead (by decide) (by decide) (by decide), hprompt,
    afterKeyword_append h.ne_nil h.trim_eq]
  rfl

theorem BodyLine.of_prompt (rest : Text) (hne : rest ≠ []) (htrim : rest.trim = rest) :
    of ("prompt" ++ ' ' :: rest) = .prompt := by
  have hhead : List.head? ("prompt".toList ++ ' ' :: rest) = some 'p' := rfl
  rw [of_head? hhead (by decide) (by decide) (by decide), afterKeyword_append hne htrim]
  rfl

/-- The first line of a conditional as it is written. -/
def conditionalOpening (rule : Text) : Text := "if ! ensure" ++ ' ' :: (rule ++ "; then")

theorem clean_conditionalOpening (h : isReference rule = true) : Clean (conditionalOpening rule) := by
  have hclean := Clean.of_isReference h
  have hrule : Clean (rule ++ "; then") := by
    have hhead := head?_eq_some_head hclean.ne_nil
    refine .of_ends (c := rule.head hclean.ne_nil) ?_ ((trim_eq_self_iff.mp hclean.trim_eq).1 _ hhead)
      (d := 'n') (by simp) (by decide) (by simp [hclean.lf_not_mem])
    rw [head?_append_of_ne_nil _ hclean.ne_nil, hhead]
  exact .keyword (.of_ends (c := 'i') rfl (by decide) (d := 'e') rfl (by decide) (by decide)) hrule

theorem conditionalRule_conditionalOpening (h : isReference rule = true) :
    conditionalRule (conditionalOpening rule) = some rule := by
  have hclean := Clean.of_isReference h
  have hif : List.isPrefixOf? "if".toList (conditionalOpening rule) =
      some (" ! ensure" ++ ' ' :: (rule ++ "; then")) := rfl
  have hbang : List.isPrefixOf? ['!'] (trimStart (" ! ensure" ++ ' ' :: (rule ++ "; then"))) =
      some (" ensure" ++ ' ' :: (rule ++ "; then")) := rfl
  have hensure : List.isPrefixOf? "ensure".toList (trimStart (" ensure" ++ ' ' :: (rule ++ "; then"))) =
      some (' ' :: (rule ++ "; then")) := rfl
  have hstart : trimStart (' ' :: (rule ++ "; then")) = rule ++ "; then" := by
    obtain ⟨c, rest, hc⟩ := exists_cons_of_ne_nil hclean.ne_nil
    have hblank := isBlank_of_isReference h c (by simp [hc])
    rw [hc]
    exact trimStart_cons hblank _
  have hcut : cutAt (· == ';') (rule ++ "; then") = some (rule, " then".toList) := by
    refine cutAt_append (p := (· == ';')) (c := ';') (fun d hd => ?_) rfl _
    rcases isNameChar_of_isReference h d hd with hn | rfl
    · rw [beq_eq_false_iff_ne]
      rintro rfl
      exact absurd hn (by decide)
    · rfl
  have hthen : trim " then" = "then".toList := rfl
  have hblank : isBlank ' ' = true := by decide
  have hfirst : List.head? (" ! ensure".toList ++ ' ' :: (rule ++ "; then")) = some ' ' := rfl
  simp only [conditionalRule, hif, hfirst, hbang, hensure, head?_cons, hstart, hcut, hclean.trimEnd_eq,
    hthen, h, hblank, Option.bind_eq_bind, Option.bind_some, and_self, ↓reduceIte]

theorem BodyLine.of_conditionalOpening (h : isReference rule = true) :
    of (conditionalOpening rule) = .conditional rule := by
  have hrule := conditionalRule_conditionalOpening h
  have hhead : (conditionalOpening rule).head? = some 'i' := rfl
  generalize conditionalOpening rule = line at hrule hhead
  obtain ⟨rest, rfl⟩ := head?_eq_some_iff.mp hhead
  rw [of, if_neg (by simp), if_neg (by simp), if_neg (by simp [isComment]), hrule]

/-- What follows the keyword of an `ensure` as it is written. -/
def ensureBody (rule : Text) : Option Text → Text
  | some args => rule ++ ' ' :: args
  | none => rule

theorem clean_ensureBody {args : Option Text} (h : isReference rule = true) (hargs : ∀ a ∈ args, Clean a) :
    Clean (ensureBody rule args) := by
  cases args with
  | none => exact .of_isReference h
  | some args => exact .keyword (.of_isReference h) (hargs args rfl)

theorem ensureParts_ensureBody {args : Option Text} (h : isReference rule = true) (hargs : ∀ a ∈ args, Clean a)
    : ensureParts (ensureBody rule args) = (rule, args) := by
  have hblank := isBlank_of_isReference h
  cases args with
  | none => simp [ensureParts, ensureBody, cutAt_eq_none hblank]
  | some args =>
    have ha := hargs args rfl
    have hcut := cutAt_append (p := isBlank) (c := ' ') hblank (by decide) args
    simp [ensureParts, ensureBody, hcut, ha.trim_eq, ha.ne_nil]

end Runbook
