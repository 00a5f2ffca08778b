import Runbook.Proofs.Except
import Runbook.Proofs.Reference
import Runbook.Prompt

/-!
# Command substitutions in the here-document of a prompt

The shell reads a here-document in two passes: it joins lines, and then looks for expansions. A prompt
without line joins inside its braces never starts a command substitution there; one with a dollar sign
directly before a line join can.
-/

open List

namespace Runbook.HereDocument

variable {c : Char} {t : Text}

/-! ## What the shell reads -/

/-- The text after the shell has joined its lines: a backslash and the line feed behind it are gone,
unless the backslash is itself escaped. -/
def joinLines : Text → Text
  | [] => []
  | [c] => [c]
  | c :: d :: rest =>
    if c = '\\' ∧ d = '\\' then c :: d :: joinLines rest
    else if c = '\\' ∧ d = '\n' then joinLines rest
    else c :: joinLines (d :: rest)

/-- Two characters that the shell takes together: an escape, or a parameter with a short name. -/
def taken (c d : Char) : Bool :=
  (c = '\\' && (d = '\\' || d = '$' || d = '`')) || (c = '$' && Prompt.isSpecialParameter d)

/-- Reading joined lines from left to right meets a command substitution. -/
def substitutes : Text → Bool
  | [] => false
  | [c] => c = '`'
  | c :: d :: rest =>
    if c = '`' ∨ c = '$' ∧ d = '(' then true
    else if taken c d then substitutes rest
    else substitutes (d :: rest)

/-- A character that starts nothing: neither an escape nor an expansion. -/
def Plain (c : Char) : Prop := c ≠ '\\' ∧ c ≠ '$' ∧ c ≠ '`'

theorem joinLines_cons (hc : c ≠ '\\') (rest : Text) : joinLines (c :: rest) = c :: joinLines rest := by
  cases rest <;> simp [joinLines, hc]

theorem substitutes_cons (hc : Plain c) (rest : Text) : substitutes (c :: rest) = substitutes rest := by
  obtain ⟨h₁, h₂, h₃⟩ := hc
  cases rest <;> simp [substitutes, taken, h₁, h₂, h₃]

theorem joinLines_append_cons (hb : c ≠ '\\') (hn : c ≠ '\n') (t rest : Text) :
    joinLines (t ++ c :: rest) = joinLines t ++ c :: joinLines rest := by
  fun_induction joinLines t with
  | case1 => exact joinLines_cons hb rest
  | case2 d => simp [joinLines, hb, hn, joinLines_cons hb]
  | case3 d e rest' h ih => simpa [joinLines, h] using ih
  | case4 d e rest' h₁ h₂ ih => simpa [joinLines, h₂] using ih
  | case5 d e rest' h₁ h₂ ih => simpa [joinLines, h₁, h₂] using ih

/-- A closing brace is never taken together with the character before it, so reading can be cut behind
it. -/
theorem substitutes_append_brace (t rest : Text) :
    substitutes (t ++ '}' :: rest) = (substitutes (t ++ ['}']) || substitutes rest) := by
  have hp : Plain '}' := by simp [Plain]
  fun_induction substitutes t with
  | case1 => simp [substitutes_cons hp]; simp [substitutes]
  | case2 c =>
    by_cases hc : c = '`'
    · simp [substitutes, hc]
    · have ht : taken c '}' = false := by simp [taken, Prompt.isSpecialParameter]
      simp [substitutes, hc, ht, substitutes_cons hp]
  | case3 c d rest' h => simp [substitutes, h]
  | case4 c d rest' h₁ h₂ ih => simpa [substitutes, h₁, h₂] using ih
  | case5 c d rest' h₁ h₂ ih => simpa [substitutes, h₁, h₂] using ih

/-! ## Pieces that can be read one by one -/

/-- A piece of a here-document that both passes of the shell can be cut behind. -/
structure Closed (piece : Text) : Prop where
  join : ∀ rest, joinLines (piece ++ rest) = joinLines piece ++ joinLines rest
  scan : ∀ rest, substitutes (joinLines piece ++ rest) =
    (substitutes (joinLines piece) || substitutes rest)

theorem Closed.nil : Closed [] := ⟨fun _ => rfl, fun _ => rfl⟩

theorem Closed.append {a b : Text} (ha : Closed a) (hb : Closed b) : Closed (a ++ b) := by
  constructor
  · intro rest
    rw [List.append_assoc, ha.join, hb.join, ha.join, List.append_assoc]
  · intro rest
    rw [ha.join, List.append_assoc, ha.scan, hb.scan, ha.scan, Bool.or_assoc]

theorem Closed.plain (hc : Plain c) : Closed [c] := by
  constructor
  · intro rest
    simp only [joinLines_cons hc.1, joinLines, nil_append, cons_append]
  · intro rest
    simp [joinLines, substitutes_cons hc, substitutes]

theorem Closed.flatMap {α : Type} {f : α → Text} {xs : List α} (h : ∀ x ∈ xs, Closed (f x)) :
    Closed (xs.flatMap f) := by
  induction xs with
  | nil => exact .nil
  | cons x xs ih =>
    exact (h x (by simp)).append (ih fun y hy => h y (by simp [hy]))

theorem substitutes_flatMap {α : Type} {f : α → Text} {xs : List α} (h : ∀ x ∈ xs, Closed (f x)) :
    substitutes (joinLines (xs.flatMap f)) = xs.any fun x => substitutes (joinLines (f x)) := by
  induction xs with
  | nil => rfl
  | cons x xs ih =>
    have hx := h x (by simp)
    rw [flatMap_cons, hx.join, hx.scan, ih fun y hy => h y (by simp [hy]), any_cons]

theorem Closed.braced (inner : Text) : Closed (inner ++ ['}']) := by
  have hj (rest : Text) : joinLines (inner ++ '}' :: rest) = joinLines inner ++ '}' :: joinLines rest :=
    joinLines_append_cons (by decide) (by decide) inner rest
  constructor
  · intro rest
    simp [hj, joinLines]
  · intro rest
    rw [hj]
    simpa [joinLines] using substitutes_append_brace (joinLines inner) rest

theorem closed_quoteChar (c : Char) :
    Closed (Prompt.quoteChar c) ∧ substitutes (joinLines (Prompt.quoteChar c)) = false := by
  unfold Prompt.quoteChar
  split
  · rename_i h
    rcases h with rfl | rfl | rfl
    · exact ⟨⟨fun _ => by simp [joinLines], fun _ => by simp [joinLines, substitutes, taken]⟩, by decide⟩
    · exact ⟨⟨fun _ => by simp [joinLines, joinLines_cons], fun _ => by simp [joinLines, substitutes, taken]⟩,
        by decide⟩
    · exact ⟨⟨fun _ => by simp [joinLines, joinLines_cons], fun _ => by simp [joinLines, substitutes, taken]⟩,
        by decide⟩
  · rename_i h
    have hp : Plain c := by simpa [Plain] using h
    exact ⟨.plain hp, by simp [joinLines, substitutes_cons hp, substitutes]⟩

/-! ## Where a substitution can come from -/

theorem joinLines_sublist (t : Text) : List.Sublist (joinLines t) t := by
  fun_induction joinLines t with
  | case1 => exact .slnil
  | case2 c => exact .refl _
  | case3 c d rest _ ih => exact (ih.cons_cons d).cons_cons c
  | case4 c d rest _ _ ih => exact (ih.cons d).cons c
  | case5 c d rest _ _ ih => exact ih.cons_cons c

theorem mem_or_infix_of_substitutes (h : substitutes t = true) : '`' ∈ t ∨ ['$', '('] <:+: t := by
  fun_induction substitutes t with
  | case1 => cases h
  | case2 c => simpa [eq_comm] using Or.inl h
  | case3 c d rest hc =>
    rcases hc with rfl | ⟨rfl, rfl⟩
    · exact Or.inl (by simp)
    · exact Or.inr (prefix_append ['$', '('] rest).isInfix
  | case4 c d rest _ _ ih =>
    rcases ih h with hm | hi
    · exact Or.inl (by simp [hm])
    · exact Or.inr (infix_cons (infix_cons hi))
  | case5 c d rest _ _ ih =>
    rcases ih h with hm | hi
    · exact Or.inl (mem_cons_of_mem _ hm)
    · exact Or.inr (infix_cons hi)

theorem head_of_joinLines {rest : Text} (h : joinLines t = '(' :: rest) : ['('] <+: t ∨ ['\\', '\n'] <+: t := by
  fun_cases joinLines t with
  | case1 => cases h
  | case2 c =>
    simp only [joinLines, List.cons.injEq] at h
    exact Or.inl (by simp [h.1])
  | case3 c d rest' hc => simp_all [joinLines]
  | case4 c d rest' _ hc => exact Or.inr (by simp [hc])
  | case5 c d rest' h₁ h₂ =>
    simp only [joinLines, h₁, h₂, ↓reduceIte, List.cons.injEq] at h
    exact Or.inl (by simp [h.1])

/-- Joining lines brings a dollar sign and a parenthesis together only across a join that directly
follows the dollar sign. -/
theorem infix_of_infix_joinLines (h : ['$', '('] <:+: joinLines t) :
    ['$', '('] <:+: t ∨ ['$', '\\', '\n'] <:+: t := by
  fun_induction joinLines t with
  | case1 => simp at h
  | case2 c => exact Or.inl h
  | case3 c d rest hc ih =>
    obtain ⟨rfl, rfl⟩ := hc
    simp only [infix_cons_iff, cons_prefix_cons] at h
    rcases h with ⟨h, _⟩ | ⟨h, _⟩ | h
    · cases h
    · cases h
    · exact (ih h).imp (fun h => infix_cons (infix_cons h))
        fun h => infix_cons (infix_cons h)
  | case4 c d rest _ _ ih =>
    exact (ih h).imp (fun h => infix_cons (infix_cons h))
      fun h => infix_cons (infix_cons h)
  | case5 c d rest _ _ ih =>
    rcases infix_cons_iff.mp h with ⟨tail, hp⟩ | hi
    · simp only [cons_append, nil_append, List.cons.injEq] at hp
      obtain ⟨rfl, hp⟩ := hp
      rcases head_of_joinLines hp.symm with hh | hh
      · exact Or.inl ((prefix_cons_inj _).mpr hh).isInfix
      · exact Or.inr ((prefix_cons_inj _).mpr hh).isInfix
    · exact (ih hi).imp infix_cons infix_cons

end Runbook.HereDocument

namespace Runbook.Prompt

variable {t e : Text} {c : Char} {segments : List Segment}

open HereDocument

/-! ## Expansions -/

/-- What follows the dollar sign of an expansion that a prompt may have. -/
inductive Allowed : Text → Prop
  | braced {inner : Text} (backtick : '`' ∉ inner) (substitution : ¬ ['$', '('] <:+: inner) :
      Allowed ('{' :: inner ++ ['}'])
  | special {c : Char} (h : isSpecialParameter c = true) : Allowed [c]
  | named {c : Char} {rest : Text} (hc : isNameStart c = true) (hr : ∀ d ∈ rest, isNameChar d = true) :
      Allowed (c :: rest)

theorem expansion_spec {after : Text} (h : expansion t = .ok (some (e, after))) :
    t = e ++ after ∧ Allowed e := by
  cases t with
  | nil => simp [expansion] at h
  | cons c rest =>
    simp only [expansion] at h
    split at h
    · cases h
    split at h
    · rename_i hc
      subst hc
      split at h
      · cases h
      · rename_i inner after' hcut
        split at h
        · cases h
        · rename_i hi
          cases h
          obtain ⟨d, hd, rfl⟩ := Text.eq_of_cutAt hcut
          rw [Text.contains_iff] at hi
          have hd : d = '}' := by simpa using hd
          exact ⟨by simp [hd], .braced (fun hm => hi (Or.inl hm)) (fun hm => hi (Or.inr hm))⟩
    split at h
    · rename_i hs
      cases h
      exact ⟨rfl, .special hs⟩
    split at h
    · rename_i hn
      cases h
      exact ⟨by simp, .named hn (all_eq_true.mp all_takeWhile)⟩
    · cases h

theorem plain_of_isNameChar (h : isNameChar c = true) : Plain c := by
  refine ⟨?_, ?_, ?_⟩ <;> rintro rfl <;> revert h <;> decide

theorem closed_parameter (hb : c ≠ '\\') (hp : c ≠ '(') (h : isSpecialParameter c = true ∨ Plain c) :
    Closed ['$', c] ∧ substitutes (joinLines ['$', c]) = false := by
  have hj (rest : Text) : joinLines ('$' :: c :: rest) = '$' :: c :: joinLines rest := by
    rw [joinLines_cons (by decide), joinLines_cons hb]
  have hs (rest : Text) : substitutes ('$' :: c :: rest) = substitutes rest := by
    by_cases hc : isSpecialParameter c = true
    · simp [substitutes, taken, hp, hc]
    · simp [substitutes, taken, hp, hc, substitutes_cons (h.resolve_left hc)]
  exact ⟨⟨fun rest => by simp [hj, joinLines], fun rest => by simp [hs, joinLines, substitutes]⟩,
    by simp [hs, joinLines, substitutes]⟩

theorem closed_name {rest : Text} (h : ∀ d ∈ rest, isNameChar d = true) :
    Closed rest ∧ substitutes (joinLines rest) = false := by
  have hc : ∀ d ∈ rest, Closed [d] := fun d hd => .plain (plain_of_isNameChar (h d hd))
  have hr : rest.flatMap (fun d => [d]) = rest := flatMap_singleton' rest
  refine ⟨hr ▸ Closed.flatMap hc, ?_⟩
  rw [← hr, substitutes_flatMap hc, any_eq_false]
  intro d hd
  simp [joinLines, substitutes, (plain_of_isNameChar (h d hd)).2.2]

/-- Expansions without braces start no substitution, and those with braces only across a line join
that directly follows a dollar sign. -/
theorem Allowed.closed (h : Allowed e) :
    Closed ('$' :: e) ∧
      (substitutes (joinLines ('$' :: e)) = true → ['$', '\\', '\n'] <:+: '$' :: e) := by
  cases h with
  | @braced inner hb hs =>
    refine ⟨Closed.braced ('$' :: '{' :: inner), fun h => ?_⟩
    have hdollar : ¬ ['$', '('] <:+: '$' :: ('{' :: inner ++ ['}']) := by
      simp only [cons_append, infix_cons_iff, infix_concat_iff, hs, or_false]
      rintro (⟨_, h⟩ | ⟨_, h⟩ | ⟨_, h⟩)
      · cases h
      · cases h
      · simpa using congrArg List.getLast? h
    rcases mem_or_infix_of_substitutes h with hm | hi
    · have hm := (joinLines_sublist _).mem hm
      simp [hb] at hm
    · exact (infix_of_infix_joinLines hi).resolve_left hdollar
  | @special c hc =>
    have hb : c ≠ '\\' := by rintro rfl; exact absurd hc (by decide)
    have hp : c ≠ '(' := by rintro rfl; exact absurd hc (by decide)
    obtain ⟨hcl, hs⟩ := closed_parameter hb hp (Or.inl hc)
    exact ⟨hcl, fun h => by rw [hs] at h; cases h⟩
  | @named c rest hc hr =>
    have hn := isNameChar_of_isNameStart hc
    have hp : c ≠ '(' := by rintro rfl; exact absurd hn (by decide)
    obtain ⟨hcl, hs⟩ := closed_parameter (plain_of_isNameChar hn).1 hp (Or.inr (plain_of_isNameChar hn))
    obtain ⟨hcl', hs'⟩ := closed_name hr
    refine ⟨hcl.append hcl', fun h => ?_⟩
    have he : '$' :: c :: rest = ['$', c] ++ rest := rfl
    rw [he, hcl.join, hcl.scan, hs, hs'] at h
    cases h

/-! ## Segments -/

/-- A segment as it is written in a here-document. -/
def written : Segment → Text
  | .literal t => t.flatMap quoteChar
  | .expansion t => t

theorem body_eq (segments : List Segment) : body segments = segments.flatMap written :=
  flatMap_congr fun s _ => by cases s <;> rfl

theorem mem_of_mem_consLiteral (h : .expansion e ∈ consLiteral c segments) : .expansion e ∈ segments := by
  cases segments with
  | nil => simp [consLiteral] at h
  | cons s more => cases s <;> simpa [consLiteral] using h

theorem parse_expansion (h : parse t = .ok segments) (he : .expansion e ∈ segments) :
    e <:+: t ∧ ∃ u, e = '$' :: u ∧ Allowed u := by
  fun_induction parse t generalizing segments with
  | case1 => cases h; simp at he
  | case2 c rest _ ih =>
    obtain ⟨more, hm, rfl⟩ := of_map_ok h
    obtain ⟨hi, hu⟩ := ih hm (mem_of_mem_consLiteral he)
    exact ⟨infix_cons (infix_cons hi), hu⟩
  | case3 rest _ ih =>
    obtain ⟨hi, hu⟩ := ih h he
    exact ⟨infix_cons (infix_cons hi), hu⟩
  | case4 c rest _ _ ih =>
    obtain ⟨more, hm, rfl⟩ := of_map_ok h
    obtain ⟨hi, hu⟩ := ih hm (mem_of_mem_consLiteral he)
    exact ⟨infix_cons hi, hu⟩
  | case5 => cases h
  | case6 => cases h
  | case7 rest _ ih =>
    obtain ⟨more, hm, rfl⟩ := of_map_ok h
    obtain ⟨hi, hu⟩ := ih hm (mem_of_mem_consLiteral he)
    exact ⟨infix_cons hi, hu⟩
  | case8 rest u after hx _ ih =>
    obtain ⟨more, hm, rfl⟩ := of_map_ok h
    obtain ⟨rfl, hu⟩ := expansion_spec hx
    rcases mem_cons.mp he with he | he
    · cases he
      exact ⟨(prefix_append ('$' :: u) after).isInfix, u, rfl, hu⟩
    · obtain ⟨hi, hu⟩ := ih hm he
      exact ⟨infix_cons (hi.trans (suffix_append u after).isInfix), hu⟩
  | case9 c rest _ _ _ ih =>
    obtain ⟨more, hm, rfl⟩ := of_map_ok h
    obtain ⟨hi, hu⟩ := ih hm (mem_of_mem_consLiteral he)
    exact ⟨infix_cons hi, hu⟩

/-- The here-document of an accepted prompt starts a command substitution exactly if one of its expansions
does so by itself, which takes a dollar sign directly before a line join inside its braces. -/
theorem substitutes_body_iff {t : Text} {segments : List Segment} (h : parse t = .ok segments) :
    substitutes (joinLines (body segments)) = true ↔
      ∃ e, .expansion e ∈ segments ∧ e <:+: t ∧ ['$', '\\', '\n'] <:+: e ∧
        substitutes (joinLines e) = true := by
  have hclosed : ∀ s ∈ segments, Closed (written s) := by
    intro s hs
    cases s with
    | literal t => exact Closed.flatMap fun c _ => (closed_quoteChar c).1
    | expansion e =>
      obtain ⟨_, u, rfl, hu⟩ := parse_expansion h hs
      exact hu.closed.1
  rw [body_eq, substitutes_flatMap hclosed, any_eq_true]
  constructor
  · rintro ⟨s, hs, hsub⟩
    cases s with
    | literal t =>
      rw [written, substitutes_flatMap fun c _ => (closed_quoteChar c).1, any_eq_true] at hsub
      obtain ⟨c, _, hc⟩ := hsub
      rw [(closed_quoteChar c).2] at hc
      cases hc
    | expansion e =>
      obtain ⟨hi, u, rfl, hu⟩ := parse_expansion h hs
      exact ⟨'$' :: u, hs, hi, hu.closed.2 hsub, hsub⟩
  · rintro ⟨e, he, _, _, hsub⟩
    exact ⟨.expansion e, he, hsub⟩

/-- A default value with a line join between a dollar sign and a parenthesis is accepted, and starts
a substitution. -/
theorem substitutes_body_split :
    parse "$\x7ba:-$\\\n(ls)\x7d" = .ok [.expansion "$\x7ba:-$\\\n(ls)\x7d"] ∧
      substitutes (joinLines (body [.expansion "$\x7ba:-$\\\n(ls)\x7d"])) = true := by
  have h : parse "$\x7ba:-$\\\n(ls)\x7d" = .ok [.expansion "$\x7ba:-$\\\n(ls)\x7d"] := by cbv
  refine ⟨h, (substitutes_body_iff h).mpr ⟨_, mem_cons_self, ?_, ?_, ?_⟩⟩
  · exact infix_refl _
  · exact ⟨"$\x7ba:-".toList, "(ls)\x7d".toList, by decide⟩
  · decide

end Runbook.Prompt
