import Runbook.Proofs.HereDocument

/-!
# A here-document read as a prompt

The here-document of a prompt says what the prompt says, but it has no line joins outside of braces: a name
that stood before a line join goes on over the characters of the literal behind it.
-/

open List

namespace Runbook

theorem Text.cutAt_close {p : Char → Bool} {t a b : Text} {c : Char} (h : cutAt p t = some (a, b))
    (hc : p c = true) (tail : Text) : cutAt p (a ++ c :: tail) = some (a, tail) := by
  induction t generalizing a with
  | nil => cases h
  | cons d rest ih =>
    simp only [cutAt] at h
    split at h
    · cases h
      simp [cutAt, hc]
    · rename_i hd
      obtain ⟨⟨a', b'⟩, hcut, he⟩ := Option.map_eq_some_iff.mp h
      cases he
      simp [cutAt, hd, ih hcut]

namespace Prompt

variable {e t rest u : Text} {c : Char} {segments : List Segment}

/-! ## Expansions with something behind them -/

/-- The expansion goes on with the character behind it: it is a name without braces, and the character may
stand in a name. -/
def goesOn (e : Text) (c : Char) : Bool := e.tail.head?.any isNameStart && isNameChar c

theorem isNameChar_of_goesOn (h : goesOn e c = true) : isNameChar c = true :=
  (Bool.and_eq_true_iff.mp h).2

/-- Whatever stands behind it, the expansion is read as far as it goes on. -/
def ReadsOn (e : Text) : Prop :=
  ∀ rest, expansion (e ++ rest) =
    .ok (some (e ++ rest.takeWhile (goesOn ('$' :: e)), rest.dropWhile (goesOn ('$' :: e))))

section

variable {c : Char} {e : Text}

theorem goesOn_of_not_named (hc : isNameStart c = false) : goesOn ('$' :: c :: e) = fun _ => false := by
  funext d
  simp [goesOn, hc]

theorem goesOn_of_named (hc : isNameStart c = true) : goesOn ('$' :: c :: e) = isNameChar := by
  funext d
  simp [goesOn, hc]

theorem readsOn_of_not_named (hc : isNameStart c = false)
    (h : ∀ rest, expansion (c :: e ++ rest) = .ok (some (c :: e, rest))) : ReadsOn (c :: e) := by
  intro rest
  rw [h, goesOn_of_not_named hc, takeWhile_eq_nil_iff.mpr (by simp),
    dropWhile_eq_self_iff.mpr (by simp), append_nil]

end

theorem isNameStart_of_special (h : isSpecialParameter c = true) : isNameStart c = false := by
  simp only [isSpecialParameter, Bool.or_eq_true, contains_iff_mem] at h
  rcases h with h | h
  · unfold Char.isDigit at h
    simp only [Bool.and_eq_true, decide_eq_true_eq, ge_iff_le, UInt32.le_iff_toNat_le] at h
    change 48 ≤ c.toNat ∧ c.toNat ≤ 57 at h
    rw [Bool.eq_false_iff]
    unfold isNameStart Char.isAlpha Char.isUpper Char.isLower
    simp only [ne_eq, Bool.or_eq_true, Bool.and_eq_true, decide_eq_true_eq, beq_iff_eq, ge_iff_le,
      UInt32.le_iff_toNat_le]
    change ¬ (((65 ≤ c.toNat ∧ c.toNat ≤ 90) ∨ (97 ≤ c.toNat ∧ c.toNat ≤ 122)) ∨ c = '_')
    rintro (hl | rfl)
    · omega
    · exact absurd h (by decide)
  · change c ∈ ['@', '*', '#', '?', '$', '!', '-'] at h
    simp only [mem_cons, not_mem_nil, or_false] at h
    rcases h with rfl | rfl | rfl | rfl | rfl | rfl | rfl <;> decide

theorem readsOn_of_expansion {after : Text} (h : expansion t = .ok (some (e, after))) :
    ReadsOn e ∧ after.head?.any (goesOn ('$' :: e)) = false := by
  cases t with
  | nil => simp [expansion] at h
  | cons c rest =>
    simp only [expansion] at h
    split at h
    · cases h
    split at h
    -- in braces
    · rename_i hc
      subst hc
      split at h
      · cases h
      · rename_i inner after' hcut
        split at h
        · cases h
        · rename_i hi
          cases h
          have hbrace : isNameStart '{' = false := by decide
          refine ⟨readsOn_of_not_named hbrace fun tail => ?_, by simp [goesOn_of_not_named hbrace]⟩
          have hclose : Text.cutAt (· == '}') (inner ++ ['}'] ++ tail) = some (inner, tail) := by
            simpa using Text.cutAt_close hcut (c := '}') (by decide) tail
          change expansion ('{' :: (inner ++ ['}'] ++ tail)) = _
          rw [expansion, if_neg (by decide), if_pos rfl, hclose]
          exact if_neg hi
    split at h
    -- a special parameter
    · rename_i hp hb hs
      cases h
      have hc := isNameStart_of_special hs
      refine ⟨readsOn_of_not_named hc fun tail => ?_, by simp [goesOn_of_not_named hc]⟩
      simp [expansion, hp, hb, hs]
    split at h
    -- a name, which has all the characters it can have
    · rename_i hp hb hs hn
      cases h
      constructor
      · intro tail
        have hall : ∀ d ∈ rest.takeWhile isNameChar, isNameChar d = true :=
          all_eq_true.mp all_takeWhile
        rw [goesOn_of_named hn]
        simp only [cons_append, expansion, hp, hb, hs, hn]
        simp [takeWhile_append_of_pos hall, dropWhile_append_of_pos hall]
      · rw [goesOn_of_named hn]
        cases hd : rest.dropWhile isNameChar with
        | nil => rfl
        | cons d more => simpa [hd] using head?_dropWhile_not isNameChar rest
    · cases h

/-! ## Segments as they are read -/

/-- What a prompt is read as: no literal is empty, no two of them are neighbours, and every expansion can be
read again. -/
inductive Tidy : List Segment → Prop
  | nil : Tidy []
  | literal {t : Text} {more : List Segment} (ht : t ≠ []) (hm : ∀ u, more.head? ≠ some (.literal u))
      (h : Tidy more) : Tidy (.literal t :: more)
  | expansion {e : Text} {more : List Segment} (he : ReadsOn e) (h : Tidy more) :
      Tidy (.expansion ('$' :: e) :: more)

theorem Tidy.consLiteral (h : Tidy segments) (c : Char) : Tidy (Prompt.consLiteral c segments) := by
  cases h with
  | nil => exact .literal (by simp) (by simp) .nil
  | literal _ hm h => exact .literal (by simp) hm h
  | expansion he h => exact .literal (by simp) (by simp) (.expansion he h)

theorem tidy_of_parse (h : parse t = .ok segments) : Tidy segments := by
  fun_induction parse t generalizing segments with
  | case1 => cases h; exact .nil
  | case2 c rest _ ih =>
    obtain ⟨more, hm, rfl⟩ := of_map_ok h
    exact (ih hm).consLiteral c
  | case3 rest _ ih => exact ih h
  | case4 c rest _ _ ih =>
    obtain ⟨more, hm, rfl⟩ := of_map_ok h
    exact (ih hm).consLiteral '\\'
  | case5 => cases h
  | case6 => cases h
  | case7 rest _ ih =>
    obtain ⟨more, hm, rfl⟩ := of_map_ok h
    exact (ih hm).consLiteral '$'
  | case8 rest e after hx _ ih =>
    obtain ⟨more, hm, rfl⟩ := of_map_ok h
    exact .expansion (readsOn_of_expansion hx).1 (ih hm)
  | case9 c rest _ _ _ ih =>
    obtain ⟨more, hm, rfl⟩ := of_map_ok h
    exact (ih hm).consLiteral c

/-! ## Reading the here-document -/

def asLiteral (t : Text) : List Segment := if t = [] then [] else [.literal t]

/-- The segments with every name gone on over the literal behind it. -/
def reread : List Segment → List Segment
  | [] => []
  | .expansion e :: .literal t :: rest =>
    .expansion (e ++ t.takeWhile (goesOn e)) :: asLiteral (t.dropWhile (goesOn e)) ++ reread rest
  | s :: rest => s :: reread rest

theorem parse_quoteChar (c : Char) (rest : Text) :
    parse (quoteChar c ++ rest) = (parse rest).map (consLiteral c) := by
  by_cases hc : c = '\\' ∨ c = '$' ∨ c = '`'
  · have he : isEscapable c = true := by
      rcases hc with rfl | rfl | rfl <;> decide
    simp [quoteChar, hc, parse, he]
  · simp only [not_or] at hc
    simp [quoteChar, hc, parse]

theorem parse_quoted (hs : ∀ u, segments.head? ≠ some (.literal u)) (h : parse rest = .ok segments) :
    parse (t.flatMap quoteChar ++ rest) = .ok (asLiteral t ++ segments) := by
  induction t with
  | nil => exact h
  | cons c t ih =>
    rw [flatMap_cons, List.append_assoc, parse_quoteChar, ih]
    cases t with
    | nil =>
      cases segments with
      | nil => rfl
      | cons s more =>
        cases s with
        | literal u => exact absurd rfl (hs u)
        | expansion e => rfl
    | cons d t => rfl

theorem parse_expansion_append (he : ReadsOn e) (h : parse (rest.dropWhile (goesOn ('$' :: e))) = .ok segments)
    :
    parse ('$' :: e ++ rest) = .ok (.expansion ('$' :: e ++ rest.takeWhile (goesOn ('$' :: e))) :: segments) := by
  have hx := he rest
  rw [cons_append, parse]
  split
  · rename_i hr
    rw [hx] at hr
    cases hr
  · rename_i hr
    rw [hx] at hr
    cases hr
  · rename_i hr
    rw [hx] at hr
    cases hr
    rw [h]
    rfl

theorem quoteChar_of_isNameChar (h : isNameChar c = true) : quoteChar c = [c] := by
  obtain ⟨h₁, h₂, h₃⟩ := plain_of_isNameChar h
  simp [quoteChar, h₁, h₂, h₃]

theorem takeWhile_quoted {p : Char → Bool} (hp : ∀ c, p c = true → isNameChar c = true) (t : Text)
    (hr : rest.head?.any p = false) :
    (t.flatMap quoteChar ++ rest).takeWhile p = t.takeWhile p ∧
      (t.flatMap quoteChar ++ rest).dropWhile p = (t.dropWhile p).flatMap quoteChar ++ rest := by
  induction t with
  | nil =>
    cases rest with
    | nil => exact ⟨rfl, rfl⟩
    | cons d rest =>
      have hd : p d = false := hr
      simp [hd]
  | cons c t ih =>
    by_cases hc : p c = true
    · simp [quoteChar_of_isNameChar (hp c hc), hc, ih]
    -- with or without a backslash in front of it, the character stops the name
    · have hb : p '\\' = false := Bool.eq_false_iff.mpr fun h => absurd (hp _ h) (by decide)
      obtain ⟨d, more, hquote, hd⟩ : ∃ d more, quoteChar c = d :: more ∧ p d = false := by
        unfold quoteChar
        split
        · exact ⟨_, _, rfl, hb⟩
        · exact ⟨_, _, rfl, by simpa using hc⟩
      simp [hquote, hc, hd]

theorem Tidy.head_body (h : Tidy segments) (hs : ∀ u, segments.head? ≠ some (.literal u)) (e : Text) :
    (body segments).head?.any (goesOn e) = false := by
  cases h with
  | nil => rfl
  | literal => exact absurd rfl (hs _)
  | expansion =>
    change goesOn e '$' = false
    exact Bool.eq_false_iff.mpr fun h => absurd (isNameChar_of_goesOn h) (by decide)

theorem head?_reread (hs : ∀ u, segments.head? ≠ some (.literal u)) (u : Text) :
    (reread segments).head? ≠ some (.literal u) := by
  fun_cases reread segments with
  | case1 => simp
  | case2 e t rest => simp
  | case3 s rest hpair =>
    rw [head?_cons]
    exact hs u

theorem parse_expansion_quoted {text : Text} (he : ReadsOn e) (t : Text)
    (ht : text.head?.any (goesOn ('$' :: e)) = false) (hs : ∀ u, segments.head? ≠ some (.literal u))
    (h : parse text = .ok segments) :
    parse ('$' :: e ++ (t.flatMap quoteChar ++ text)) =
      .ok (.expansion ('$' :: e ++ t.takeWhile (goesOn ('$' :: e))) ::
        asLiteral (t.dropWhile (goesOn ('$' :: e))) ++ segments) := by
  obtain ⟨htake, hdrop⟩ := takeWhile_quoted (p := goesOn ('$' :: e)) (fun _ => isNameChar_of_goesOn) t ht
  have hrest := parse_quoted (t := t.dropWhile (goesOn ('$' :: e))) hs h
  rw [← hdrop] at hrest
  rw [parse_expansion_append he hrest, htake]
  rfl

theorem Tidy.parse_reread (h : Tidy segments) : parse (body segments) = .ok (reread segments) := by
  fun_induction reread segments with
  | case1 => simp [body, parse]
  | case2 e t rest ih =>
    cases h with
    | expansion he h =>
      cases h with
      | literal _ hm h => exact parse_expansion_quoted he t (h.head_body hm _) (head?_reread hm) (ih h)
  | case3 s rest hpair ih =>
    cases h with
    | @literal t _ ht hm h =>
      have hread := parse_quoted (t := t) (head?_reread hm) (ih h)
      rwa [asLiteral, if_neg ht] at hread
    | @expansion e _ he h =>
      -- with no literal behind it, it goes on over nothing
      have hm : ∀ u, rest.head? ≠ some (.literal u) := by
        intro u hu
        obtain ⟨more, rfl⟩ := head?_eq_some_iff.mp hu
        exact hpair _ _ _ rfl rfl
      simpa [asLiteral, body] using parse_expansion_quoted he [] (h.head_body hm _) (head?_reread hm) (ih h)

theorem body_asLiteral (t : Text) : body (asLiteral t) = t.flatMap quoteChar := by
  cases t with
  | nil => rfl
  | cons c t => simp [asLiteral, body]

theorem body_reread (segments : List Segment) : body (reread segments) = body segments := by
  fun_induction reread segments with
  | case1 => rfl
  | case2 e t rest ih =>
    have htake : (t.takeWhile (goesOn e)).flatMap quoteChar = t.takeWhile (goesOn e) := by
      conv_rhs => rw [← flatMap_singleton' (t.takeWhile (goesOn e))]
      refine flatMap_congr fun c hc => quoteChar_of_isNameChar (isNameChar_of_goesOn (e := e) ?_)
      exact all_eq_true.mp all_takeWhile c hc
    have hsplit : t.flatMap quoteChar = t.takeWhile (goesOn e) ++ (t.dropWhile (goesOn e)).flatMap quoteChar := by
      rw [← htake, ← flatMap_append, takeWhile_append_dropWhile]
    calc body (.expansion (e ++ t.takeWhile (goesOn e)) :: asLiteral (t.dropWhile (goesOn e)) ++ reread rest)
        = e ++ t.takeWhile (goesOn e) ++ (body (asLiteral (t.dropWhile (goesOn e))) ++ body (reread rest)) := by
          simp [body]
      _ = e ++ (t.flatMap quoteChar ++ body rest) := by
          rw [body_asLiteral, ih, hsplit]
          simp
  | case3 s rest hpair ih => exact congrArg (_ ++ ·) ih

theorem Tidy.reread_eq_iff (h : Tidy segments) :
    reread segments = segments ↔
      ∀ e u, [.expansion e, .literal u] <:+: segments → u.head?.any (goesOn e) = false := by
  fun_induction reread segments with
  | case1 => simp
  | case2 e t rest ih =>
    obtain ⟨ht, hrest⟩ : t ≠ [] ∧ Tidy rest := by
      cases h with
      | expansion _ h =>
        cases h with
        | literal ht _ h => exact ⟨ht, h⟩
    obtain ⟨c, u, rfl⟩ := exists_cons_of_ne_nil ht
    have hpairs : ∀ e' u', [.expansion e', .literal u'] <:+: .expansion e :: .literal (c :: u) :: rest ↔
        (e' = e ∧ u' = c :: u) ∨ [.expansion e', .literal u'] <:+: rest := by
      simp [infix_cons_iff, cons_prefix_cons]
    cases hc : goesOn e c with
    | true =>
      refine iff_of_false (by simp [hc]) fun hall => ?_
      have hno : goesOn e c = false := hall e (c :: u) ((hpairs _ _).mpr (Or.inl ⟨rfl, rfl⟩))
      rw [hno] at hc
      cases hc
    | false =>
      simp only [takeWhile_cons, dropWhile_cons, hc, Bool.false_eq_true, ↓reduceIte,
        append_nil, asLiteral, reduceCtorEq, cons_append, nil_append, List.cons.injEq,
        true_and, ih hrest, hpairs]
      constructor
      · rintro hall e' u' (⟨rfl, rfl⟩ | hp)
        · exact hc
        · exact hall e' u' hp
      · exact fun hall e' u' hp => hall e' u' (Or.inr hp)
  | case3 s rest hpair ih =>
    have hrest : Tidy rest := by
      cases h with
      | literal _ _ h => exact h
      | expansion _ h => exact h
    have hpairs : ∀ e u, [.expansion e, .literal u] <:+: s :: rest ↔
        [.expansion e, .literal u] <:+: rest := by
      intro e u
      refine ⟨fun hp => (infix_cons_iff.mp hp).resolve_left fun ⟨tail, ht⟩ => ?_, infix_cons⟩
      cases ht
      exact hpair e u tail rfl rfl
    simp only [List.cons.injEq, true_and, ih hrest, hpairs]

/-! ## Where a name can go on -/

theorem infix_of_infix_consLiteral (h : [.expansion e, .literal u] <:+: consLiteral c segments) :
    [.expansion e, .literal u] <:+: segments := by
  unfold consLiteral at h
  split at h
  · rcases infix_cons_iff.mp h with hp | hi
    · cases (cons_prefix_cons.mp hp).1
    · exact infix_cons hi
  · rcases infix_cons_iff.mp h with hp | hi
    · cases (cons_prefix_cons.mp hp).1
    · exact hi

theorem eq_of_consLiteral {d : Char} {more : List Segment}
    (h : consLiteral c segments = .literal (d :: u) :: more) : c = d := by
  unfold consLiteral at h
  split at h
  · cases h
    rfl
  · cases h
    rfl

/-- A literal that starts with a character of a name is written with this character first, or behind a line
join. -/
theorem head_of_parse_literal {more : List Segment} {d : Char} (hd : isNameChar d = true)
    (h : parse t = .ok (.literal (d :: u) :: more)) : t.head? = some d ∨ ['\\', '\n'] <+: t := by
  obtain ⟨hb, hs, hg⟩ := plain_of_isNameChar hd
  fun_induction parse t with
  | case1 => cases h
  | case2 c rest hc =>
    obtain ⟨segments, -, hcons⟩ := of_map_ok h
    obtain rfl := eq_of_consLiteral hcons
    have hq : c ≠ '"' := by
      rintro rfl
      exact absurd hd (by decide)
    simp [isEscapable, hb, hs, hg, hq] at hc
  | case3 rest hc => exact Or.inr (prefix_append ['\\', '\n'] rest)
  | case4 c rest _ _ =>
    obtain ⟨segments, -, hcons⟩ := of_map_ok h
    exact absurd (eq_of_consLiteral hcons) hb.symm
  | case5 => cases h
  | case6 => cases h
  | case7 rest _ =>
    obtain ⟨segments, -, hcons⟩ := of_map_ok h
    exact absurd (eq_of_consLiteral hcons) hs.symm
  | case8 rest e after hx _ =>
    obtain ⟨segments, -, hcons⟩ := of_map_ok h
    cases hcons
  | case9 c rest _ _ _ =>
    obtain ⟨segments, -, hcons⟩ := of_map_ok h
    obtain rfl := eq_of_consLiteral hcons
    exact Or.inl rfl

theorem join_of_goesOn (h : parse t = .ok segments) (hp : [.expansion e, .literal u] <:+: segments)
    (hu : u.head?.any (goesOn e) = true) : e ++ ['\\', '\n'] <:+: t := by
  fun_induction parse t generalizing segments with
  | case1 => cases h; simp at hp
  | case2 c rest _ ih =>
    obtain ⟨more, hm, rfl⟩ := of_map_ok h
    exact infix_cons (infix_cons (ih hm (infix_of_infix_consLiteral hp)))
  | case3 rest _ ih => exact infix_cons (infix_cons (ih h hp))
  | case4 c rest _ _ ih =>
    obtain ⟨more, hm, rfl⟩ := of_map_ok h
    exact infix_cons (ih hm (infix_of_infix_consLiteral hp))
  | case5 => cases h
  | case6 => cases h
  | case7 rest _ ih =>
    obtain ⟨more, hm, rfl⟩ := of_map_ok h
    exact infix_cons (ih hm (infix_of_infix_consLiteral hp))
  | case8 rest e' after hx _ ih =>
    obtain ⟨more, hm, rfl⟩ := of_map_ok h
    obtain ⟨rfl, -⟩ := expansion_spec hx
    rcases infix_cons_iff.mp hp with ⟨tail, htail⟩ | hp
    -- the name that was read ends before `after`, so its first character is no literal one
    · cases htail
      obtain ⟨d, u', rfl, hd⟩ : ∃ d u', u = d :: u' ∧ goesOn ('$' :: e') d = true := by
        cases u with
        | nil => cases hu
        | cons d u' => exact ⟨d, u', rfl, hu⟩
      rcases head_of_parse_literal (isNameChar_of_goesOn hd) hm with hhead | ⟨text, rfl⟩
      · have hend := (readsOn_of_expansion hx).2
        rw [hhead, Option.any_some, hd] at hend
        cases hend
      · exact ⟨[], text, by simp⟩
    · exact infix_cons ((ih hm hp).trans (suffix_append e' after).isInfix)
  | case9 c rest _ _ _ ih =>
    obtain ⟨more, hm, rfl⟩ := of_map_ok h
    exact infix_cons (ih hm (infix_of_infix_consLiteral hp))

/-- The here-document of an accepted prompt is an accepted prompt with the same here-document. It has the
same segments exactly if no name stands before a literal that it goes on with; in the prompt a line join
stood between the two. -/
theorem parse_body {t : Text} {segments : List Segment} (h : parse t = .ok segments) :
    parse (body segments) = .ok (reread segments) ∧ body (reread segments) = body segments ∧
      (parse (body segments) = .ok segments ↔
        ∀ e u, [.expansion e, .literal u] <:+: segments → u.head?.any (goesOn e) = false) ∧
      ∀ e u, [.expansion e, .literal u] <:+: segments → u.head?.any (goesOn e) = true →
        e ++ ['\\', '\n'] <:+: t := by
  have htidy := tidy_of_parse h
  refine ⟨htidy.parse_reread, body_reread segments, ?_, fun e u => join_of_goesOn h⟩
  rw [htidy.parse_reread, Except.ok.injEq]
  exact htidy.reread_eq_iff

/-- A line join between a name and a letter is lost, and the name takes the letter in. -/
theorem parse_body_join :
    parse "$a\\\nb c" = .ok [.expansion "$a", .literal "b c"] ∧
      parse (body [.expansion "$a", .literal "b c"]) = .ok [.expansion "$ab", .literal " c"] ∧
      parse (body [.expansion "$a", .literal "b c"]) ≠ .ok [.expansion "$a", .literal "b c"] := by
  have hname : expansion "a" = .ok (some ("a", [])) := by decide
  have hrest : parse (("\\\nb c" : Text).dropWhile (goesOn "$a")) = .ok [.literal "b c"] := by
    have hjoin : ("\\\nb c" : Text).dropWhile (goesOn "$a") =
        '\\' :: '\n' :: (("b c" : Text).flatMap quoteChar ++ []) := by decide
    have hread : parse (("b c" : Text).flatMap quoteChar ++ []) = .ok (asLiteral "b c" ++ []) :=
      parse_quoted (by simp) (by simp [parse])
    rw [hjoin, parse, if_neg (by decide), if_pos rfl]
    exact hread
  have h : parse "$a\\\nb c" = .ok [.expansion "$a", .literal "b c"] :=
    parse_expansion_append (readsOn_of_expansion hname).1 hrest
  obtain ⟨hread, -, hiff, -⟩ := parse_body h
  have hreread : reread [.expansion "$a", .literal "b c"] = [.expansion "$ab", .literal " c"] := by decide
  rw [hreread] at hread
  refine ⟨h, hread, fun hsame => ?_⟩
  exact absurd (hiff.mp hsame "$a" "b c" (infix_refl _)) (by decide)

end Prompt

end Runbook
