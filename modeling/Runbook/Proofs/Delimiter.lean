import Mathlib.Data.List.Nodup
import Mathlib.Data.List.Perm.Subperm
import Mathlib.Order.Bounds.Basic
import Runbook.Proofs.HereDocument
import Runbook.Script
import Runbook.Shell.Token

/-!
# The delimiter of a here-document

The delimiter of a prompt has as few underscores as make it differ from every line of the body. The shell
passes over zero bytes and joins lines before it compares; only a body without both is sure to be read to
its end.
-/

open List

namespace Runbook
open Shell

/-! ## Lines and pieces -/

namespace Text

theorem lines_of_lf_not_mem {t : Text} (hne : t ≠ []) (h : '\n' ∉ t) : lines t = [t] := by
  induction t with
  | nil => exact absurd rfl hne
  | cons c rest ih =>
    obtain ⟨hc, hrest⟩ := not_or.mp (mt mem_cons.mpr h)
    cases rest with
    | nil => simp [lines, Ne.symm hc]
    | cons d rest =>
      apply lines_cons_of_cons (Ne.symm hc)
      · intro _ hd
        exact hrest (mem_of_mem_head? hd)
      · exact ih (by simp) hrest

/-- A piece between line feeds is a line, unless it is empty or ends in a carriage return. -/
theorem mem_lines_of_mem_splitOn {t piece : Text} (h : piece ∈ List.splitOn '\n' t) (hne : piece ≠ [])
    (hreturn : piece.getLast? ≠ some '\r') : piece ∈ lines t := by
  have hlf : '\n' ∉ piece := not_mem_of_mem_splitOn h
  have hend : lines (piece ++ ['\n']) = [piece] := by
    rw [lines_eq_splitOn, splitOn_eq_singleton hlf]
    apply not_crlf_append (not_crlf_of_lf_not_mem hlf) (by decide)
    intro hr
    exact absurd hr hreturn
  have hfirst (more : List Text) : piece ∈ lines (['\n'].intercalate (piece :: more)) := by
    by_cases hmore : more = []
    · subst hmore
      rw [intercalate_singleton, lines_of_lf_not_mem hne hlf]
      exact mem_singleton_self piece
    · rw [intercalate_cons_of_ne_nil hmore, lines_append (by simp), hend]
      simp
  obtain ⟨before, after, hp⟩ := append_of_mem h
  have ht : t = ['\n'].intercalate (t.splitOn '\n') := (intercalate_splitOn '\n').symm
  rw [ht, hp]
  by_cases hbefore : before = []
  · subst hbefore
    exact hfirst after
  · rw [intercalate_append hbefore (by simp), lines_append (by simp)]
    exact mem_append_right _ (hfirst after)

theorem flatMap_splitOn (t : Text) : (List.splitOn '\n' t).flatMap (· ++ ['\n']) = t ++ ['\n'] := by
  induction t with
  | nil => rfl
  | cons c rest ih =>
    by_cases hc : c = '\n'
    · simp [splitOn_cons_eq_if_modifyHead, hc, ih]
    · obtain ⟨piece, more, hp⟩ := exists_cons_of_ne_nil (splitOn_ne_nil '\n' rest)
      rw [hp, flatMap_cons] at ih
      rw [splitOn_cons_of_ne hc hp, flatMap_cons, cons_append, cons_append, ih]
      rfl

theorem append_lf_inj {a b x y : Text} (ha : '\n' ∉ a) (hb : '\n' ∉ b) (h : a ++ '\n' :: x = b ++ '\n' :: y) :
    a = b ∧ x = y := by
  have hcut {a : Text} (ha : '\n' ∉ a) (x : Text) : cutAt (· == '\n') (a ++ '\n' :: x) = some (a, x) := by
    apply cutAt_append
    · intro c hc
      rw [beq_eq_false_iff_ne]
      rintro rfl
      exact ha hc
    · rfl
  have hboth := (hcut ha x).symm.trans ((congrArg _ h).trans (hcut hb y))
  simpa using hboth

end Text

/-! ## The least delimiter -/

namespace Prompt

theorem extendDelimiter_spec (lines : List Text) (d : Text) :
    ∃ k, extendDelimiter lines d = d ++ List.replicate k '_' ∧ d ++ List.replicate k '_' ∉ lines ∧
      ∀ i < k, d ++ List.replicate i '_' ∈ lines := by
  fun_induction extendDelimiter lines d with
  | case1 d hd ih =>
    obtain ⟨k, heq, hk, hless⟩ := ih
    have hshift (i : Nat) : d ++ ['_'] ++ List.replicate i '_' = d ++ List.replicate (i + 1) '_' := by
      simp [replicate_succ]
    refine ⟨k + 1, by rw [heq, hshift], by rwa [← hshift], ?_⟩
    intro i hi
    cases i with
    | zero => simpa using hd
    | succ i =>
      rw [← hshift]
      exact hless i (Nat.lt_of_succ_lt_succ hi)
  | case2 d hd => exact ⟨0, by simp, by simpa using hd, by simp⟩

/-- Different numbers of underscores give different texts, so they cannot all be among fewer lines. -/
theorem le_length_of_forall_mem {lines : List Text} {d : Text} {k : Nat}
    (h : ∀ i < k, d ++ List.replicate i '_' ∈ lines) : k ≤ lines.length := by
  have hinj : Function.Injective fun i => d ++ List.replicate i '_' := by
    intro i j hij
    simpa using congrArg List.length hij
  have hsub : (List.range k).map (fun i => d ++ List.replicate i '_') ⊆ lines := by
    intro line hline
    obtain ⟨i, hi, rfl⟩ := mem_map.mp hline
    exact h i (mem_range.mp hi)
  have hle := (subperm_of_subset (nodup_range.map hinj) hsub).length_le
  simpa using hle

theorem delimiter_eq (body : Text) :
    ∃ k, delimiter body = baseDelimiter ++ List.replicate k '_' ∧
      IsLeast {i | baseDelimiter ++ List.replicate i '_' ∉ body.lines} k ∧ k ≤ body.lines.length := by
  obtain ⟨k, heq, hk, hless⟩ := extendDelimiter_spec body.lines baseDelimiter
  refine ⟨k, heq, ⟨hk, ?_⟩, le_length_of_forall_mem hless⟩
  intro i hi
  apply Nat.le_of_not_lt
  intro hlt
  exact hi (hless i hlt)

theorem delimiter_not_mem_lines (body : Text) : delimiter body ∉ body.lines := by
  obtain ⟨k, heq, hk, -⟩ := delimiter_eq body
  rw [heq]
  exact hk.1

theorem mem_of_mem_delimiter {body : Text} {c : Char} (h : c ∈ delimiter body) : c ∈ baseDelimiter := by
  obtain ⟨k, heq, -⟩ := delimiter_eq body
  rw [heq] at h
  rcases mem_append.mp h with h | h
  · exact h
  · rw [(mem_replicate.mp h).2]
    decide

theorem delimiter_ne_nil (body : Text) : delimiter body ≠ [] := by
  obtain ⟨k, heq, -⟩ := delimiter_eq body
  rw [heq]
  exact append_ne_nil_of_left_ne_nil (by decide) _

/-- Unlike a line, a piece keeps the carriage return at its end; the delimiter has none. -/
theorem ne_delimiter_of_mem_splitOn {body piece : Text} (h : piece ∈ body.splitOn '\n') :
    piece ≠ delimiter body := by
  rintro rfl
  apply delimiter_not_mem_lines body
  apply Text.mem_lines_of_mem_splitOn h (delimiter_ne_nil body)
  intro hr
  exact absurd (mem_of_mem_delimiter (mem_of_getLast? hr)) (by decide)

end Prompt

/-! ## How the shell reads a here-document -/

namespace HereDocument

theorem joinLines_join (rest : Text) : joinLines ('\\' :: '\n' :: rest) = joinLines rest := by
  simp [joinLines]

theorem joinLines_escape {c : Char} (hc : c ≠ '\n') (rest : Text) :
    joinLines ('\\' :: c :: rest) = '\\' :: c :: joinLines rest := by
  by_cases hb : c = '\\'
  · simp [joinLines, hb]
  · simp [joinLines, hb, hc, joinLines_cons hb]

end HereDocument

namespace Shell.ReadM

open HereDocument

/-- The shell takes the line `l` from the front of a text, whatever stands behind the text, and leaves `r`. -/
structure FirstLine (v l r : Text) (n : Nat) : Prop where
  joined : joinLines v = l ++ '\n' :: joinLines r
  lf_not_mem : '\n' ∉ l
  shorter : r.length < v.length
  taken : ∀ w, takeLine true (v ++ w) = some (l, r ++ w, n)

namespace FirstLine

variable {v l r : Text} {n : Nat}

theorem start (r : Text) : FirstLine ('\n' :: r) [] r 1 where
  joined := joinLines_cons (by decide) r
  lf_not_mem := by simp
  shorter := Nat.lt_succ_self _
  taken := fun _ => by simp [takeLine]

theorem join (h : FirstLine v l r n) : FirstLine ('\\' :: '\n' :: v) l r (n + 1) where
  joined := (joinLines_join v).trans h.joined
  lf_not_mem := h.lf_not_mem
  shorter := Nat.lt_succ_of_lt (Nat.lt_succ_of_lt h.shorter)
  taken := fun w => by simp [takeLine, h.taken w]

theorem escape {c : Char} (hc : c ≠ '\n') (h : FirstLine v l r n) :
    FirstLine ('\\' :: c :: v) ('\\' :: c :: l) r n where
  joined := by rw [joinLines_escape hc, h.joined, cons_append, cons_append]
  lf_not_mem := by simp [Ne.symm hc, h.lf_not_mem]
  shorter := Nat.lt_succ_of_lt (Nat.lt_succ_of_lt h.shorter)
  taken := fun w => by simp [takeLine, h.taken w]

theorem plain {c : Char} (hc : c ≠ '\n') (hb : c ≠ '\\') (h : FirstLine v l r n) :
    FirstLine (c :: v) (c :: l) r n where
  joined := by rw [joinLines_cons hb, h.joined, cons_append]
  lf_not_mem := by simp [Ne.symm hc, h.lf_not_mem]
  shorter := Nat.lt_succ_of_lt h.shorter
  taken := fun w => by
    have hne : v ++ w ≠ [] := by
      intro hnil
      have hw := h.taken w
      rw [hnil] at hw
      cases hw
    simp [takeLine, hb, h.taken w]

theorem of_plain {d : Text} (hd : ∀ c ∈ d, c ≠ '\n' ∧ c ≠ '\\') (r : Text) : FirstLine (d ++ '\n' :: r) d r 1 := by
  induction d with
  | nil => exact .start r
  | cons c d ih =>
    obtain ⟨⟨hc, hb⟩, hd⟩ := forall_mem_cons.mp hd
    exact (ih hd).plain hc hb

end FirstLine

/-- The line that the shell takes is the first of the joined lines. -/
theorem firstLine_of_mem {v : Text} (h : '\n' ∈ joinLines v) : ∃ l r n, FirstLine v l r n := by
  fun_induction takeLine true v with
  | case1 => cases h
  | case2 rest => exact ⟨[], rest, 1, .start rest⟩
  | case3 rest _ ih =>
    rw [joinLines_join] at h
    obtain ⟨l, r, n, hl⟩ := ih h
    exact ⟨l, r, n + 1, hl.join⟩
  | case4 rest hj => exact absurd rfl hj
  | case5 c rest hc ih =>
    rw [joinLines_escape hc] at h
    obtain ⟨l, r, n, hl⟩ := ih (by simpa [Ne.symm hc] using h)
    exact ⟨'\\' :: c :: l, r, n, hl.escape hc⟩
  | case6 c hc => exact absurd (mem_singleton.mp h).symm hc
  | case7 c rest hc _ hb hne _ _ _ _ ih | case8 c rest hc _ hb hne _ ih =>
    obtain ⟨d, more, rfl⟩ := exists_cons_of_ne_nil hne
    have hb : c ≠ '\\' := fun hc => hb d more hc rfl
    rw [joinLines_cons hb] at h
    obtain ⟨l, r, n, hl⟩ := ih (mem_of_ne_of_mem (Ne.symm hc) h)
    exact ⟨c :: l, r, n, hl.plain hc hb⟩

/-- Joins that nothing stands between are passed over. -/
theorem takeLine_of_joins {v : Text} (h : joinLines v = []) {w l r : Text} {n : Nat}
    (hw : takeLine true w = some (l, r, n)) : ∃ m, takeLine true (v ++ w) = some (l, r, m) := by
  fun_induction joinLines v with
  | case1 => exact ⟨n, hw⟩
  | case2 | case3 | case5 => cases h
  | case4 c d rest _ hc ih =>
    obtain ⟨m, hm⟩ := ih h
    refine ⟨m + 1, ?_⟩
    simp [hc, takeLine, hm]

/-- Up to the delimiter, the shell takes the joined lines. If none of them is the delimiter, it stops behind
the line that stands below them. -/
theorem documentLines_append (id : Nat) {d w after : Text} {n : Nat} (hw : takeLine true w = some (d, after, n))
    {v : Text} {ls : List Text} (hv : joinLines v = ls.flatMap (· ++ ['\n'])) (hls : ∀ l ∈ ls, '\n' ∉ l)
    {fuel : Nat} (hfuel : v.length ≤ fuel) :
    ∃ r m, documentLines ⟨id, d, false, false⟩ (fuel + 1) (v ++ w) = (ls.takeWhile (· ≠ d), r, m, true) ∧
      (d ∉ ls → r = after) := by
  induction ls generalizing v fuel with
  | nil =>
    obtain ⟨m, hm⟩ := takeLine_of_joins hv hw
    exact ⟨after, m, by simp [documentLines, hm], fun _ => rfl⟩
  | cons l ls ih =>
    rw [flatMap_cons, List.append_assoc, singleton_append] at hv
    obtain ⟨l', r, m, hl⟩ := firstLine_of_mem (v := v) (by simp [hv])
    obtain ⟨hl₁, hls₁⟩ := forall_mem_cons.mp hls
    obtain ⟨rfl, hr⟩ := Text.append_lf_inj hl.lf_not_mem hl₁ (hl.joined.symm.trans hv)
    by_cases hd : l' = d
    · exact ⟨r ++ w, m, by simp [documentLines, hl.taken w, hd], by simp [hd]⟩
    · have hlt : r.length < fuel := Nat.lt_of_lt_of_le hl.shorter hfuel
      obtain ⟨fuel, rfl⟩ := Nat.exists_eq_add_one_of_ne_zero (Nat.ne_zero_of_lt hlt)
      obtain ⟨r', m', heq, hafter⟩ := ih hr hls₁ (Nat.le_of_lt_succ hlt)
      refine ⟨r', m + m', ?_, ?_⟩
      · rw [documentLines]
        simp [hl.taken w, hd, heq]
      · intro hm
        exact hafter fun hm' => hm (mem_cons_of_mem _ hm')

end Shell.ReadM

/-! ## What the shell reads of a prompt -/

namespace Prompt

open HereDocument

/-- What a script has below the line that opens the here-document of a prompt. -/
def documentText (body : Text) : Text :=
  (Statement.prompt (delimiter body) body).lines.tail.flatMap (· ++ ['\n'])

/-- The lines of a body that the shell compares with the delimiter. -/
def shownLines (body : Text) : List Text :=
  if body = [] then [] else (joinLines (readable body)).splitOn '\n'

theorem readable_append (a b : Text) : readable (a ++ b) = readable a ++ readable b :=
  filter_append ..

theorem readable_eq_self {t : Text} (h : '\x00' ∉ t) : readable t = t := by
  apply filter_eq_self.mpr
  intro c hc
  rw [decide_eq_true_iff]
  rintro rfl
  exact h hc

theorem closed_readable_quoteChar (c : Char) : Closed (readable (quoteChar c)) := by
  by_cases hc : c = '\x00'
  · subst hc
    exact .nil
  · rw [readable_eq_self]
    · exact (closed_quoteChar c).1
    · unfold quoteChar
      split <;> simp [Ne.symm hc]

theorem closed_readable_expansion {e : Text} (h : Allowed e) : Closed (readable ('$' :: e)) := by
  cases h with
  | @braced inner _ _ =>
    have hbrace : readable ('$' :: ('{' :: inner ++ ['}'])) = '$' :: '{' :: readable inner ++ ['}'] := by
      simp [readable]
    rw [hbrace]
    exact Closed.braced _
  | @special c hc =>
    rw [readable_eq_self]
    · exact (Allowed.special hc).closed.1
    · intro hm
      obtain rfl : '\x00' = c := by simpa using hm
      exact absurd hc (by decide)
  | @named c rest hc hr =>
    rw [readable_eq_self]
    · exact (Allowed.named hc hr).closed.1
    · intro hm
      rcases mem_cons.mp (mem_of_ne_of_mem (by decide) hm) with rfl | hm
      · exact absurd hc (by decide)
      · exact absurd (hr _ hm) (by decide)

/-- Joining lines never reaches over the end of a body. -/
theorem closed_readable_body {t : Text} {segments : List Segment} (h : parse t = .ok segments) :
    Closed (readable (body segments)) := by
  rw [body_eq, readable, filter_flatMap]
  apply Closed.flatMap
  intro s hs
  cases s with
  | literal t =>
    rw [written, filter_flatMap]
    exact Closed.flatMap fun c _ => closed_readable_quoteChar c
  | expansion e =>
    obtain ⟨_, u, rfl, hu⟩ := parse_expansion h hs
    exact closed_readable_expansion hu

theorem joinLines_flatMap {α : Type} {f : α → Text} {xs : List α} (h : ∀ x ∈ xs, Closed (f x))
    (hf : ∀ x ∈ xs, joinLines (f x) = f x) : joinLines (xs.flatMap f) = xs.flatMap f := by
  induction xs with
  | nil => rfl
  | cons x xs ih =>
    obtain ⟨hx, hxs⟩ := forall_mem_cons.mp h
    obtain ⟨hfx, hfxs⟩ := forall_mem_cons.mp hf
    rw [flatMap_cons, hx.join, hfx, ih hxs hfxs]

theorem joinLines_quoteChar (c : Char) : joinLines (quoteChar c) = quoteChar c := by
  unfold quoteChar
  split
  · rename_i h
    rcases h with rfl | rfl | rfl <;> decide
  · rfl

/-- Lines are joined only inside of expansions. -/
theorem joinLines_body {t : Text} {segments : List Segment} (h : parse t = .ok segments)
    (he : ∀ e, .expansion e ∈ segments → joinLines e = e) : joinLines (body segments) = body segments := by
  rw [body_eq]
  apply joinLines_flatMap
  · intro s hs
    cases s with
    | literal t => exact Closed.flatMap fun c _ => (closed_quoteChar c).1
    | expansion e =>
      obtain ⟨_, u, rfl, hu⟩ := parse_expansion h hs
      exact hu.closed.1
  · intro s hs
    cases s with
    | literal t => exact joinLines_flatMap (fun c _ => (closed_quoteChar c).1) fun c _ => joinLines_quoteChar c
    | expansion e => exact he e hs

theorem lf_not_mem_shownLines {body l : Text} (h : l ∈ shownLines body) : '\n' ∉ l := by
  unfold shownLines at h
  split at h
  · cases h
  · exact Text.not_mem_of_mem_splitOn h

theorem joinLines_shown {body : Text} (h : Closed (readable body)) :
    joinLines (readable (if body = [] then [] else body ++ ['\n'])) =
      (shownLines body).flatMap (· ++ ['\n']) := by
  unfold shownLines
  split
  · rfl
  · rw [Text.flatMap_splitOn, readable_append]
    exact h.join ['\n']

theorem documentText_eq (body : Text) :
    documentText body = (if body = [] then [] else body ++ ['\n']) ++ (delimiter body ++ ['\n']) := by
  unfold documentText
  split <;> simp [Statement.lines, *]

theorem takeLine_delimiter (body rest : Text) :
    ReadM.takeLine true (readable (delimiter body ++ ['\n'] ++ rest)) =
      some (delimiter body, readable rest, 1) := by
  have hplain : ∀ c ∈ delimiter body, c ≠ '\n' ∧ c ≠ '\\' := by
    intro c hc
    constructor <;> rintro rfl <;> exact absurd (mem_of_mem_delimiter hc) (by decide)
  have hzero : '\x00' ∉ delimiter body ++ ['\n'] := by
    intro hm
    rcases mem_append.mp hm with hm | hm
    · exact absurd (mem_of_mem_delimiter hm) (by decide)
    · exact absurd hm (by decide)
  rw [readable_append, readable_eq_self hzero]
  exact (ReadM.FirstLine.of_plain hplain []).taken _

/-- The delimiter has the least number of underscores with which it is no line of the body, nor a piece of
it between line feeds. The shell closes the here-document at the first shown line that is the delimiter;
there is none in a body without zero bytes and without joins in its expansions. -/
theorem delimiter_closes (body : Text) :
    (∃ k, delimiter body = baseDelimiter ++ List.replicate k '_' ∧
      IsLeast {i | baseDelimiter ++ List.replicate i '_' ∉ body.lines} k ∧ k ≤ body.lines.length) ∧
    (∀ piece ∈ body.splitOn '\n', piece ≠ delimiter body) ∧
    ∀ t segments, parse t = .ok segments → body = Prompt.body segments →
      (∀ id rest,
        let text := readable (documentText body ++ rest)
        let document := ReadM.documentLines ⟨id, delimiter body, false, false⟩ (text.length + 1) text
        document.1 = (shownLines body).takeWhile (· ≠ delimiter body) ∧ document.2.2.2 = true ∧
          (delimiter body ∉ shownLines body → document.2.1 = readable rest)) ∧
      ('\x00' ∉ body → (∀ e, .expansion e ∈ segments → joinLines e = e) → delimiter body ∉ shownLines body) := by
  refine ⟨delimiter_eq body, fun piece hp => ne_delimiter_of_mem_splitOn hp, ?_⟩
  intro t segments h hbody
  constructor
  · intro id rest text document
    have hclosed : Closed (readable body) := hbody ▸ closed_readable_body h
    have htext : text = readable (if body = [] then [] else body ++ ['\n']) ++
        readable (delimiter body ++ ['\n'] ++ rest) := by
      rw [← readable_append, ← List.append_assoc, ← documentText_eq]
    have hfuel : (readable (if body = [] then [] else body ++ ['\n'])).length ≤ text.length := by
      rw [htext, length_append]
      exact Nat.le_add_right ..
    obtain ⟨r, n, heq, hr⟩ := ReadM.documentLines_append id (takeLine_delimiter body rest)
      (joinLines_shown hclosed) (fun l => lf_not_mem_shownLines) hfuel
    have hdocument : document = _ := (congrArg _ htext).trans heq
    rw [hdocument]
    exact ⟨rfl, rfl, hr⟩
  · intro hzero he hm
    have hjoin : joinLines body = body := hbody ▸ joinLines_body h he
    unfold shownLines at hm
    split at hm
    · cases hm
    · rw [readable_eq_self hzero, hjoin] at hm
      exact ne_delimiter_of_mem_splitOn hm rfl

/-- A default value with the delimiter on two lines that the shell joins. -/
def splitDelimiter : Text := "$\x7ba:-b\n__JAIPH_\\\nPROMPT__\necho c\n\x7d"

/-- The delimiter has no underscore added, as none of the lines is equal to it, and the shell stops where it has
joined it. -/
theorem delimiter_closes_splitDelimiter :
    parse splitDelimiter = .ok [.expansion splitDelimiter] ∧ delimiter splitDelimiter = baseDelimiter ∧
      ∀ text, text = readable (documentText splitDelimiter ++ "\x7d\n") →
        (ReadM.documentLines ⟨0, baseDelimiter, false, false⟩ (text.length + 1) text).1 = ["$\x7ba:-b".toList] := by
  have hparse : parse splitDelimiter = .ok [.expansion splitDelimiter] := by
    have hx : expansion splitDelimiter.tail = .ok (some (splitDelimiter.tail, [])) := by decide
    change parse ('$' :: splitDelimiter.tail) = _
    rw [parse]
    split <;> rename_i hr <;> cases hx.symm.trans hr
    rw [parse]
    rfl
  have hdelimiter : delimiter splitDelimiter = baseDelimiter := by
    rw [delimiter, extendDelimiter, if_neg (by decide)]
  have hbody : splitDelimiter = body [.expansion splitDelimiter] := (append_nil _).symm
  obtain ⟨hlines, -, -⟩ := ((delimiter_closes splitDelimiter).2.2 _ _ hparse hbody).1 0 "\x7d\n"
  rw [hdelimiter] at hlines
  refine ⟨hparse, hdelimiter, ?_⟩
  rintro text rfl
  exact hlines.trans (by decide)

end Prompt

end Runbook
