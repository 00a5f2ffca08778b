import Runbook.Proofs.Canonical
import Runbook.Proofs.HereDocument

/-!
# Escaped quotes

The end of a prompt is found line by line, by counting the backslashes before a quote; the prompt is decoded
as one text from the left. Both agree on what a backslash escapes: decoding meets every quote behind the
backslash that escapes it, or inside the braces of an expansion.
-/

open List

namespace Runbook

/-! ## Scanning from the left -/

/-- The parts before and after the first quote that is met from the left, if every backslash escapes the
character behind it. `escaped` tells that one stands directly before the text. -/
def scanQuote (escaped : Bool) : Text → Option (Text × Text)
  | [] => none
  | c :: rest =>
    if c = '"' ∧ escaped = false then some ([], rest)
    else (scanQuote (!escaped && c == '\\') rest).map fun parts => (c :: parts.1, parts.2)

/-- Whether a text that is scanned in this way leaves the character behind it escaped; none if the text holds
a quote that is not escaped. -/
def scanEnd (escaped : Bool) : Text → Option Bool
  | [] => some escaped
  | c :: rest => if c = '"' ∧ escaped = false then none else scanEnd (!escaped && c == '\\') rest

/-- The text passed so far, last character first, ends in an odd number of backslashes. -/
def escapes (before : Text) : Bool := (before.takeWhile (· == '\\')).length % 2 == 1

theorem escapes_cons (c : Char) (before : Text) :
    escapes (c :: before) = (!escapes before && c == '\\') := by
  by_cases hc : c = '\\'
  · rcases Nat.mod_two_eq_zero_or_one (before.takeWhile (· == '\\')).length with h | h
    · simp [escapes, hc, Nat.add_mod, h]
    · simp [escapes, hc, Nat.add_mod, h]
  · simp [escapes, hc]

theorem escapes_eq_false {before : Text} :
    escapes before = false ↔ (before.takeWhile (· == '\\')).length % 2 = 0 := by
  simp [escapes]

/-- Counting backwards from each quote comes to the same as scanning from the left. -/
theorem cutQuote_eq_scanQuote (before t : Text) : cutQuote before t = scanQuote (escapes before) t := by
  induction t generalizing before with
  | nil => rfl
  | cons c rest ih =>
    simp only [cutQuote, scanQuote, ih (c :: before), escapes_cons, escapes_eq_false]

theorem scanEnd_escape (c : Char) (rest : Text) : scanEnd false ('\\' :: c :: rest) = scanEnd false rest := by
  simp [scanEnd]

theorem scanEnd_cons {c : Char} (hquote : c ≠ '"') (hslash : c ≠ '\\') (rest : Text) :
    scanEnd false (c :: rest) = scanEnd false rest := by
  simp [scanEnd, hquote, beq_eq_false_iff_ne.mpr hslash]

theorem scanEnd_append (escaped : Bool) (a b : Text) :
    scanEnd escaped (a ++ b) = (scanEnd escaped a).bind (scanEnd · b) := by
  induction a generalizing escaped with
  | nil => rfl
  | cons c a ih =>
    simp only [cons_append, scanEnd]
    split
    · rfl
    · exact ih _

/-- Whether the next character is escaped is seen from the end of the text. -/
theorem escapes_of_scanEnd {before t : Text} {b : Bool} (h : scanEnd (escapes before) t = some b) :
    b = escapes (t.reverse ++ before) := by
  induction t generalizing before with
  | nil => exact (Option.some.inj h).symm
  | cons c rest ih =>
    simp only [scanEnd] at h
    split at h
    · cases h
    · rw [← escapes_cons] at h
      rw [ih h]
      simp

theorem scanEnd_of_scanQuote_none {escaped : Bool} {t : Text} (h : scanQuote escaped t = none) :
    ∃ b, scanEnd escaped t = some b := by
  induction t generalizing escaped with
  | nil => exact ⟨escaped, rfl⟩
  | cons c rest ih =>
    simp only [scanQuote] at h
    split at h
    · cases h
    · rename_i hc
      simp only [scanEnd, hc, ↓reduceIte]
      exact ih (Option.map_eq_none_iff.mp h)

theorem scanEnd_of_scanQuote_close {escaped : Bool} {t tail : Text}
    (h : scanQuote escaped (t ++ '"' :: tail) = some (t, tail)) : scanEnd escaped t = some false := by
  induction t generalizing escaped with
  | nil =>
    simp only [nil_append, scanQuote] at h
    split at h
    · rename_i hc
      rw [hc.2]
      rfl
    · obtain ⟨parts, -, hparts⟩ := Option.map_eq_some_iff.mp h
      cases hparts
  | cons c rest ih =>
    simp only [cons_append, scanQuote] at h
    split at h
    · cases h
    · rename_i hc
      obtain ⟨parts, hrest, hparts⟩ := Option.map_eq_some_iff.mp h
      cases hparts
      simp only [scanEnd, hc, ↓reduceIte]
      exact ih hrest

/-- A line end is never escaped for the line behind it, so the lines of a prompt are scanned as one text. -/
theorem scanEnd_intercalate {init : List Text} {last : Text} {b : Bool}
    (hinit : ∀ l ∈ init, ∃ b, scanEnd false l = some b) (hlast : scanEnd false last = some b) :
    scanEnd false (['\n'].intercalate (init ++ [last])) = some b := by
  induction init with
  | nil => rwa [nil_append, intercalate_singleton]
  | cons l init ih =>
    obtain ⟨b', hl⟩ := hinit l (by simp)
    have hrest := ih fun k hk => hinit k (by simp [hk])
    rw [cons_append, intercalate_cons_of_ne_nil (by simp), scanEnd_append, scanEnd_append, hl]
    simpa [scanEnd] using hrest

/-- Between its quotes, a prompt holds no quote that is not escaped, and its end escapes nothing. -/
theorem Quotable.scanEnd {text : Text} (h : Quotable text) : scanEnd false text = some false := by
  obtain ⟨init, last, hp, hinit, hlast⟩ := h
  have htext : text = ['\n'].intercalate (text.splitOn '\n') := (intercalate_splitOn '\n').symm
  rw [htext, hp]
  refine scanEnd_intercalate ?_ ?_
  · intro l hl
    apply scanEnd_of_scanQuote_none
    rw [← hinit l hl, cutQuote_eq_scanQuote]
    rfl
  · have hclose := hlast []
    rw [cutQuote_eq_scanQuote] at hclose
    exact scanEnd_of_scanQuote_close hclose

/-! ## Decoding token by token -/

namespace Prompt

variable {ts : List Token} {a b : Text}

/-- What decoding takes at one place: a character that stands for itself, a backslash with the character that
it escapes or with the line end that it takes away, or an expansion. -/
inductive Token where
  | char (c : Char)
  | escape (c : Char)
  | join
  | expansion (text : Text)
deriving DecidableEq, Repr

def Token.text : Token → Text
  | char c => [c]
  | escape c => ['\\', c]
  | join => ['\\', '\n']
  | expansion t => t

/-- What a token adds before the segments behind it. -/
def Token.onto : Token → List Segment → List Segment
  | char c, segments | escape c, segments => consLiteral c segments
  | join, segments => segments
  | expansion t, segments => .expansion t :: segments

def tokenText (tokens : List Token) : Text := tokens.flatMap Token.text

def tokenSegments (tokens : List Token) : List Segment := tokens.foldr Token.onto []

/-- The tokens of a prompt, in the order in which they are decoded. -/
def tokens (t : Text) : Except PromptCause (List Token) :=
  match t with
  | [] => .ok []
  | '\\' :: c :: rest =>
    if isEscapable c then (tokens rest).map (.escape c :: ·)
    else if c = '\n' then (tokens rest).map (.join :: ·)
    else (tokens (c :: rest)).map (.char '\\' :: ·)
  | '`' :: _ => .error .backtick
  | '$' :: rest =>
    match h : expansion rest with
    | .error e => .error e
    | .ok none => (tokens rest).map (.char '$' :: ·)
    | .ok (some (e, after)) =>
      have := length_lt_of_expansion h
      (tokens after).map (.expansion ('$' :: e) :: ·)
  | c :: rest => (tokens rest).map (.char c :: ·)
termination_by t.length
decreasing_by all_goals grind

theorem map_map_cons (x : Except PromptCause (List Token)) (token : Token) :
    (x.map (token :: ·)).map tokenSegments = (x.map tokenSegments).map token.onto := by
  cases x <;> rfl

/-- Decoding a prompt is putting its tokens together. -/
theorem parse_eq_tokens (t : Text) : parse t = (tokens t).map tokenSegments := by
  fun_induction tokens t with
  | case1 =>
    rw [parse]
    rfl
  | case2 c rest he ih =>
    rw [parse, if_pos he, ih, map_map_cons]
    rfl
  | case3 rest he ih =>
    rw [parse, if_neg he, if_pos rfl, ih, map_map_cons]
    cases tokens rest <;> rfl
  | case4 c rest he hn ih =>
    rw [parse, if_neg he, if_neg hn, ih, map_map_cons]
    rfl
  | case5 rest =>
    rw [parse]
    rfl
  | case6 rest e hx =>
    rw [parse]
    split <;> rename_i hr <;> cases hx.symm.trans hr
    rfl
  | case7 rest hx ih | case8 rest e after hx _ ih =>
    rw [parse, map_map_cons, ← ih]
    split <;> rename_i hr <;> cases hx.symm.trans hr
    rfl
  | case9 c rest hb ht hd ih =>
    rw [parse, map_map_cons, ih]
    · rfl
    · exact hb
    · exact ht
    · exact hd

theorem tokenText_of_tokens {t : Text} (h : tokens t = .ok ts) : tokenText ts = t := by
  fun_induction tokens t generalizing ts with
  | case1 =>
    cases h
    rfl
  | case2 c rest _ ih | case3 rest _ ih | case4 c rest _ _ ih | case7 rest _ ih | case9 c rest _ _ _ ih =>
    obtain ⟨more, hmore, rfl⟩ := of_map_ok h
    simp [tokenText, Token.text, ← ih hmore]
  | case5 | case6 => cases h
  | case8 rest e after hx _ ih =>
    obtain ⟨more, hmore, rfl⟩ := of_map_ok h
    obtain ⟨rfl, -⟩ := expansion_spec hx
    simp [tokenText, Token.text, ← ih hmore]

/-! ## Where quotes stand -/

/-- A token whose text has a quote only behind the backslash that escapes it or between braces. -/
inductive Token.Quoted : Token → Prop
  | char {c : Char} (h : c ≠ '"') : Quoted (.char c)
  | escape (c : Char) : Quoted (.escape c)
  | join : Quoted .join
  | expansion {e : Text} (h : Allowed e) : Quoted (.expansion ('$' :: e))

/-- An expansion does not end in a backslash, so it escapes nothing. -/
theorem Allowed.escapes_eq_false {e : Text} (h : Allowed e) : escapes ('$' :: e).reverse = false := by
  have hlast (init : Text) {c : Char} (hc : c ≠ '\\') : escapes (init ++ [c]).reverse = false := by
    simp [escapes_cons, hc]
  cases h with
  | @braced inner _ _ => exact hlast ('$' :: '{' :: inner) (by decide)
  | @special c hc =>
    apply hlast ['$']
    rintro rfl
    exact absurd hc (by decide)
  | @named c rest hc hr =>
    obtain rfl | ⟨init, d, rfl⟩ := eq_nil_or_concat rest
    · exact hlast ['$'] (plain_of_isNameChar (isNameChar_of_isNameStart hc)).1
    · rw [concat_eq_append]
      exact hlast ('$' :: c :: init) (plain_of_isNameChar (hr d (by simp))).1

/-- Decoding a text without unescaped quotes meets none either: behind each token the scan is where decoding
goes on. -/
theorem quoted_of_tokens {t : Text} (h : tokens t = .ok ts) (hq : scanEnd false t = some false) :
    ∀ token ∈ ts, token.Quoted := by
  fun_induction tokens t generalizing ts with
  | case1 =>
    cases h
    simp
  | case2 c rest _ ih =>
    obtain ⟨more, hmore, rfl⟩ := of_map_ok h
    rw [scanEnd_escape] at hq
    exact forall_mem_cons.mpr ⟨.escape c, ih hmore hq⟩
  | case3 rest _ ih =>
    obtain ⟨more, hmore, rfl⟩ := of_map_ok h
    rw [scanEnd_escape] at hq
    exact forall_mem_cons.mpr ⟨.join, ih hmore hq⟩
  | case4 c rest he hn ih =>
    -- A backslash that decoding leaves alone stands before neither a quote nor a backslash, so the scan
    -- goes on in the same way with and without it.
    obtain ⟨more, hmore, rfl⟩ := of_map_ok h
    simp only [isEscapable, Bool.or_eq_true, beq_iff_eq, not_or] at he
    obtain ⟨⟨-, hquote⟩, hslash⟩ := he
    rw [scanEnd_escape, ← scanEnd_cons hquote hslash] at hq
    exact forall_mem_cons.mpr ⟨.char (by decide), ih hmore hq⟩
  | case5 | case6 => cases h
  | case7 rest _ ih =>
    obtain ⟨more, hmore, rfl⟩ := of_map_ok h
    rw [scanEnd_cons (by decide) (by decide)] at hq
    exact forall_mem_cons.mpr ⟨.char (by decide), ih hmore hq⟩
  | case8 rest e after hx _ ih =>
    obtain ⟨more, hmore, rfl⟩ := of_map_ok h
    obtain ⟨rfl, he⟩ := expansion_spec hx
    rw [← cons_append, scanEnd_append] at hq
    obtain ⟨b, hb, hafter⟩ := Option.bind_eq_some_iff.mp hq
    have hend : b = escapes (('$' :: e).reverse ++ []) := escapes_of_scanEnd hb
    rw [hend, append_nil, he.escapes_eq_false] at hafter
    exact forall_mem_cons.mpr ⟨.expansion he, ih hmore hafter⟩
  | case9 c rest hb _ _ ih =>
    obtain ⟨more, hmore, rfl⟩ := of_map_ok h
    have hquote : c ≠ '"' := by
      rintro rfl
      simp [scanEnd] at hq
    have hslash : c ≠ '\\' := by
      rintro rfl
      cases rest with
      | nil => simp [scanEnd] at hq
      | cons d rest => exact hb d rest rfl rfl
    rw [scanEnd_cons hquote hslash] at hq
    exact forall_mem_cons.mpr ⟨.char hquote, ih hmore hq⟩

/-- The quote between the texts `a` and `b` is taken by one of the tokens: as the second character of an
escape, or between the braces of an expansion. -/
inductive QuoteTaken : List Token → Text → Text → Prop
  | escaped (l r : List Token) :
      QuoteTaken (l ++ .escape '"' :: r) (tokenText l ++ ['\\']) (tokenText r)
  | braced (l r : List Token) (x y : Text) :
      QuoteTaken (l ++ .expansion ('$' :: '{' :: x ++ '"' :: y ++ ['}']) :: r)
        (tokenText l ++ '$' :: '{' :: x) (y ++ '}' :: tokenText r)

theorem QuoteTaken.cons (h : QuoteTaken ts a b) (token : Token) :
    QuoteTaken (token :: ts) (token.text ++ a) b := by
  cases h with
  | escaped l r => simpa [tokenText] using QuoteTaken.escaped (token :: l) r
  | braced l r x y => simpa [tokenText] using QuoteTaken.braced (token :: l) r x y

theorem split_braced {inner : Text} (h : '$' :: ('{' :: inner ++ ['}']) = a ++ '"' :: b) :
    ∃ x y, a = '$' :: '{' :: x ∧ inner = x ++ '"' :: y ∧ b = y ++ ['}'] := by
  rcases a with _ | ⟨p, _ | ⟨q, x⟩⟩
  · simp at h
  · simp at h
  · simp only [cons_append, List.cons.injEq] at h
    obtain ⟨rfl, rfl, h⟩ := h
    obtain rfl | ⟨y, d, rfl⟩ := eq_nil_or_concat b
    · simpa using (append_inj_right' h rfl)
    · rw [concat_eq_append, ← cons_append, ← List.append_assoc] at h
      obtain ⟨rfl, hd⟩ := append_inj' h rfl
      rw [concat_eq_append, ← hd]
      exact ⟨x, y, rfl, rfl, rfl⟩

theorem Token.Quoted.taken {token : Token} (h : token.Quoted) (r : List Token)
    (htext : token.text = a ++ '"' :: b) : QuoteTaken (token :: r) a (b ++ tokenText r) := by
  have hm : '"' ∈ token.text := by simp [htext]
  cases h with
  | char hc => exact absurd (mem_singleton.mp hm) hc.symm
  | escape c =>
    rcases a with _ | ⟨x, _ | ⟨y, a⟩⟩
    · simp [Token.text] at htext
    · obtain ⟨rfl, rfl, rfl⟩ : '\\' = x ∧ c = '"' ∧ b = [] := by simpa [Token.text] using htext
      exact .escaped [] r
    · simp [Token.text] at htext
  | join => exact absurd hm (by decide)
  | expansion he =>
    cases he with
    | @braced inner _ _ =>
      obtain ⟨x, y, rfl, rfl, rfl⟩ := split_braced htext
      simpa [tokenText] using QuoteTaken.braced [] r x y
    | special hc =>
      obtain rfl : '"' = _ := by simpa [Token.text] using hm
      exact absurd hc (by decide)
    | named hc hr =>
      rcases mem_cons.mp (mem_of_ne_of_mem (by decide) hm) with rfl | hm
      · exact absurd hc (by decide)
      · exact absurd (hr _ hm) (by decide)

/-- Every quote of the text stands in one of the tokens. -/
theorem quoteTaken_of_quoted (h : ∀ token ∈ ts, token.Quoted) (htext : tokenText ts = a ++ '"' :: b) :
    QuoteTaken ts a b := by
  induction ts generalizing a with
  | nil => simp [tokenText] at htext
  | cons token ts ih =>
    obtain ⟨htoken, hts⟩ := forall_mem_cons.mp h
    change token.text ++ tokenText ts = a ++ '"' :: b at htext
    rcases append_eq_append_iff.mp htext with ⟨a', rfl, hrest⟩ | ⟨c, hleft, hright⟩
    · exact (ih hts hrest).cons token
    · cases c with
      | nil =>
        rw [append_nil] at hleft
        rw [← hleft, ← append_nil token.text]
        have hrest : tokenText ts = [] ++ '"' :: b := hright.symm
        exact (ih hts hrest).cons token
      | cons d y =>
        obtain ⟨rfl, rfl⟩ := List.cons.inj hright
        exact htoken.taken ts hleft

end Prompt

/-! ## The prompts of a module -/

/-- The end of a prompt is where a scan from the left finds it. The text of a prompt ends in an even number of
backslashes, and decoding takes every quote of it as an escaped character or between the braces of an
expansion. -/
theorem Module.parse_quotes {file : Path} {source : Text} {m : Module} (h : Module.parse file source = .ok m) :
    (∀ before line : Text, before.head? ≠ some '\\' → cutQuote before line = scanQuote false line) ∧
      ∀ w ∈ m.workflows, ∀ text loc, .prompt text loc ∈ w.steps →
        (text.reverse.takeWhile (· == '\\')).length % 2 = 0 ∧
          ∀ segments, Prompt.parse text = .ok segments →
            ∃ tokens, Prompt.tokens text = .ok tokens ∧ Prompt.tokenSegments tokens = segments ∧
              Prompt.tokenText tokens = text ∧
                ∀ a b, text = a ++ '"' :: b → Prompt.QuoteTaken tokens a b := by
  refine ⟨?_, ?_⟩
  · intro before line hbefore
    rw [cutQuote_eq_scanQuote]
    cases before with
    | nil => rfl
    | cons c before =>
      have hc : c ≠ '\\' := by simpa using hbefore
      rw [escapes_cons, beq_eq_false_iff_ne.mpr hc, Bool.and_false]
  · intro w hw text loc hs
    have hquotable : Quotable text := ((Module.canonical_of_parse h).workflows w hw).2 _ hs
    have hend := hquotable.scanEnd
    refine ⟨?_, ?_⟩
    · have hlast : false = escapes (text.reverse ++ []) := escapes_of_scanEnd hend
      rw [append_nil] at hlast
      exact escapes_eq_false.mp hlast.symm
    · intro segments hparse
      rw [Prompt.parse_eq_tokens] at hparse
      obtain ⟨tokens, htokens, hsegments⟩ := of_map_ok hparse
      have htext := Prompt.tokenText_of_tokens htokens
      refine ⟨tokens, htokens, hsegments, htext, ?_⟩
      intro a b hab
      exact Prompt.quoteTaken_of_quoted (Prompt.quoted_of_tokens htokens hend) (htext.trans hab)

/-- A prompt with escaped quotes, one of them inside the braces of an expansion. -/
theorem Module.parse_quotes_default :
    ∃ tokens, Prompt.tokens "say \\\"hi\\\" $\x7bname:-\\\"you\x7d" = .ok tokens ∧
      Prompt.QuoteTaken tokens "say \\" "hi\\\" $\x7bname:-\\\"you\x7d" ∧
        Prompt.QuoteTaken tokens "say \\\"hi\\\" $\x7bname:-\\" "you\x7d" := by
  have hparse : Module.parse "f" "workflow w \x7b\n  prompt \"say \\\"hi\\\" $\x7bname:-\\\"you\x7d\"\n\x7d\n" =
      .ok ⟨"f", [], [], [], [], [⟨"w", [], [.prompt "say \\\"hi\\\" $\x7bname:-\\\"you\x7d" ⟨2, 3⟩], ⟨1, 1⟩⟩]⟩ := by
    decide
  have hsegments : Prompt.parse "say \\\"hi\\\" $\x7bname:-\\\"you\x7d" =
      .ok [.literal "say \"hi\" ", .expansion "$\x7bname:-\\\"you\x7d"] := by
    cbv
  obtain ⟨-, hquotes⟩ := (Module.parse_quotes hparse).2 _ mem_cons_self _ _ mem_cons_self
  obtain ⟨tokens, htokens, -, -, htaken⟩ := hquotes _ hsegments
  exact ⟨tokens, htokens, htaken _ _ rfl, htaken _ _ rfl⟩

end Runbook
