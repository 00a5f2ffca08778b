import Runbook.Event
import Runbook.Proofs.Clock

/-!
# Events and their lines

An event line is an object whose members stand in a fixed order. Strings in it are escaped as far as the
runtime library escapes them, and read back as they were exactly if nothing that needs an escape was left.
-/

open List

namespace Runbook

namespace Event

/-- What stands for one character in an escaped text. -/
def escapeChar : Char → Text
  | '\\' => ['\\', '\\']
  | '"' => ['\\', '"']
  | '\n' => ['\\', 'n']
  | '\r' => ['\\', 'r']
  | '\t' => ['\\', 't']
  | c => [c]

/-- No replacement finds a character that an earlier one wrote, so together they act on each character
apart. -/
theorem escape_eq (t : Text) : escape t = t.flatMap escapeChar := by
  simp only [escape, escapes, foldl_cons, foldl_nil, flatMap_assoc]
  apply flatMap_congr
  intro c _
  fun_cases escapeChar c with
  | case6 =>
    rename_i h₁ h₂ h₃ h₄ h₅
    simp [if_neg h₁, if_neg h₂, if_neg h₃, if_neg h₄, if_neg h₅]
  | _ => rfl

/-- A character that may stand in a string as it is, or that the runtime library escapes. -/
def IsTellable (c : Char) : Prop := c.toNat < 0x20 → c = '\n' ∨ c = '\r' ∨ c = '\t'

instance (c : Char) : Decidable (IsTellable c) := inferInstanceAs (Decidable (_ → _))

def Tellable (t : Text) : Prop := ∀ c ∈ t, IsTellable c

instance (t : Text) : Decidable (Tellable t) := List.decidableBAll IsTellable t

theorem tellable_cons {c : Char} {t : Text} : Tellable (c :: t) ↔ IsTellable c ∧ Tellable t :=
  forall_mem_cons

theorem escapeChar_cases (c : Char) :
    (∃ e, escapeChar c = ['\\', e] ∧ e ≠ 'u' ∧ Json.escaped e = some c ∧ IsTellable c) ∨
      escapeChar c = [c] ∧ c ≠ '\\' ∧ c ≠ '"' ∧ c ≠ '\n' ∧ c ≠ '\r' ∧ c ≠ '\t' := by
  unfold escapeChar
  split
  all_goals first
    | exact .inl ⟨_, rfl, by decide, rfl, by decide⟩
    | exact .inr ⟨rfl, by assumption, by assumption, by assumption, by assumption, by assumption⟩

end Event

namespace Json
open Event

/-! ## Strings -/

theorem readPieces_escaped {e c : Char} (hu : e ≠ 'u') (h : escaped e = some c) (rest : Text) :
    readPieces ('\\' :: e :: rest) = (readPieces rest).bind fun p => some (.char c :: p.1, p.2) := by
  rw [readPieces]
  · rw [h]
    rfl
  · intro _ _ _ _ _ he
    exact absurd he hu

theorem readPieces_plain {c : Char} (h₁ : c ≠ '\\') (h₂ : c ≠ '"') (rest : Text) :
    readPieces (c :: rest) =
      if c.toNat < 0x20 then none else (readPieces rest).bind fun p => some (.char c :: p.1, p.2) := by
  rw [readPieces]
  · simp only [h₁, or_false]
    rfl
  · exact h₂
  · intro _ _ _ _ _ he
    exact absurd he h₁
  · intro _ _ he
    exact absurd he h₁

theorem readPieces_escapeChar (c : Char) (rest : Text) :
    readPieces (escapeChar c ++ rest) =
      if IsTellable c then (readPieces rest).bind fun p => some (.char c :: p.1, p.2) else none := by
  rcases escapeChar_cases c with ⟨e, hc, hu, he, htell⟩ | ⟨hc, h₁, h₂, h₃, h₄, h₅⟩
  · rw [hc, if_pos htell]
    exact readPieces_escaped hu he rest
  · rw [hc, singleton_append, readPieces_plain h₁ h₂]
    by_cases hlow : c.toNat < 0x20
    · have htell : ¬ IsTellable c := fun h => by
        rcases h hlow with h | h | h
        · exact h₃ h
        · exact h₄ h
        · exact h₅ h
      rw [if_pos hlow, if_neg htell]
    · have htell : IsTellable c := fun h => absurd h hlow
      rw [if_neg hlow, if_pos htell]

theorem readPieces_escaped_text (t rest : Text) :
    readPieces (t.flatMap escapeChar ++ '"' :: rest) =
      if Tellable t then some (t.map .char, rest) else none := by
  induction t with
  | nil => rw [if_pos (by decide)]; rfl
  | cons c t ih =>
    rw [flatMap_cons, List.append_assoc, readPieces_escapeChar, ih]
    by_cases hc : IsTellable c
    · by_cases ht : Tellable t
      · rw [if_pos hc, if_pos ht, if_pos (tellable_cons.mpr ⟨hc, ht⟩)]
        rfl
      · rw [if_pos hc, if_neg ht, if_neg fun h => ht (tellable_cons.mp h).2]
        rfl
    · rw [if_neg hc, if_neg fun h => hc (tellable_cons.mp h).1]

theorem piecesText_chars (t : Text) : piecesText (t.map .char) = some t := by
  induction t with
  | nil => rfl
  | cons c t ih => simp [piecesText, ih]

theorem skipSpace_cons {c : Char} (h : isSpace c = false) (t : Text) : skipSpace (c :: t) = c :: t := by
  simp [skipSpace, h]

theorem readValue_quote (fuel : Nat) (t rest : Text) :
    readValue (fuel + 1) (quote t ++ rest) =
      if Tellable t then some (.string (some t), rest) else none := by
  have hquote : quote t ++ rest = '"' :: (t.flatMap escapeChar ++ '"' :: rest) := by
    simp [quote, escape_eq]
  rw [hquote, readValue, skipSpace_cons (by decide)]
  simp only [readPieces_escaped_text]
  by_cases ht : Tellable t
  · simp [ht, piecesText_chars]
  · simp [ht]

/-! ## Numbers -/

theorem digitsValue_ofNat (n : Nat) : digitsValue (Text.ofNat n) = n :=
  Nat.ofDigitChars_toDigits (by decide) (by decide)

theorem isDigit_of_mem_ofNat {n : Nat} {c : Char} (h : c ∈ Text.ofNat n) : c.isDigit = true :=
  Nat.isDigit_of_mem_toDigits (by decide) (by decide) h

theorem head?_ofNat {n : Nat} (h : 0 < n) : (Text.ofNat n).head? ≠ some '0' := by
  induction n using Nat.strongRecOn with
  | ind n ih =>
    unfold Text.ofNat at ih ⊢
    by_cases hn : n < 10
    · rw [Nat.toDigits_of_lt_base hn]
      have hdigit : ∀ m < 10, 0 < m → [m.digitChar].head? ≠ some '0' := by decide
      exact hdigit n hn h
    · rw [Nat.toDigits_of_base_le (by decide) (by omega),
        head?_append, head?_eq_some_head Nat.toDigits_ne_nil, Option.some_or,
        ← head?_eq_some_head Nat.toDigits_ne_nil]
      exact ih (n / 10) (by omega) (by omega)

theorem length_ofNat_of_head? {n : Nat} (h : (Text.ofNat n).head? = some '0') :
    (Text.ofNat n).length = 1 := by
  by_cases hn : 0 < n
  · exact absurd h (head?_ofNat hn)
  · rw [Nat.eq_zero_of_not_pos hn]
    rfl

theorem ofInt_cons (n : Int) : ∃ d ds, Text.ofInt n = d :: ds ∧ (d.isDigit = true ∨ d = '-') := by
  cases n with
  | ofNat m =>
    obtain ⟨d, ds, hm⟩ := exists_cons_of_ne_nil (l := Text.ofNat m) Nat.toDigits_ne_nil
    exact ⟨d, ds, hm, .inl (isDigit_of_mem_ofNat (n := m) (by simp [hm]))⟩
  | negSucc m => exact ⟨'-', _, rfl, .inr rfl⟩

theorem readValue_number (fuel : Nat) {d : Char} (h : d.isDigit = true ∨ d = '-') (t : Text) :
    readValue (fuel + 1) (d :: t) = (readNumber (d :: t)).map fun p => (.number p.1, p.2) := by
  have hne : ∀ e : Char, e.isDigit = false → e ≠ '-' → d ≠ e := by
    rintro e he hdash rfl
    rcases h with h | h
    · rw [he] at h
      cases h
    · exact hdash h
  have hspace : isSpace d = false := by
    simp [isSpace, hne]
  rw [readValue, skipSpace_cons hspace]
  split
  all_goals first
    | rfl
    | (rename_i heq
       exact absurd (List.cons.inj heq).1 (hne _ (by decide) (by decide)))

section

variable {c : Char} (hc : c = ',' ∨ c = '}')

include hc

theorem readDigits_append {ds : Text} (hne : ds ≠ []) (hds : ∀ d ∈ ds, d.isDigit = true) (rest : Text) :
    readDigits (ds ++ c :: rest) = some (ds, c :: rest) := by
  have hdigit : c.isDigit = false := by
    rcases hc with rfl | rfl <;> rfl
  have htake : (ds ++ c :: rest).takeWhile Char.isDigit = ds := by
    simp [takeWhile_append_of_pos hds, hdigit]
  have hdrop : (ds ++ c :: rest).dropWhile Char.isDigit = c :: rest := by
    simp [dropWhile_append_of_pos hds, hdigit]
  rw [readDigits, htake, hdrop, if_neg hne]

theorem readFraction_none (rest : Text) : readFraction (c :: rest) = some (false, c :: rest) := by
  rcases hc with rfl | rfl <;> rfl

theorem readExponent_none (rest : Text) : readExponent (c :: rest) = some (false, c :: rest) := by
  rcases hc with rfl | rfl <;> rfl

theorem readNumber_ofInt (n : Int) (rest : Text) :
    readNumber (Text.ofInt n ++ c :: rest) = some (some n, c :: rest) := by
  have hdigits : ∀ m, readDigits (Text.ofNat m ++ c :: rest) = some (Text.ofNat m, c :: rest) := fun m =>
    readDigits_append hc Nat.toDigits_ne_nil (fun _ => isDigit_of_mem_ofNat) rest
  have hzero : ∀ m, ¬ ((Text.ofNat m).head? = some '0' ∧ (Text.ofNat m).length ≠ 1) := fun m h =>
    h.2 (length_ofNat_of_head? h.1)
  cases n with
  | ofNat m =>
    have hminus : (Text.ofNat m ++ c :: rest).head? ≠ some '-' := by
      obtain ⟨d, ds, hm⟩ := exists_cons_of_ne_nil (l := Text.ofNat m) Nat.toDigits_ne_nil
      have hd : d.isDigit = true := isDigit_of_mem_ofNat (n := m) (by simp [hm])
      rw [hm]
      rintro ⟨⟩
      cases hd
    simp only [readNumber, Text.ofInt, hminus, decide_false, Bool.false_eq_true, ↓reduceIte, hdigits,
      Option.bind_eq_bind, Option.bind_some, hzero, readFraction_none hc, readExponent_none hc,
      Bool.or_self, Bool.false_and, digitsValue_ofNat]
    rfl
  | negSucc m =>
    have hvalue : -((m : Int) + 1) = Int.negSucc m := rfl
    simp [readNumber, Text.ofInt, hdigits, hzero, readFraction_none hc, readExponent_none hc,
      digitsValue_ofNat, hvalue]

theorem readValue_ofInt (fuel : Nat) (n : Int) (rest : Text) :
    readValue (fuel + 1) (Text.ofInt n ++ c :: rest) = some (.number (some n), c :: rest) := by
  obtain ⟨d, ds, hn, hd⟩ := ofInt_cons n
  have hread := readNumber_ofInt hc n rest
  rw [hn, cons_append] at hread ⊢
  rw [readValue_number fuel hd, hread]
  rfl

end

/-! ## Members -/

/-- A member as it is written, with what its value is read as. -/
structure Member where
  name : Text
  written : Text
  value : Option Json

namespace Member

def text (m : Member) : Text := quote m.name ++ ':' :: m.written

def read (m : Member) : Option (Option Text × Json) := m.value.map (some m.name, ·)

/-- Whatever follows in the object, the member is read as it says. -/
structure Reads (m : Member) : Prop where
  name : Tellable m.name
  value : ∀ fuel c rest, c = ',' ∨ c = '}' →
    readValue (fuel + 1) (m.written ++ c :: rest) = m.value.map (·, c :: rest)

def string (name t : Text) : Member :=
  ⟨name, quote t, if Tellable t then some (.string (some t)) else none⟩

def number (name : Text) (n : Int) : Member := ⟨name, Text.ofInt n, some (.number (some n))⟩

theorem reads_string {name : Text} (h : Tellable name) (t : Text) : (string name t).Reads := by
  refine ⟨h, fun fuel c rest _ => ?_⟩
  simp only [string, readValue_quote]
  split <;> rfl

theorem reads_number {name : Text} (h : Tellable name) (n : Int) : (number name n).Reads :=
  ⟨h, fun fuel _ rest hc => readValue_ofInt hc fuel n rest⟩

theorem Reads.last {m : Member} (h : m.Reads) (fuel : Nat) (rest : Text) :
    readMembers (fuel + 2) (m.text ++ '}' :: rest) = m.read.map fun p => ([p], rest) := by
  have htext : m.text ++ '}' :: rest =
      '"' :: (m.name.flatMap escapeChar ++ '"' :: (':' :: (m.written ++ '}' :: rest))) := by
    simp [text, quote, escape_eq]
  rw [htext, readMembers, skipSpace_cons (by decide)]
  simp only [readPieces_escaped_text, h.name, ↓reduceIte, Option.bind_eq_bind, Option.bind_some,
    skipSpace_cons (c := ':') (by decide), h.value fuel '}' rest (.inr rfl), read]
  cases m.value with
  | none => rfl
  | some j =>
    simp only [Option.map_some, Option.bind_some, skipSpace_cons (c := '}') (by decide), piecesText_chars]
    rfl

theorem Reads.next {m : Member} (h : m.Reads) (fuel : Nat) (rest : Text) :
    readMembers (fuel + 2) (m.text ++ ',' :: rest) =
      m.read.bind fun p => (readMembers (fuel + 1) rest).map fun q => (p :: q.1, q.2) := by
  have htext : m.text ++ ',' :: rest =
      '"' :: (m.name.flatMap escapeChar ++ '"' :: (':' :: (m.written ++ ',' :: rest))) := by
    simp [text, quote, escape_eq]
  rw [htext, readMembers, skipSpace_cons (by decide)]
  simp only [readPieces_escaped_text, h.name, ↓reduceIte, Option.bind_eq_bind, Option.bind_some,
    skipSpace_cons (c := ':') (by decide), h.value fuel ',' rest (.inl rfl), read]
  cases m.value with
  | none => rfl
  | some j =>
    simp only [Option.map_some, Option.bind_some, skipSpace_cons (c := ',') (by decide), piecesText_chars]
    cases readMembers (fuel + 1) rest with
    | none => rfl
    | some q => rfl

end Member

theorem readMembers_intercalate {ms : List Member} (h : ∀ m ∈ ms, m.Reads) (hne : ms ≠ []) {fuel : Nat}
    (hfuel : ms.length < fuel) (rest : Text) :
    readMembers fuel ([','].intercalate (ms.map Member.text) ++ '}' :: rest) =
      (ms.mapM Member.read).map (·, rest) := by
  induction ms generalizing fuel with
  | nil => exact absurd rfl hne
  | cons m ms ih =>
    have hm := h m (by simp)
    cases ms with
    | nil =>
      obtain ⟨f, rfl⟩ : ∃ f, fuel = f + 2 := ⟨fuel - 2, by simp at hfuel; omega⟩
      rw [map_singleton, intercalate_singleton, hm.last, mapM_cons, mapM_nil]
      cases m.read with
      | none => rfl
      | some p => rfl
    | cons n ms =>
      obtain ⟨f, rfl⟩ : ∃ f, fuel = f + 2 := ⟨fuel - 2, by simp at hfuel; omega⟩
      have hlength : (n :: ms).length < f + 1 := by simp at hfuel ⊢; omega
      have hrest := ih (fun m hm => h m (by simp [hm])) (by simp) hlength
      have hjoin : [','].intercalate ((m :: n :: ms).map Member.text) ++ '}' :: rest =
          m.text ++ ',' :: ([','].intercalate ((n :: ms).map Member.text) ++ '}' :: rest) := by
        simp [intercalate_cons_cons]
      rw [hjoin, hm.next, hrest, mapM_cons (l := n :: ms)]
      cases m.read with
      | none => rfl
      | some p =>
        cases (n :: ms).mapM Member.read with
        | none => rfl
        | some ps => rfl

theorem length_le_intercalate (ms : List Member) :
    ms.length ≤ ([','].intercalate (ms.map Member.text)).length := by
  induction ms with
  | nil => exact Nat.zero_le _
  | cons m ms ih =>
    have hm : 1 ≤ m.text.length := by
      rw [Member.text, length_append, length_cons]
      omega
    cases ms with
    | nil => simpa using hm
    | cons n ms =>
      have hjoin : [','].intercalate ((m :: n :: ms).map Member.text) =
          m.text ++ ',' :: [','].intercalate ((n :: ms).map Member.text) := by
        simp [intercalate_cons_cons]
      rw [hjoin]
      simp only [length_append, length_cons] at ih ⊢
      omega

theorem parse_members {ms : List Member} (h : ∀ m ∈ ms, m.Reads) (hne : ms ≠ []) :
    parse ('{' :: ([','].intercalate (ms.map Member.text) ++ ['}'])) =
      (ms.mapM Member.read).map object := by
  obtain ⟨t, ht⟩ : ∃ t, [','].intercalate (ms.map Member.text) ++ ['}'] = '"' :: t := by
    obtain ⟨m, rest, rfl⟩ := exists_cons_of_ne_nil hne
    cases rest with
    | nil => exact ⟨_, rfl⟩
    | cons n rest => exact ⟨_, rfl⟩
  have hlen : ms.length < ('{' :: ([','].intercalate (ms.map Member.text) ++ ['}'])).length := by
    have hjoin := length_le_intercalate ms
    rw [length_cons, length_append]
    omega
  have hmembers := readMembers_intercalate h hne hlen []
  rw [parse, readValue, skipSpace_cons (by decide)]
  simp only [ht] at hmembers ⊢
  rw [skipSpace_cons (by decide), hmembers]
  cases ms.mapM Member.read with
  | none => rfl
  | some ps => rfl

end Json

/-! ## Lines -/

namespace Event

variable {e : Event} {m : Member} {t name : Text}
open Json

/-- An event as the runtime library tells it: the kind is one of the words for kinds, the time is
written in one way, and the last four fields are there at the end of a step. -/
inductive Told : Event → Prop where
  | start (func name : Text) (kind : RowKind) (time : DateTime) :
    Told ⟨.start, func, kind.text, name, time.iso, none, none, none, none⟩
  | finish (func name : Text) (kind : RowKind) (time : DateTime) {status elapsed : Int}
    (hstatus : -2147483648 ≤ status ∧ status ≤ 2147483647)
    (helapsed : -9223372036854775808 ≤ elapsed ∧ elapsed ≤ 9223372036854775807) (out err : Text) :
    Told ⟨.finish, func, kind.text, name, time.iso, some status, some elapsed, some out, some err⟩

/-- The texts of an event that are escaped in its line. -/
def strings (e : Event) : List Text := [e.func, e.name] ++ e.outFile.toList ++ e.errFile.toList

/-- The members of the object that tells an event. -/
def members (e : Event) : List Member :=
  [.string "type" e.phase.text, .string "func" e.func, .string "kind" e.kind, .string "name" e.name,
    .string "ts" e.time] ++
  match e.phase with
  | .start => []
  | .finish =>
    [.number "status" (e.status.getD 0), .number "elapsed_ms" (e.elapsedMs.getD 0),
      .string "out_file" (e.outFile.getD []), .string "err_file" (e.errFile.getD [])]

theorem of_mem_members (h : m ∈ e.members) :
    ∃ name, Tellable name ∧ ((∃ t, m = .string name t) ∨ ∃ n, m = .number name n) := by
  obtain ⟨phase, func, kind, name, time, status, elapsedMs, outFile, errFile⟩ := e
  cases phase with
  | start =>
    simp only [members, append_nil, mem_cons, not_mem_nil, or_false] at h
    rcases h with rfl | rfl | rfl | rfl | rfl
    all_goals exact ⟨_, by decide, .inl ⟨_, rfl⟩⟩
  | finish =>
    simp only [members, cons_append, nil_append, mem_cons, not_mem_nil, or_false] at h
    rcases h with rfl | rfl | rfl | rfl | rfl | rfl | rfl | rfl | rfl
    all_goals first
      | exact ⟨_, by decide, .inl ⟨_, rfl⟩⟩
      | exact ⟨_, by decide, .inr ⟨_, rfl⟩⟩

theorem reads_members (e : Event) : ∀ m ∈ e.members, m.Reads := by
  intro m hm
  obtain ⟨name, hname, ⟨t, rfl⟩ | ⟨n, rfl⟩⟩ := of_mem_members hm
  · exact Member.reads_string hname t
  · exact Member.reads_number hname n

/-! Texts in which nothing is escaped or refused. -/

def IsPlain (c : Char) : Prop := 0x20 ≤ c.toNat ∧ c ≠ '"' ∧ c ≠ '\\'

instance (c : Char) : Decidable (IsPlain c) := inferInstanceAs (Decidable (_ ∧ _))

def Plain (t : Text) : Prop := ∀ c ∈ t, IsPlain c

instance (t : Text) : Decidable (Plain t) := List.decidableBAll IsPlain t

theorem IsPlain.escapeChar {c : Char} (h : IsPlain c) : Event.escapeChar c = [c] := by
  obtain ⟨hlow, hquote, hback⟩ := h
  unfold Event.escapeChar
  split
  all_goals first
    | contradiction
    | exact absurd hlow (by decide)
    | rfl

theorem quote_plain (h : Plain t) : quote t = '"' :: t ++ ['"'] := by
  have hflat : t.flatMap Event.escapeChar = t := by
    induction t with
    | nil => rfl
    | cons c t ih =>
      rw [flatMap_cons, (h c (by simp)).escapeChar, ih fun d hd => h d (by simp [hd]),
        singleton_append]
  rw [quote, escape_eq, hflat]

theorem tellable_plain (h : Plain t) : Tellable t :=
  fun c hc hlow => absurd hlow (Nat.not_lt_of_le (h c hc).1)

theorem isPlain_digit {c : Char} (h : c.isDigit = true) : IsPlain c := by
  have hc := (Char.isDigit_iff_toNat.mp h).1
  have h0 : '0'.toNat = 48 := rfl
  refine ⟨by omega, ?_, ?_⟩
  · rintro rfl
    cases h
  · rintro rfl
    cases h

theorem plain_phase {p : Phase} : Plain p.text := by
  cases p <;> decide

theorem plain_kind {k : RowKind} : Plain k.text := by
  cases k <;> decide

theorem plain_iso {d : DateTime} : Plain d.iso := by
  intro c h
  have hdigit : ∀ {width n}, c ∈ padded width n → IsPlain c := fun h =>
    isPlain_digit (isDigit_of_mem_padded h)
  have hmark : ∀ x, IsPlain x → c ∈ [x] → IsPlain c := fun x hx h => by
    rwa [mem_singleton.mp h]
  simp only [DateTime.iso, mem_append] at h
  rcases h with ((((((((((h | h) | h) | h) | h) | h) | h) | h) | h) | h) | h) | h
  · exact hdigit h
  · exact hmark '-' (by decide) h
  · exact hdigit h
  · exact hmark '-' (by decide) h
  · exact hdigit h
  · exact hmark 'T' (by decide) h
  · exact hdigit h
  · exact hmark ':' (by decide) h
  · exact hdigit h
  · exact hmark ':' (by decide) h
  · exact hdigit h
  · exact hmark 'Z' (by decide) h

theorem Told.line_eq (h : e.Told) :
    e.line = marker ++ '{' :: ([','].intercalate (e.members.map Member.text) ++ ['}']) := by
  cases h with
  | start func name kind time =>
    simp only [line, members, Member.string, quote_plain plain_phase, quote_plain plain_kind,
      quote_plain plain_iso]
    rfl
  | finish func name kind time hstatus helapsed out err =>
    simp only [line, members, Member.string, Member.number, quote_plain plain_phase,
      quote_plain plain_kind, quote_plain plain_iso]
    rfl

/-! ## Line ends -/

def SingleLine (t : Text) : Prop := ∀ c ∈ t, c ≠ '\n' ∧ c ≠ '\r'

instance (t : Text) : Decidable (SingleLine t) := List.decidableBAll (fun c => c ≠ '\n' ∧ c ≠ '\r') t

theorem SingleLine.append {s : Text} (hs : SingleLine s) (ht : SingleLine t) : SingleLine (s ++ t) :=
  forall_mem_append.mpr ⟨hs, ht⟩

theorem singleLine_escapeChar (c : Char) : SingleLine (Event.escapeChar c) := by
  rcases escapeChar_cases c with ⟨e, hc, -, he, -⟩ | ⟨hc, -, -, hn, hr, -⟩
  · have hletter : e ≠ '\n' ∧ e ≠ '\r' := by
      constructor
      · rintro rfl
        cases he
      · rintro rfl
        cases he
    rw [hc]
    exact forall_mem_cons.mpr ⟨by decide, forall_mem_singleton.mpr hletter⟩
  · rw [hc]
    exact forall_mem_singleton.mpr ⟨hn, hr⟩

theorem singleLine_escape (t : Text) : SingleLine (escape t) := by
  intro c hc
  rw [escape_eq] at hc
  obtain ⟨d, -, hd⟩ := mem_flatMap.mp hc
  exact singleLine_escapeChar d c hd

theorem singleLine_quote (t : Text) : SingleLine (quote t) := by
  have hopen : SingleLine ['"'] := by decide
  exact (hopen.append (singleLine_escape t)).append hopen

theorem singleLine_ofInt (n : Int) : SingleLine (Text.ofInt n) := by
  have hnat : ∀ m, SingleLine (Text.ofNat m) := by
    intro m c hc
    have hd := isDigit_of_mem_ofNat hc
    constructor
    · rintro rfl
      cases hd
    · rintro rfl
      cases hd
  cases n with
  | ofNat m => exact hnat m
  | negSucc m => exact forall_mem_cons.mpr ⟨by decide, hnat (m + 1)⟩

theorem singleLine_member (h : SingleLine m.written) : SingleLine m.text :=
  (singleLine_quote m.name).append (forall_mem_cons.mpr ⟨by decide, h⟩)

theorem singleLine_members (e : Event) : ∀ m ∈ e.members, SingleLine m.text := by
  intro m hm
  obtain ⟨name, -, ⟨t, rfl⟩ | ⟨n, rfl⟩⟩ := of_mem_members hm
  · exact singleLine_member (singleLine_quote t)
  · exact singleLine_member (singleLine_ofInt n)

theorem singleLine_intercalate {parts : List Text} (h : ∀ t ∈ parts, SingleLine t) :
    SingleLine ([','].intercalate parts) := by
  induction parts with
  | nil => exact fun _ hc => absurd hc (by simp)
  | cons t parts ih =>
    have ht := h t (by simp)
    by_cases hparts : parts = []
    · rw [hparts, intercalate_singleton]
      exact ht
    · have hcomma : SingleLine [','] := by decide
      rw [intercalate_cons_of_ne_nil hparts]
      exact (ht.append hcomma).append (ih fun u hu => h u (by simp [hu]))

theorem Told.singleLine (h : e.Told) : SingleLine e.line := by
  have hmarker : SingleLine marker := by decide
  have hjoin : SingleLine ([','].intercalate (e.members.map Member.text)) := by
    refine singleLine_intercalate fun t ht => ?_
    obtain ⟨m, hm, rfl⟩ := mem_map.mp ht
    exact singleLine_members e m hm
  rw [h.line_eq]
  exact hmarker.append (forall_mem_cons.mpr ⟨by decide, hjoin.append (by decide)⟩)

/-! ## Reading lines back -/

theorem phaseOf_text (p : Phase) : phaseOf (.string (some p.text)) = some p := by
  cases p <;> rfl

theorem integerOf_of_bounds {lo hi n : Int} (h : lo ≤ n ∧ n ≤ hi) :
    integerOf lo hi (.number (some n)) = some n := if_pos h

def commonFields (p : Phase) (func kind name time : Text) : List (Option Text × Json) :=
  [(some "type", .string (some p.text)), (some "func", .string (some func)),
    (some "kind", .string (some kind)), (some "name", .string (some name)),
    (some "ts", .string (some time))]

def endingFields (status elapsed : Int) (out err : Text) : List (Option Text × Json) :=
  [(some "status", .number (some status)), (some "elapsed_ms", .number (some elapsed)),
    (some "out_file", .string (some out)), (some "err_file", .string (some err))]

theorem ofJson_start (p : Phase) (func kind name time : Text) :
    ofJson (.object (commonFields p func kind name time)) =
      some ⟨p, func, kind, name, time, none, none, none, none⟩ := by
  simp [ofJson, commonFields, fieldNames, valuesOf, ofFields, phaseOf_text, textOf, withDefault,
    Event.optional]

theorem ofJson_finish (p : Phase) (func kind name time : Text) {status elapsed : Int}
    (hstatus : -2147483648 ≤ status ∧ status ≤ 2147483647)
    (helapsed : -9223372036854775808 ≤ elapsed ∧ elapsed ≤ 9223372036854775807) (out err : Text) :
    ofJson (.object (commonFields p func kind name time ++ endingFields status elapsed out err)) =
      some ⟨p, func, kind, name, time, some status, some elapsed, some out, some err⟩ := by
  simp [ofJson, commonFields, endingFields, fieldNames, valuesOf, ofFields, phaseOf_text, textOf,
    withDefault, Event.optional, integerOf_of_bounds hstatus, integerOf_of_bounds helapsed]

theorem read_string :
    (Member.string name t).read = if Tellable t then some (some name, .string (some t)) else none := by
  simp only [Member.read, Member.string]
  split <;> rfl

theorem read_string_plain (h : Plain t) : (Member.string name t).read = some (some name, .string (some t)) := by
  rw [read_string, if_pos (tellable_plain h)]

theorem read_number {n : Int} :
    (Member.number name n).read = some (some name, .number (some n)) := rfl

theorem Told.parse_line_eq (h : e.Told) :
    parse e.line = (e.members.mapM Member.read).bind fun ms => ofJson (.object ms) := by
  have hne : e.members ≠ [] := by simp [members]
  have hpayload : marker.isPrefixOf? e.line =
      some ('{' :: ([','].intercalate (e.members.map Member.text) ++ ['}'])) :=
    isPrefixOf?_eq_some_iff_append_eq.mpr h.line_eq.symm
  simp only [parse, hpayload, parse_members (reads_members e) hne]
  cases e.members.mapM Member.read with
  | none => rfl
  | some ms => rfl

theorem mapM_read_of_none {ms : List Member} (hm : m ∈ ms) (h : m.read = none) :
    ms.mapM Member.read = none := by
  induction ms with
  | nil => cases hm
  | cons n ms ih =>
    rw [mapM_cons]
    rcases mem_cons.mp hm with rfl | hm
    · rw [h]
      rfl
    · rw [ih hm]
      cases n.read with
      | none => rfl
      | some p => rfl

theorem Told.exists_member (h : e.Told) (ht : t ∈ e.strings) : ∃ name, Member.string name t ∈ e.members := by
  cases h with
  | start func name kind time =>
    simp only [strings, Option.toList_none, append_nil, mem_cons, not_mem_nil, or_false] at ht
    rcases ht with rfl | rfl
    · exact ⟨"func", by simp [members]⟩
    · exact ⟨"name", by simp [members]⟩
  | finish func name kind time hstatus helapsed out err =>
    simp only [strings, Option.toList_some, cons_append, nil_append, mem_cons,
      not_mem_nil, or_false] at ht
    rcases ht with rfl | rfl | rfl | rfl
    · exact ⟨"func", by simp [members]⟩
    · exact ⟨"name", by simp [members]⟩
    · exact ⟨"out_file", by simp [members]⟩
    · exact ⟨"err_file", by simp [members]⟩

theorem Told.parse_of_tellable (h : e.Told) (ht : ∀ t ∈ e.strings, Tellable t) : parse e.line = some e := by
  rw [h.parse_line_eq]
  cases h with
  | start func name kind time =>
    have hmembers : (members ⟨.start, func, kind.text, name, time.iso, none, none, none, none⟩).mapM
        Member.read = some (commonFields .start func kind.text name time.iso) := by
      simp only [members, append_nil, mapM_cons, mapM_nil,
        read_string_plain plain_phase, read_string_plain plain_kind,
        read_string_plain plain_iso, read_string, ht func (by simp [strings]),
        ht name (by simp [strings]), ↓reduceIte]
      rfl
    rw [hmembers, Option.bind_some, ofJson_start]
  | @finish func name kind time status elapsed hstatus helapsed out err =>
    have hmembers : (members ⟨.finish, func, kind.text, name, time.iso, some status, some elapsed,
        some out, some err⟩).mapM Member.read =
          some (commonFields .finish func kind.text name time.iso ++
            endingFields status elapsed out err) := by
      simp only [members, cons_append, nil_append, mapM_cons, mapM_nil,
        read_string_plain plain_phase, read_string_plain plain_kind,
        read_string_plain plain_iso, read_string, read_number, Option.getD_some,
        ht func (by simp [strings]), ht name (by simp [strings]), ht out (by simp [strings]),
        ht err (by simp [strings]), ↓reduceIte]
      rfl
    rw [hmembers, Option.bind_some, ofJson_finish _ _ _ _ _ hstatus helapsed]

theorem Told.parse_of_not_tellable (h : e.Told) (hmem : t ∈ e.strings) (ht : ¬ Tellable t) :
    parse e.line = none := by
  obtain ⟨name, hm⟩ := h.exists_member hmem
  have hread : (Member.string name t).read = none := by rw [read_string, if_neg ht]
  rw [h.parse_line_eq, mapM_read_of_none hm hread]
  rfl

/-- An event line ends no line within itself. It is read back as the event that it tells exactly if the
texts in it hold no control characters but those that are escaped, and else as no event. -/
theorem parse_line {e : Event} (h : e.Told) :
    SingleLine e.line ∧ (parse e.line = some e ↔ ∀ t ∈ e.strings, Tellable t) ∧
      ((¬ ∀ t ∈ e.strings, Tellable t) → parse e.line = none) := by
  have hnone : (¬ ∀ t ∈ e.strings, Tellable t) → parse e.line = none := by
    intro hall
    obtain ⟨t, hmem, ht⟩ : ∃ t ∈ e.strings, ¬ Tellable t := by
      simpa only [not_forall, exists_prop] using hall
    exact h.parse_of_not_tellable hmem ht
  refine ⟨h.singleLine, ⟨fun hparse => ?_, h.parse_of_tellable⟩, hnone⟩
  by_cases hall : ∀ t ∈ e.strings, Tellable t
  · exact hall
  · rw [hnone hall] at hparse
    cases hparse

/-- Quotes, backslashes and line ends in paths come back; a bell in one makes the line tell nothing. -/
theorem parse_line_paths :
    parse (line ⟨.finish, "m__rule_a", RowKind.rule.text, "a", DateTime.iso ⟨2026, 1, 1, 0, 0, 0⟩, some (-1),
      some 2999, some "/r/\"a\".out", some "/r/a\\\n\t.err"⟩) =
        some ⟨.finish, "m__rule_a", RowKind.rule.text, "a", DateTime.iso ⟨2026, 1, 1, 0, 0, 0⟩, some (-1),
          some 2999, some "/r/\"a\".out", some "/r/a\\\n\t.err"⟩ ∧
    parse (line ⟨.start, "m__rule_a\x07", RowKind.rule.text, "a\x07", DateTime.iso ⟨2026, 1, 1, 0, 0, 0⟩, none,
      none, none, none⟩) = none :=
  ⟨(parse_line (.finish _ _ .rule _ (by decide) (by decide) _ _)).2.1.mpr (by decide),
    (parse_line (.start _ _ .rule _)).2.2 (by decide)⟩

end Event

end Runbook
