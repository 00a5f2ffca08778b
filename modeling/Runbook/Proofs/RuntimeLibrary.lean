import Runbook.Capture
import Runbook.Event
import Runbook.Proofs.Text
import Runbook.Shell.Octets
import Runbook.Shell.Parameter

/-!
# Functions of the runtime library

The runtime library cuts, escapes and renames texts by pattern operators of the shell. With the patterns that
stand in it, these operators are the functions that give steps, events and files their texts.
-/

open List

namespace Runbook.Shell

namespace Pattern

/-! ## Cutting at a text -/

def exactly (t : Text) : Pattern := t.map .exactly

/-- The place behind the text, if the text stands at the place. -/
def behind (t : Text) (place : Place) : Option Place :=
  (t.isPrefixOf? place.rest).map (⟨place.left - t.length, ·⟩)

theorem reach_nil (fuel : Nat) (p : Pattern) : reach {} fuel p [] = [] := by
  cases fuel <;> cases p <;> simp [reach]

theorem reach_exactly (t : Text) (p : Pattern) (ps : List Place) :
    reach {} (size (exactly t ++ p) + 1) (exactly t ++ p) ps =
      reach {} (size p + 1) p (ps.filterMap (behind t)) := by
  induction t generalizing ps with
  | nil =>
    have hsame : behind [] = some := by
      funext place
      simp [behind]
    simp [exactly, hsame]
  | cons c t ih =>
    have hsize : size (exactly (c :: t) ++ p) = size (exactly t ++ p) + 1 := by
      simp [exactly, size, Nat.add_comm]
    have hstep : reach {} (size (exactly (c :: t) ++ p) + 1) (exactly (c :: t) ++ p) ps =
        reach {} (size (exactly t ++ p) + 1) (exactly t ++ p) (stepChar (sameChar {} c) ps) := by
      rw [hsize]
      cases ps with
      | nil => simp [reach_nil, stepChar]
      | cons place ps => rfl
    rw [hstep, ih, stepChar, filterMap_filterMap]
    congr 2
    funext place
    obtain ⟨left, rest⟩ := place
    cases rest with
    | nil => rfl
    | cons d rest =>
      by_cases hd : c = d
      · simp [behind, sameChar, hd, isPrefixOf?, Nat.sub_sub, Nat.add_comm]
      · simp [behind, sameChar, hd, isPrefixOf?]

theorem reach_anyMany (p : Pattern) (ps : List Place) :
    reach {} (size (.anyMany :: p) + 1) (.anyMany :: p) ps =
      reach {} (size p + 1) p ((ps.head?.map onward).getD []) := by
  have hsize : size (.anyMany :: p) = size p + 1 := by simp [size, Nat.add_comm]
  rw [hsize]
  cases ps with
  | nil => simp [reach_nil]
  | cons place ps => rfl

theorem any_onward (t : Text) : (onwardFrom t.length t).any (·.left = 0) = true := by
  induction t with
  | nil => rfl
  | cons c t ih => simp_all [onwardFrom]

/-- Of the places from which a text goes on behind `needle`, the first is where it is cut. -/
theorem head?_behind (needle t : Text) :
    ((onwardFrom t.length t).filterMap (behind needle)).head? =
      (Text.cut needle t).map fun parts => startOf parts.2 := by
  induction t with
  | nil => cases needle <;> rfl
  | cons c rest ih =>
    rw [Text.cut]
    cases hp : needle.isPrefixOf? (c :: rest) with
    | none => simpa [onwardFrom, behind, hp, Function.comp_def] using ih
    | some after =>
      have hlen := congrArg length (isPrefixOf?_eq_some_iff_append_eq.mp hp)
      simp only [length_append, length_cons] at hlen
      simp [onwardFrom, behind, hp, startOf, ← hlen]

theorem isMatch_start (needle t : Text) :
    isMatch {} (exactly needle ++ [.anyMany]) t = needle.isPrefixOf t := by
  rw [isMatch, ends, reach_exactly, reach_anyMany, ← isSome_isPrefixOf?_eq_isPrefixOf]
  cases hp : needle.isPrefixOf? t with
  | none => simp [behind, startOf, hp, reach_nil]
  | some after =>
    have hlen := congrArg length (isPrefixOf?_eq_some_iff_append_eq.mp hp)
    rw [length_append] at hlen
    simpa [behind, startOf, hp, onward, ← hlen, reach] using any_onward after

theorem find?_tails (needle t : Text) :
    (tails t).find? needle.isPrefixOf = (Text.cut needle t).map fun parts => needle ++ parts.2 := by
  induction t with
  | nil => cases needle <;> rfl
  | cons c rest ih =>
    rw [tails, Text.cut, find?_cons, ← isSome_isPrefixOf?_eq_isPrefixOf]
    cases hp : needle.isPrefixOf? (c :: rest) with
    | none => simpa [Function.comp_def] using ih
    | some after => simpa using (isPrefixOf?_eq_some_iff_append_eq.mp hp).symm

/-- What the library does with a marker: `[[ "$t" == *"$needle"* ]]` finds whether it is there,
`${t%%"$needle"*}` what stands before the first one, and `${t#*"$needle"}` what stands behind it. -/
theorem cut_by_patterns (needle t : Text) :
    isMatch {} (.anyMany :: exactly needle ++ [.anyMany]) t = (Text.cut needle t).isSome ∧
      ∀ a b, Text.cut needle t = some (a, b) →
        trimEnd {} (exactly needle ++ [.anyMany]) true t = a ∧
          trimStart {} (.anyMany :: exactly needle) false t = b := by
  have hfirst := head?_behind needle t
  refine ⟨?_, fun a b hcut => ⟨?_, ?_⟩⟩
  · rw [isMatch, ends, cons_append, reach_anyMany, reach_exactly, reach_anyMany]
    simp only [head?_cons, Option.map_some, Option.getD_some, onward, startOf, hfirst]
    cases Text.cut needle t with
    | none => rfl
    | some parts => exact any_onward parts.2
  · have hfound := find?_tails needle t
    have hlen := congrArg length (Text.eq_of_cut hcut)
    rw [hcut, Option.map_some, ← funext (isMatch_start needle)] at hfound
    rw [length_append] at hlen
    rw [trimEnd, if_pos rfl, head?_filter, hfound]
    simp only [hlen, Nat.add_sub_cancel]
    rw [Text.eq_of_cut hcut, take_left]
  · have hends : ends {} (.anyMany :: exactly needle) t =
        (onwardFrom t.length t).filterMap (behind needle) := by
      have htext := reach_exactly needle [] (onwardFrom t.length t)
      rw [append_nil] at htext
      exact (reach_anyMany _ _).trans htext
    rw [trimStart, hends, if_neg Bool.false_ne_true, hfirst, hcut]
    rfl

end Pattern

open Pattern Shell.Part

/-- `${marker#__}` and then `${marker%_}` leave the kind of a step. -/
theorem kind_of_marker : ∀ marker ∈ kindMarkers.map (·.1),
    trimEnd {} (exactly "_") false (trimStart {} (exactly "__") false marker) =
      (marker.drop 2).dropLast := by
  decide +kernel

/-! ## Replacing characters -/

/-- A pattern for one character is replaced character by character. -/
theorem replace_char {item : PatternItem} {holds : Char → Bool}
    (h : ∀ ps, reach {} (size [item] + 1) [item] ps = stepChar holds ps) (new t : Text) :
    replace {} [item] (.literal new) .all t = t.flatMap fun c => if holds c then new else [c] := by
  have hfrom : ∀ fuel, t.length ≤ fuel → replaceFrom {} [item] (.literal new) true fuel t.length t =
      t.flatMap fun c => if holds c then new else [c] := by
    induction t with
    | nil =>
      intro fuel _
      cases fuel <;> rfl
    | cons c rest ih =>
      intro fuel hfuel
      cases fuel with
      | zero => cases hfuel
      | succ fuel =>
        have hrest := ih fuel (Nat.le_of_succ_le_succ hfuel)
        rw [replaceFrom, h]
        by_cases hc : holds c = true
        · simp [stepChar, hc, hrest, Template.fill]
        · simp [stepChar, hc, hrest]
  exact hfrom _ (Nat.le_succ _)

/-- The replacements of the library, one after the other, are the escapes of an event. -/
theorem escape_eq_replace (t : Text) : Event.escape t = Event.escapes.foldl (fun t escape =>
    replace {} [.exactly escape.1] (.literal ['\\', escape.2]) .all t) t := by
  have hitem : ∀ c : Char, ∀ ps, reach {} (size [.exactly c] + 1) [.exactly c] ps =
      stepChar (sameChar {} c) ps := by
    intro c ps
    simp only [size, reach]
    cases ps <;> rfl
  have hsame : ∀ c d : Char, sameChar {} c d = true ↔ d = c := by
    intro c d
    simpa [sameChar] using eq_comm
  simp only [replace_char (hitem _), hsame]
  rfl

theorem isCaptureChar_ascii {c : Char} (h : isCaptureChar c = true) : c.toNat ≤ 127 := by
  unfold isCaptureChar Char.isAlphanum Char.isAlpha Char.isUpper Char.isLower Char.isDigit at h
  simp only [Bool.or_eq_true, Bool.and_eq_true, decide_eq_true_eq, beq_iff_eq, UInt32.le_iff_toNat_le] at h
  rcases h with (((((⟨-, h⟩ | ⟨-, h⟩) | ⟨-, h⟩) | rfl) | rfl) | rfl)
  · exact Nat.le_trans h (by decide)
  · exact Nat.le_trans h (by decide)
  · exact Nat.le_trans h (by decide)
  all_goals decide

theorem not_isCaptureChar_byte {c : Char} (h : 127 < c.toNat) :
    ∀ b ∈ String.utf8EncodeChar c, isCaptureChar (Char.ofNat b.toNat) = false := by
  have hhigh : ∀ n < 256, 128 ≤ n → isCaptureChar (Char.ofNat n) = false := by decide +kernel
  intro b hb
  refine hhigh _ b.toNat_lt ?_
  have hc : ¬ c.val.toNat ≤ 127 := Nat.not_le.mpr h
  simp only [String.utf8EncodeChar, hc, if_false] at hb
  split at hb
  · rcases (by simpa using hb) with rfl | rfl <;> simp <;> omega
  · split at hb
    · rcases (by simpa using hb) with rfl | rfl | rfl <;> simp <;> omega
    · rcases (by simpa using hb) with rfl | rfl | rfl | rfl <;> simp <;> omega

/-- In the C locale a character that may not stand in a name counts with all its bytes. -/
theorem flatMap_octets (c : Char) :
    (octets [c]).flatMap (fun d => if isCaptureChar d then [d] else ['_']) =
      if isCaptureChar c then [c] else replicate c.utf8Size '_' := by
  have hsize := String.length_utf8EncodeChar c
  by_cases hc : c.toNat ≤ 127
  · have hone : String.utf8EncodeChar c = [UInt8.ofNat c.toNat] := by simp [String.utf8EncodeChar, hc]
    have hbyte : octets [c] = [c] := by
      simp [octets, Utf8.encode, hone, Nat.mod_eq_of_lt (show c.toNat < 256 by omega)]
    rw [hone] at hsize
    simp [hbyte, ← hsize]
  · have hstray : ¬ isCaptureChar c = true := fun h => hc (isCaptureChar_ascii h)
    have hall : ∀ d ∈ octets [c], (if isCaptureChar d then [d] else ['_']) = ['_'] := by
      intro d hd
      simp only [octets, Utf8.encode, flatMap_singleton, mem_map] at hd
      obtain ⟨b, hb, rfl⟩ := hd
      rw [not_isCaptureChar_byte (Nat.lt_of_not_le hc) b hb]
      rfl
    rw [flatMap_congr hall, if_neg hstray, ← map_eq_flatMap, map_const', octets, length_map, ← hsize]
    simp [Utf8.encode]

/-- What may stand in a name, as the pattern has it. -/
def nameItems : List BracketItem := [.named "alnum", .range '_' '_', .range '.' '.', .range '-' '-']

/-- The library makes a name safe by one replacement on its bytes. -/
theorem safeName_eq_replace (t : Text) :
    safeName t = replace {} (ofText false strayPattern) (.literal "_") .all (octets t) := by
  have hread : ofText false strayPattern = [.bracket true nameItems] := rfl
  have hrange : ∀ lo c : Char, (decide (lo ≤ c) && decide (c ≤ lo)) = (c == lo) := by
    intro lo c
    rw [Bool.eq_iff_iff]
    simpa using ⟨fun h => Char.le_antisymm h.2 h.1, fun h => h ▸ ⟨Char.le_refl c, Char.le_refl c⟩⟩
  have hholds : itemMatches {} true nameItems = fun c => !isCaptureChar c := by
    funext c
    simp [nameItems, itemMatches, isCaptureChar, inClass, hrange, Bool.or_assoc]
  have hparts : octets t = t.flatMap fun c => octets [c] := by simp [octets, Utf8.encode, map_flatMap]
  have hitem : ∀ ps, reach {} (size [.bracket true nameItems] + 1) [.bracket true nameItems] ps =
      stepChar (fun c => !isCaptureChar c) ps := by
    intro ps
    simp only [size, reach, hholds]
    cases ps <;> rfl
  rw [hread, replace_char hitem, hparts, flatMap_assoc, safeName]
  refine flatMap_congr fun c _ => ?_
  rw [← flatMap_octets]
  refine flatMap_congr fun d _ => ?_
  cases isCaptureChar d <;> rfl

end Runbook.Shell
