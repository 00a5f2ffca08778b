import Runbook.Proofs.FileTree
import Runbook.Proofs.Layout
import Runbook.Proofs.Validation
import Runbook.Script

/-!
# Source files

Whatever is imported has the name of a source file, and a script never does. What a file compiles to
depends on source files alone, so it stays the same while scripts are written.
-/

open List

namespace Runbook
open FileTree

variable {m : Module}

/-! ## Names -/

def IsSourceName (n : Text) : Prop := ∃ ext ∈ sourceExtensions, '.' :: ext <:+ n

/-- A text that may follow the last dot of a name, and is more than a dot. -/
structure IsExtension (ext : Text) : Prop where
  slash : '/' ∉ ext
  ne_nil : ext ≠ []
  ne_dot : ext ≠ ['.']

theorem sourceExtension_spec {ext : Text} (h : ext ∈ sourceExtensions) :
    IsExtension ext ∧ ¬ '.' :: ext <:+ ".sh".toList ∧ ¬ ".sh".toList <:+ '.' :: ext := by
  simp only [sourceExtensions, mem_cons, not_mem_nil, or_false] at h
  rcases h with rfl | rfl | rfl <;> exact ⟨⟨by decide, by decide, by decide⟩, by decide, by decide⟩

theorem not_sourceName_of_script {n : Text} (hs : ".sh".toList <:+ n) : ¬ IsSourceName n := by
  rintro ⟨ext, he, hx⟩
  obtain ⟨-, h₁, h₂⟩ := sourceExtension_spec he
  rcases suffix_or_suffix_of_suffix hs hx with h | h
  · exact h₂ h
  · exact h₁ h

theorem exists_last_segment (t : Text) : '/' ∉ t ∨ ∃ a s, t = a ++ '/' :: s ∧ '/' ∉ s := by
  by_cases h : '/' ∈ t
  · obtain ⟨s, a, ht, hs⟩ := eq_append_cons_of_mem (mem_reverse.mpr h)
    refine Or.inr ⟨a.reverse, s.reverse, ?_, by simpa using hs⟩
    rw [← reverse_reverse t, ht]
    simp
  · exact Or.inl h

section

variable {ext : Text} (he : IsExtension ext)

include he

theorem ofSegment_extension {n : Text} (hx : '.' :: ext <:+ n) : Component.ofSegment n = some (.name n) := by
  have h₁ : n ≠ [] := by
    rintro rfl
    simp at hx
  have h₂ : n ≠ ['.'] := by
    rintro rfl
    simp [suffix_cons_iff, he.ne_nil] at hx
  have h₃ : n ≠ ['.', '.'] := by
    rintro rfl
    simp [suffix_cons_iff, he.ne_nil, he.ne_dot] at hx
  simp [Component.ofSegment, h₁, h₂, h₃]

theorem bodyParts_extension {body : Text} (hx : '.' :: ext <:+ body) :
    ∃ cs n, Path.bodyParts body = cs ++ [.name n] ∧ '.' :: ext <:+ n := by
  rcases exists_last_segment body with hs | ⟨a, s, rfl, hs⟩
  · exact ⟨[], body, by rw [Path.bodyParts_segment hs, ofSegment_extension he hx]; rfl, hx⟩
  · have hsuffix : '.' :: ext <:+ s := by
      rcases suffix_or_suffix_of_suffix hx (suffix_append a ('/' :: s)) with h | h
      · rcases suffix_cons_iff.mp h with h | h
        · cases h
        · exact h
      · have := h.subset (mem_cons_self : '/' ∈ '/' :: s)
        simp [he.slash] at this
    refine ⟨Path.bodyParts a, s, ?_, hsuffix⟩
    rw [Path.bodyParts_append_slash, Path.bodyParts_segment hs, ofSegment_extension he hsuffix]
    rfl

theorem tailParts_extension {p : Path} (hx : '.' :: ext <:+ p.text) :
    ∃ cs n, p.tailParts = cs ++ [.name n] ∧ '.' :: ext <:+ n := by
  refine bodyParts_extension he ?_
  rcases Path.lead_cases p.text with ⟨body, hb⟩ | hb | ⟨body, hb⟩ | ⟨h₁, h₂, h₃⟩
  · rw [hb] at hx ⊢
    rcases suffix_cons_iff.mp hx with h | h
    · cases h
    · exact h
  · rw [hb] at hx
    simp [suffix_cons_iff, he.ne_nil] at hx
  · rw [hb] at hx ⊢
    rcases suffix_cons_iff.mp hx with h | h
    · cases h
      exact absurd mem_cons_self he.slash
    · exact h
  · rw [Path.split_other h₁ h₂ h₃]
    exact hx

end

theorem importedName_sourceName (written : Text) : IsSourceName (importedName written) := by
  simp only [importedName]
  split
  · rename_i h
    obtain ⟨ext, he, hx⟩ := any_eq_true.mp h
    exact ⟨ext, he, isSuffixOf_iff_suffix.mp hx⟩
  · exact ⟨"jph", by simp [sourceExtensions], suffix_append _ _⟩

/-! ## Paths of source files -/

def NamedPath (p : Path) : Prop :=
  ∃ above names, (∀ n ∈ names, IsName n) ∧ names ≠ [] ∧ p = Path.anchored above names

/-- A normal path whose last name is that of a source file. -/
def SourcePath (p : Path) : Prop :=
  ∃ above names n, (∀ m ∈ names ++ [n], IsName m) ∧ IsSourceName n ∧ p = Path.anchored above (names ++ [n])

theorem Path.suffix_push (p : Path) (t : Text) : t <:+ (p.push t).text := by
  simp only [push]
  split
  · exact suffix_refl t
  · split
    · exact suffix_append _ _
    · exact ⟨p.text ++ ['/'], by simp⟩

theorem sourcePath_importedFile (cwd importer : Path) (written : Text) :
    SourcePath (importedFile cwd importer written) := by
  obtain ⟨ext, he, hx⟩ := importedName_sourceName written
  obtain ⟨cs, n, hp, hn⟩ := tailParts_extension (sourceExtension_spec he).1
    (hx.trans (Path.suffix_push (importer.parent.getD ⟨[]⟩) _))
  obtain ⟨above, names, hnames, hr⟩ := Path.resolve_of_name hp cwd
  exact ⟨above, names, n, hnames, ⟨ext, he, hn⟩, hr⟩

theorem Path.tailParts_of_fileName {p : Path} {n : Text} (h : p.fileName = some n) :
    ∃ cs, p.tailParts = cs ++ [.name n] := by
  have hlast : p.components.getLast? = some (.name n) := by
    simp only [fileName] at h
    split at h
    · rename_i n' hl
      cases h
      exact hl
    · cases h
  have hparts : p.components = (split p.text).1.toList ++ p.tailParts := components_eq p
  rcases eq_nil_or_concat p.tailParts with hnil | ⟨cs, c, hc⟩
  · rw [hparts, hnil, append_nil] at hlast
    rcases lead_cases p.text with ⟨body, hb⟩ | hb | ⟨body, hb⟩ | ⟨h₁, h₂, h₃⟩
    · rw [hb] at hlast
      cases hlast
    · rw [hb] at hlast
      cases hlast
    · rw [hb] at hlast
      cases hlast
    · rw [split_other h₁ h₂ h₃] at hlast
      cases hlast
  · rw [concat_eq_append] at hc
    rw [hparts, hc, ← List.append_assoc, getLast?_concat] at hlast
    exact ⟨cs, by rw [hc, Option.some.inj hlast]⟩

theorem tailParts_of_isSource {p : Path} (h : p.isSource = true) :
    ∃ cs n, p.tailParts = cs ++ [.name n] ∧ IsSourceName n := by
  obtain ⟨ext, hx, he⟩ := (Option.any_eq_true _ _).mp h
  obtain ⟨n, hn, hx⟩ := Option.bind_eq_some_iff.mp hx
  obtain ⟨cs, hcs⟩ := Path.tailParts_of_fileName hn
  refine ⟨cs, n, hcs, ?_⟩
  simp only [Path.splitName] at hx
  split at hx
  · rename_i stem ext' hcut
    split at hx
    · cases hx
    · cases hx
      obtain ⟨c, hc, rfl⟩ := Text.eq_of_cutAtLast hcut
      obtain rfl : c = '.' := by simpa using hc
      exact ⟨ext, by simpa using he, suffix_append _ _⟩
  · cases hx

theorem sourcePath_of_isSource {p : Path} (h : p.isSource = true) (cwd : Path) :
    SourcePath (p.resolve cwd) := by
  obtain ⟨cs, n, hcs, hname⟩ := tailParts_of_isSource h
  obtain ⟨above, names, hnames, hr⟩ := Path.resolve_of_name hcs cwd
  exact ⟨above, names, n, hnames, hname, hr⟩

theorem not_isSource_of_script {p : Path} (h : ".sh".toList <:+ p.text) : p.isSource = false := by
  refine Bool.eq_false_iff.mpr fun hs => ?_
  obtain ⟨cs, n, hcs, hn⟩ := tailParts_of_isSource hs
  obtain ⟨cs', n', hcs', hn'⟩ := tailParts_extension ⟨by decide, by decide, by decide⟩ h
  rw [hcs] at hcs'
  obtain ⟨-, hname⟩ := append_inj' hcs' rfl
  cases hname
  exact not_sourceName_of_script hn' hn

theorem SourcePath.named {p : Path} (h : SourcePath p) : NamedPath p := by
  obtain ⟨above, names, n, hnames, -, rfl⟩ := h
  exact ⟨above, names ++ [n], hnames, by simp, rfl⟩

theorem SourcePath.resolve {p : Path} (h : SourcePath p) (cwd : Path) : p.resolve cwd = p := by
  obtain ⟨above, names, n, hnames, -, rfl⟩ := h
  exact Path.resolve_anchored hnames cwd

/-! ## Reading source files while scripts are written -/

def ScriptPlace (place : Place) : Prop := ∃ a n, place = a ++ [n] ∧ ".sh".toList <:+ n

structure SameSources (t t' : FileTree) : Prop where
  cwd : t'.cwd = t.cwd
  readBytes : ∀ p, SourcePath p → ∀ contents, t'.readBytes p = .ok contents ↔ t.readBytes p = .ok contents

variable {t t' : FileTree} {p : Path}

theorem SameSources.symm (h : SameSources t t') : SameSources t' t :=
  ⟨h.cwd.symm, fun p hp contents => (h.readBytes p hp contents).symm⟩

theorem FileTree.Kept.sameSources (h : Kept ScriptPlace t t') : SameSources t t' := by
  refine ⟨h.cwd, ?_⟩
  rintro p ⟨above, names, n, hnames, hn, rfl⟩ contents
  refine h.readBytes_anchored hnames (by simp) ?_
  rintro ⟨a, m, he, hs⟩
  obtain ⟨-, hm⟩ := append_inj' he rfl
  cases hm
  exact not_sourceName_of_script hs hn

theorem readText_iff {text : Text} :
    t.readText p = .ok text ↔ ∃ contents, t.readBytes p = .ok contents ∧ Utf8.decode contents = some text := by
  constructor
  · intro h
    obtain ⟨contents, hc, h⟩ := of_bind_ok h
    split at h
    · rename_i text' hd
      cases h
      exact ⟨contents, hc, hd⟩
    · cases h
  · rintro ⟨contents, hc, hd⟩
    simp [readText, hc, hd, bind, Except.bind]

theorem readModule_iff :
    t.readModule p = .ok m ↔ ∃ text, t.readText p = .ok text ∧ Module.parse p text = .ok m := by
  cases ht : t.readText p with
  | error e => simp [readModule, ht]
  | ok text =>
    cases hp : Module.parse p text with
    | error e => simp [readModule, ht, hp, Except.mapError]
    | ok m' => simp [readModule, ht, hp, Except.mapError]

theorem readBytes_of_readModule (h : t.readModule p = .ok m) : ∃ contents, t.readBytes p = .ok contents := by
  obtain ⟨text, ht, -⟩ := readModule_iff.mp h
  obtain ⟨contents, hc, -⟩ := readText_iff.mp ht
  exact ⟨contents, hc⟩

theorem get?_of_readModule {above : Bool} {names : List Text} (hn : ∀ n ∈ names, IsName n) (hne : names ≠ [])
    (h : t.readModule (Path.anchored above names) = .ok m) :
    ∃ mode contents, t.root.get? names = some (.file mode contents) := by
  obtain ⟨contents, hc⟩ := readBytes_of_readModule h
  obtain ⟨-, -, mode, hg⟩ := (readBytes_anchored hn hne).mp hc
  exact ⟨mode, contents, hg⟩

theorem named_of_readModule {cwd : Path} (h : t.readModule (p.resolve cwd) = .ok m) :
    NamedPath (p.resolve cwd) := by
  obtain ⟨contents, hc⟩ := readBytes_of_readModule h
  obtain ⟨place, mode, hl, hg⟩ := readBytes_iff.mp hc
  rcases Path.resolve_cases p cwd with ⟨-, hr⟩ | ⟨above, names, hn, hr⟩
  · rw [hr] at hl
    cases hl
  · refine ⟨above, names, hn, ?_, hr⟩
    rintro rfl
    rw [hr] at hl
    obtain ⟨rfl, -, children, hdir⟩ := place_of_locate_anchored hn hl
    rw [dropLast_nil, hg] at hdir
    cases hdir

theorem readModule_congr (h : ∀ contents, t'.readBytes p = .ok contents ↔ t.readBytes p = .ok contents) :
    t'.readModule p = .ok m ↔ t.readModule p = .ok m := by
  simp only [readModule_iff, readText_iff, h]

theorem readModule_source (h : SameSources t t') (hp : SourcePath p) :
    t'.readModule p = .ok m ↔ t.readModule p = .ok m :=
  readModule_congr (h.readBytes p hp)

theorem isFile_source (h : SameSources t t') (hp : SourcePath p) :
    t'.isFile p = t.isFile p := by
  rw [Bool.eq_iff_iff, isFile_iff, isFile_iff]
  simp only [h.readBytes p hp]

theorem readModule_eq (h : SameSources t t') (hp : SourcePath p) (hf : t.isFile p = true) :
    t'.readModule p = t.readModule p := by
  obtain ⟨contents, hc⟩ := isFile_iff.mp hf
  simp only [readModule, readText, hc, (h.readBytes p hp contents).mpr hc]

theorem loadImports_eq (h : SameSources t t') (m : Module) (scope : Scope) (imports : List Import) :
    Module.loadImports t' m scope [] imports = Module.loadImports t m scope [] imports := by
  induction imports generalizing scope with
  | nil => rfl
  | cons i rest ih =>
    have hp := sourcePath_importedFile t.cwd m.file i.path
    rw [Module.loadImports_cons (Module.known_nil _), Module.loadImports_cons (Module.known_nil _)]
    simp only [h.cwd, isFile_source h hp]
    split
    · rfl
    · split
      · rfl
      · rename_i hf
        simp only [readModule_eq h hp (by simpa using hf), ih]

theorem readModule_of_compile {root : Path} {s : Script} (h : t.compile p root = .ok s) :
    ∃ m, t.readModule (p.resolve t.cwd) = .ok m := by
  obtain ⟨m, hm, -⟩ := of_bind_ok h
  exact ⟨m, hm⟩

theorem compile_eq (h : SameSources t t') (hp : SourcePath (p.resolve t.cwd))
    (hf : t.isFile (p.resolve t.cwd) = true) (root : Path) : t'.compile p root = t.compile p root := by
  simp only [compile, h.cwd, readModule_eq h hp hf, Module.validate, loadImports_eq h]

theorem compile_source (h : SameSources t t') (hp : SourcePath (p.resolve t.cwd)) {root : Path}
    {s : Script} (hc : t'.compile p root = .ok s) : t.compile p root = .ok s := by
  obtain ⟨m, hm⟩ := readModule_of_compile hc
  rw [h.cwd] at hm
  have hf := isFile_iff.mpr (readBytes_of_readModule ((readModule_source h hp).mp hm))
  rw [← compile_eq h hp hf]
  exact hc

end Runbook
