import Runbook.Layout
import Runbook.Proofs.Normalize

/-!
# Places of scripts

The parts of a source file are plain names, so its script lies below the output root, and what one script
writes to source another leads from its directory to that script.
-/

open List

namespace Runbook
open Component Runbook.Path

theorem Path.mem_of_mem_stem {n : Text} {c : Char} (h : c ∈ (splitName n).1) : c ∈ n := by
  simp only [splitName] at h
  split at h
  · rename_i stem ext hcut
    split at h
    · exact h
    · obtain ⟨d, -, rfl⟩ := Text.eq_of_cutAtLast hcut
      simp [h]
  · exact h

theorem libraryName_isName : IsName libraryName := by
  refine ⟨?_, ?_, ?_, ?_⟩ <;> decide

namespace Layout

/-- The names of a script below the output root, for the parts of its source. -/
def scriptNames (parts : List Text) : List Text :=
  match parts.getLast? with
  | some last => parts.dropLast ++ [(splitName last).1 ++ ".sh"]
  | none => []

theorem scriptNames_append (init : List Text) (last : Text) :
    scriptNames (init ++ [last]) = init ++ [(splitName last).1 ++ ".sh"] := by
  simp [scriptNames]

theorem isName_script {n : Text} (h : IsName n) : IsName ((splitName n).1 ++ ".sh") := by
  refine ⟨by simp, fun he => ?_, fun he => ?_, fun hm => ?_⟩
  · have := congrArg List.length he
    simp at this
  · have := congrArg List.length he
    simp at this
  · rcases mem_append.mp hm with hm | hm
    · exact h.2.2.2 (mem_of_mem_stem hm)
    · simp at hm

theorem isName_scriptNames {parts : List Text} (h : ∀ n ∈ parts, IsName n) :
    ∀ n ∈ scriptNames parts, IsName n := by
  rcases eq_nil_or_concat parts with rfl | ⟨init, last, rfl⟩
  · simp [scriptNames]
  · rw [concat_eq_append] at h ⊢
    rw [scriptNames_append]
    exact forall_mem_append.mpr
      ⟨fun n hn => h n (by simp [hn]), forall_mem_singleton.mpr (isName_script (h last (by simp)))⟩

theorem scriptNames_ne_nil {parts : List Text} (h : parts ≠ []) : scriptNames parts ≠ [] := by
  obtain ⟨init, last, rfl⟩ := (eq_nil_or_concat parts).resolve_left h
  simp [scriptNames]

section

variable {l : Layout} {a b : Bool} {ns ms : List Text} {file : Path}

/-- The way from the root to a file leads upwards and then down along names; it is empty only from a
path to itself. -/
theorem relative_anchored (hns : ∀ n ∈ ns, IsName n) (hms : ∀ n ∈ ms, IsName n) :
    (∀ c ∈ (relative (anchored a ns) (anchored b ms)).components, c.Proper) ∧
      ((relative (anchored a ns) (anchored b ms)).components = [] →
        anchored a ns = anchored b ms) := by
  obtain ⟨cs, hcs, hc⟩ := anchor_proper a hns
  obtain ⟨ds, hds, hd⟩ := anchor_proper b hms
  obtain ⟨shared, hl, hr⟩ := dropShared_spec cs ds
  have hproper : ∀ c ∈ (dropShared cs ds).1.map (fun _ => up) ++
      (dropShared cs ds).2, c.Proper := by
    intro c hc
    rcases mem_append.mp hc with hc | hc
    · obtain ⟨_, _, rfl⟩ := mem_map.mp hc
      trivial
    · exact hds c (by rw [hr]; simp [hc])
  have hparts : (relative (anchored a ns) (anchored b ms)).components =
      (dropShared cs ds).1.map (fun _ => up) ++ (dropShared cs ds).2 := by
    rw [relative, components_anchored hns, components_anchored hms, hc, hd]
    simp only [dropShared, ↓reduceIte]
    exact components_ofComponents hproper
  rw [hparts]
  refine ⟨hproper, fun hnil => ?_⟩
  obtain ⟨h₁, h₂⟩ := append_eq_nil_iff.mp hnil
  rw [map_eq_nil_iff.mp h₁, append_nil] at hl
  rw [h₂, append_nil] at hr
  rw [anchored, anchored, hc, hd, hl, hr]

theorem isName_parts (hns : ∀ n ∈ ns, IsName n) (hroot : l.root.resolve l.cwd = anchored a ns)
    (hms : ∀ n ∈ ms, IsName n) (hfile : file.resolve l.cwd = anchored b ms) :
    ∀ n ∈ l.parts file, IsName n := by
  intro n hn
  rw [parts, hroot, hfile] at hn
  obtain ⟨c, hc, rfl⟩ := mem_map.mp hn
  have hc := (relative_anchored hns hms).1 c hc
  cases c with
  | up => exact ⟨by decide, by decide, by decide, by decide⟩
  | name n => exact hc
  | root => exact hc.elim
  | here => exact hc.elim

theorem parts_ne_nil (hns : ∀ n ∈ ns, IsName n) (hroot : l.root.resolve l.cwd = anchored a ns)
    (hms : ∀ n ∈ ms, IsName n) (hfile : file.resolve l.cwd = anchored b ms)
    (hne : anchored a ns ≠ anchored b ms) : l.parts file ≠ [] := by
  intro hnil
  rw [parts, hroot, hfile, map_eq_nil_iff] at hnil
  exact hne ((relative_anchored hns hms).2 hnil)

theorem output_eq (h : ∀ n ∈ l.parts file, IsName n) :
    l.output file = ofParts false ((scriptNames (l.parts file)).map .name) := by
  have hfold : (l.parts file).foldl push ⟨[]⟩ = ofParts false ((l.parts file).map .name) := by
    simp only [ofParts, lead, ofComponents, extend, Bool.false_eq_true, ↓reduceIte,
      nil_append, foldl_map]
    rfl
  rw [output, hfold]
  rcases eq_nil_or_concat (l.parts file) with hp | ⟨init, last, hp⟩
  · rw [hp]
    rfl
  · rw [concat_eq_append] at hp
    rw [hp] at h ⊢
    have hinit := proper_names fun n hn => h n (mem_append_left _ hn)
    have hlast : IsName last := h last (by simp)
    rw [map_append, map_cons, map_nil, withExtension,
      parent_ofParts hinit (c := .name last) hlast, stem, fileName_ofParts hinit hlast,
      scriptNames_append]
    simp only [Option.map_some, push_ofParts, map_append, map_cons, map_nil]
    rfl

/-- The directory of a script, seen from the output root. -/
def scriptDir (l : Layout) (file : Path) : Path := (l.output file).parent.getD ⟨[]⟩

theorem scriptDir_eq (h : ∀ n ∈ l.parts file, IsName n) :
    l.scriptDir file = ofParts false ((scriptNames (l.parts file)).dropLast.map .name) := by
  have hnames := isName_scriptNames h
  rw [scriptDir, output_eq h]
  rcases eq_nil_or_concat (scriptNames (l.parts file)) with hp | ⟨init, last, hp⟩
  · rw [hp]
    rfl
  · rw [concat_eq_append] at hp
    rw [hp] at hnames ⊢
    rw [map_append, map_cons, map_nil, dropLast_concat,
      parent_ofParts (proper_names fun n hn => hnames n (mem_append_left _ hn))
        (c := .name last) (hnames last (by simp))]
    rfl

/-- The text by which one script sources another stands for steps upwards from the directory of the one
and then names down to the other. -/
theorem importPath_eq {importer imported : Path} (hi : ∀ n ∈ l.parts importer, IsName n)
    (hm : ∀ n ∈ l.parts imported, IsName n) :
    ∃ shared up down : List Text, (scriptNames (l.parts importer)).dropLast = shared ++ up ∧
      scriptNames (l.parts imported) = shared ++ down ∧
      l.importPath importer imported =
        partsText (up.map (fun _ => Component.up) ++ down.map .name) := by
  have hdir := scriptDir_eq hi
  have hto := output_eq hm
  have hinames : ∀ n ∈ (scriptNames (l.parts importer)).dropLast, IsName n := fun n hn =>
    isName_scriptNames hi n (dropLast_subset _ hn)
  have hmnames := isName_scriptNames hm
  rw [scriptDir] at hdir
  generalize (scriptNames (l.parts importer)).dropLast = dir at hdir hinames ⊢
  generalize scriptNames (l.parts imported) = names at hto hmnames ⊢
  obtain ⟨shared, hl, hr⟩ := dropShared_spec (dir.map .name) (names.map .name)
  obtain ⟨as, up, rfl, rfl, hup⟩ := map_eq_append_iff.mp hl
  obtain ⟨bs, down, rfl, hb, hdown⟩ := map_eq_append_iff.mp hr
  obtain rfl : bs = as := (List.map_inj_right fun _ _ => Component.name.inj).mp hb
  refine ⟨bs, up, down, rfl, rfl, ?_⟩
  have hproper : ∀ c ∈ up.map (fun _ => Component.up) ++ down.map .name, c.Proper :=
    proper_ways fun n hn => hmnames n (mem_append_right _ hn)
  have hups : ∀ names : List Text, (names.map name).map (fun _ => Component.up) =
      names.map fun _ => Component.up := fun names => map_map
  simp only [importPath, hdir, hto, relative, components_ofParts (Component.proper_names hinames),
    components_ofParts (Component.proper_names hmnames), lead, Bool.false_eq_true, ↓reduceIte,
    nil_append, ← hup, ← hdown, hups, components_ofComponents hproper]
  rfl

/-- From the directory of its script, what a module writes to source an import leads to the script of
that import. -/
theorem normalize_importPath {importer imported : Path} {rooted : Bool} {cs : List Component}
    (hcs : ∀ c ∈ cs, c.Proper)
    (hnormal : (lead rooted ++ cs).foldl normalStep [] = (lead rooted ++ cs).reverse)
    (hi : ∀ n ∈ l.parts importer, IsName n) (hine : l.parts importer ≠ [])
    (hm : ∀ n ∈ l.parts imported, IsName n) (hmne : l.parts imported ≠ []) :
    ((((ofParts rooted cs).join (l.output importer)).parent.getD ⟨[]⟩).push
      (l.importPath importer imported)).normalize = (ofParts rooted cs).join (l.output imported) := by
  have hfrom := output_eq hi
  have hto := output_eq hm
  have hinames := isName_scriptNames hi
  have hmnames := isName_scriptNames hm
  obtain ⟨shared, up, down, hup, hdown, hpath⟩ := importPath_eq hi hm
  obtain ⟨init, last, hnames⟩ := (eq_nil_or_concat _).resolve_left (scriptNames_ne_nil hine)
  rw [concat_eq_append] at hnames
  rw [hnames, dropLast_concat] at hup
  subst hup
  rw [hnames] at hfrom hinames
  have hinit := proper_names fun n hn => hinames n (mem_append_left _ hn)
  have hlast : IsName last := hinames last (by simp)
  have hdirs : ∀ c ∈ cs ++ (shared ++ up).map .name, c.Proper := forall_mem_append.mpr ⟨hcs, hinit⟩
  have hways : ∀ c ∈ up.map (fun _ => Component.up) ++ down.map .name, c.Proper :=
    proper_ways fun n hn => hmnames n (by rw [hdown]; simp [hn])
  have hparent : ((ofParts rooted cs).join (l.output importer)).parent =
      some (ofParts rooted (cs ++ (shared ++ up).map .name)) := by
    rw [hfrom, join_ofParts hcs (proper_names hinames) (by simp), map_append,
      map_cons, map_nil, ← List.append_assoc]
    exact parent_ofParts hdirs hlast
  have hassoc : ∀ ways, lead rooted ++ (cs ++ (shared ++ up).map name ++ ways) =
      lead rooted ++ cs ++ (shared ++ up).map .name ++ ways := by
    simp only [List.append_assoc, implies_true]
  rw [hparent, Option.getD_some, hpath, Path.normalize, components_push_partsText hdirs hways, hassoc,
    normalParts_detour hnormal, hto,
    join_ofParts hcs (proper_names hmnames) (by simpa using scriptNames_ne_nil hmne), hdown,
    List.append_assoc]
  rfl

theorem length_scriptNames (parts : List Text) : (scriptNames parts).length = parts.length := by
  rcases eq_nil_or_concat parts with rfl | ⟨init, last, rfl⟩
  · rfl
  · simp [scriptNames]

/-- The text by which a script sources the runtime library stands for steps upwards from its directory. -/
theorem libraryPath_eq (l : Layout) (file : Path) :
    l.libraryPath file = partsText
      ((scriptNames (l.parts file)).dropLast.map (fun _ => up) ++ [libraryName].map .name) := by
  have hup (names : List Text) : Text.times names.length "../" ++ libraryName =
      partsText (names.map (fun _ => Component.up) ++ [libraryName].map .name) := by
    induction names with
    | nil => rfl
    | cons n rest ih =>
      have hparts : partsText ([.up] ++ (rest.map (fun _ => Component.up) ++ [libraryName].map .name)) =
          partsText [.up] ++ '/' :: _ := partsText_append (by simp) (by simp)
      rw [← ih] at hparts
      exact hparts.symm
  rw [libraryPath, ← hup, length_dropLast, length_scriptNames]

theorem isName_parts_of_isAbsolute (hroot : l.root.isAbsolute = true) (hfile : file.isAbsolute = true) :
    ∀ n ∈ l.parts file, IsName n := by
  have hanchored {p : Path} (hp : p.isAbsolute = true) :
      ∃ above names, (∀ n ∈ names, IsName n) ∧ p.resolve l.cwd = anchored above names := by
    refine (resolve_cases p l.cwd).resolve_left fun hnil => ?_
    obtain ⟨body, rfl⟩ := isAbsolute_iff.mp hp
    cases hnil.1
  obtain ⟨a, ns, hns, hr⟩ := hanchored hroot
  obtain ⟨b, ms, hms, hf⟩ := hanchored hfile
  exact isName_parts hns hr hms hf

/-- From the directory of a script, the paths by which it sources another script and the runtime library
lead to the output of the imported file and to the library at the output root. Both lie below that root,
wherever the files lie. -/
theorem sourced_paths (l : Layout) (importer imported : Path) (hroot : l.root.isAbsolute = true)
    (hi : importer.isAbsolute = true) (hm : imported.isAbsolute = true) :
    ((l.scriptDir importer).push (l.importPath importer imported)).lexical = l.output imported ∧
    ((l.scriptDir importer).push (l.importPath importer imported)).normalize = l.output imported ∧
    ((l.scriptDir importer).push (l.libraryPath importer)).lexical = ⟨libraryName⟩ ∧
    ((l.scriptDir importer).push (l.libraryPath importer)).normalize = ⟨libraryName⟩ ∧
    ∀ c ∈ (l.output importer).components ++ (l.output imported).components, ∃ n, c = .name n := by
  have hinames := isName_parts_of_isAbsolute hroot hi
  have hmnames := isName_parts_of_isAbsolute hroot hm
  have hdirnames : ∀ n ∈ (scriptNames (l.parts importer)).dropLast, IsName n := fun n hn =>
    isName_scriptNames hinames n (dropLast_subset _ hn)
  obtain ⟨shared, up, down, hdir, hto, himport⟩ := importPath_eq hinames hmnames
  have himported : (l.scriptDir importer).push (l.importPath importer imported) =
      (ofParts false ((shared ++ up).map .name)).push
        (partsText (up.map (fun _ => Component.up) ++ down.map .name)) := by
    rw [scriptDir_eq hinames, himport, hdir]
  have hlibrary : (l.scriptDir importer).push (l.libraryPath importer) =
      (ofParts false (([] ++ (scriptNames (l.parts importer)).dropLast).map .name)).push
        (partsText ((scriptNames (l.parts importer)).dropLast.map (fun _ => Component.up) ++
          [libraryName].map .name)) := by
    rw [scriptDir_eq hinames, libraryPath_eq, nil_append]
  obtain ⟨himported₁, himported₂⟩ := lexical_detour (hdir ▸ hdirnames)
    (fun n hn => isName_scriptNames hmnames n (hto ▸ mem_append_right _ hn)) himported
  obtain ⟨hlibrary₁, hlibrary₂⟩ := lexical_detour (by rwa [nil_append])
    (forall_mem_singleton.mpr libraryName_isName) hlibrary
  rw [← hto, ← output_eq hmnames] at himported₁ himported₂
  rw [nil_append, map_cons, map_nil, ofParts_name] at hlibrary₁ hlibrary₂
  refine ⟨himported₁, himported₂, hlibrary₁, hlibrary₂, fun c hc => ?_⟩
  rw [output_eq hinames, output_eq hmnames,
    components_ofParts (proper_names (isName_scriptNames hinames)),
    components_ofParts (proper_names (isName_scriptNames hmnames))] at hc
  simp only [lead, Bool.false_eq_true, ↓reduceIte, nil_append, ← map_append] at hc
  obtain ⟨n, -, rfl⟩ := mem_map.mp hc
  exact ⟨n, rfl⟩

/-- Both files lie outside the root, one of them further up: steps upwards that are renamed in the outputs
and those in the path between them do not mix. -/
theorem sourced_paths_outside :
    let l : Layout := ⟨"/", "/ws/flows"⟩
    l.scriptDir "/ws/lib/x.jph" = "_parent/lib" ∧
    l.importPath "/ws/lib/x.jph" "/y.jph" = "../_parent/y.sh".toList ∧
    l.libraryPath "/ws/lib/x.jph" = "../../jaiph_stdlib.sh".toList ∧
    lexical (push "_parent/lib" "../_parent/y.sh") = "_parent/_parent/y.sh" ∧
    lexical (push "_parent/lib" "../../jaiph_stdlib.sh") = "jaiph_stdlib.sh" := by
  intro l
  have hdir : l.scriptDir "/ws/lib/x.jph" = "_parent/lib" := by decide +kernel
  have himport : l.importPath "/ws/lib/x.jph" "/y.jph" = "../_parent/y.sh".toList := by decide +kernel
  have hlibrary : l.libraryPath "/ws/lib/x.jph" = "../../jaiph_stdlib.sh".toList := by decide +kernel
  have houtput : l.output "/y.jph" = "_parent/_parent/y.sh" := by decide +kernel
  have hpaths := sourced_paths l "/ws/lib/x.jph" "/y.jph" (by decide) (by decide) (by decide)
  rw [hdir, himport, hlibrary, houtput] at hpaths
  exact ⟨hdir, himport, hlibrary, hpaths.1, hpaths.2.2.1⟩

end

end Layout

end Runbook
