import Runbook.Proofs.Closure

/-!
# Outputs and their files

The path of a script does not have the extension of its source, and steps upwards are renamed in it. So
two sources can have the same output, and a source can have the output of the runtime library. A build
writes on in these cases, and the last one written is what stays.
-/

open List

namespace Runbook

/-! ## Stems -/

theorem Path.stem_name {n : Text} (h : IsName n) : stem ⟨n⟩ = some (splitName n).1 := by
  have hfile : (ofParts false ([] ++ [.name n])).fileName = some n := fileName_ofParts (by simp) h
  rw [stem, ← ofParts_name]
  exact congrArg (Option.map _) hfile

namespace Layout

/-- The names from the root to a file, the last one without its extension. -/
def stems (l : Layout) (file : Path) : List Text := stemLast (l.parts file)

theorem stemLast_append (init : List Text) {last : Text} (h : IsName last) :
    stemLast (init ++ [last]) = init ++ [(Path.splitName last).1] := by
  simp [stemLast, Path.stem_name h]

theorem scriptNames_eq {parts : List Text} (h : ∀ n ∈ parts, IsName n) (hne : parts ≠ []) :
    ∃ (init : List Text) (stem : Text), stemLast parts = init ++ [stem] ∧
      scriptNames parts = init ++ [stem ++ ".sh"] := by
  obtain ⟨init, last, rfl⟩ := (eq_nil_or_concat parts).resolve_left hne
  rw [concat_eq_append] at h ⊢
  exact ⟨init, _, stemLast_append init (h last (by simp)), scriptNames_append init last⟩

end Layout

namespace Build

theorem scriptPlace_eq_iff {layout : Layout} {outRoot f g : Path} (hf : Placed layout f)
    (hg : Placed layout g) :
    scriptPlace layout outRoot f = scriptPlace layout outRoot g ↔ layout.stems f = layout.stems g := by
  obtain ⟨init, stem, hstems, hnames⟩ := Layout.scriptNames_eq hf.names hf.ne_nil
  obtain ⟨init', stem', hstems', hnames'⟩ := Layout.scriptNames_eq hg.names hg.ne_nil
  rw [scriptPlace, scriptPlace, append_cancel_left_eq, hnames, hnames', Layout.stems, Layout.stems,
    hstems, hstems']
  simp

def libraryStem : Text := "jaiph_stdlib"

theorem scriptNames_eq_library_iff {layout : Layout} {f : Path} (hf : Placed layout f) :
    Layout.scriptNames (layout.parts f) = [libraryName] ↔ layout.stems f = [libraryStem] := by
  obtain ⟨init, stem, hstems, hnames⟩ := Layout.scriptNames_eq hf.names hf.ne_nil
  have hname : libraryName = libraryStem ++ ".sh" := by decide
  rw [hnames, Layout.stems, hstems, hname]
  cases init with
  | nil => simp
  | cons n rest => simp

theorem encode_ne_library (s : Script) : Utf8.encode (s.text ++ "\n") ≠ Utf8.encode Library.text := by
  obtain ⟨rest, hlines⟩ : ∃ rest, Text.unlines s.lines = 's' :: rest := ⟨_, rfl⟩
  obtain ⟨more, hlibrary⟩ : ∃ more, Library.text = '#' :: more := ⟨_, rfl⟩
  rw [Script.text, hlines, Text.trimEnd_cons (by decide), hlibrary]
  intro h
  have hhead : some (115 : UInt8) = some 35 := congrArg List.head? h
  exact absurd hhead (by decide)

/-! ## What stays -/

/-- Each output has a path of its own, and its file holds its text. -/
structure OwnFiles (t : FileTree) (outputs : List BuildOutput) : Prop where
  distinct : (outputs.map (·.output)).Nodup
  holds : ∀ o ∈ outputs, t.readBytes o.output = .ok (Utf8.encode (o.shell ++ "\n"))

/-- The file of the runtime library holds its text. -/
def HoldsLibrary (t : FileTree) (outRoot : Path) : Prop :=
  t.readBytes (outRoot.push libraryName) = .ok (Utf8.encode Library.text)

section

variable {base t t' : FileTree} {layout : Layout} {outRoot : Path} {outputs : List BuildOutput}
  {o w : BuildOutput}

theorem Wrote.output_eq_iff_stems (h : Wrote base t t' layout outRoot outputs) (ho : o ∈ outputs)
    (hw : w ∈ outputs) : o.output = w.output ↔ layout.stems o.source = layout.stems w.source :=
  (h.output_eq_iff ho hw).trans (scriptPlace_eq_iff (h.compiled o ho).placed (h.compiled w hw).placed)

theorem Wrote.ownFiles_iff (h : Wrote base t t' layout outRoot outputs) :
    OwnFiles t' outputs ↔ (outputs.map fun o => layout.stems o.source).Nodup := by
  have hdistinct : (outputs.map (·.output)).Nodup ↔ (outputs.map fun o => layout.stems o.source).Nodup := by
    rw [List.Nodup, List.Nodup, pairwise_map, pairwise_map]
    exact List.Pairwise.iff_of_mem fun ho hw => not_congr (h.output_eq_iff_stems ho hw)
  constructor
  · intro hown
    exact hdistinct.mp hown.distinct
  · intro hstems
    exact ⟨hdistinct.mpr hstems, fun o ho => h.own (hdistinct.mpr hstems) ho⟩

theorem Wrote.holdsLibrary_iff (h : Wrote base t t' layout outRoot outputs) (hcwd : t.cwd = layout.cwd)
    (hl : LibraryStored t outRoot) :
    HoldsLibrary t' outRoot ↔ ∀ o ∈ outputs, layout.stems o.source ≠ [libraryStem] := by
  constructor
  · intro hlib o ho hstems
    have hplaced := (h.compiled o ho).placed
    have hpath : o.output = outRoot.push libraryName := by
      rw [(h.compiled o ho).output, scriptPath, Layout.output_eq hplaced.names,
        (scriptNames_eq_library_iff hplaced).mpr hstems]
      rfl
    obtain ⟨w, hw, hread⟩ := h.last o ho
    obtain ⟨s, -, hshell⟩ := (h.compiled w (of_lastAt_eq_some hw).1).compile
    rw [hpath, hlib, hshell] at hread
    exact encode_ne_library s (Except.ok.inj hread).symm
  · intro hstems
    refine h.kept.readBytes hl.locate ?_ hl.readBytes
    rintro ⟨o, ho, hplace⟩
    rw [hcwd, libraryPlace, scriptPlace] at hplace
    exact hstems o ho ((scriptNames_eq_library_iff (h.compiled o ho).placed).mp
      (append_cancel_left hplace).symm)

end

/-! ## Builds -/

/-- What a build leaves behind that reports `outputs` and has compiled `all`, in order. -/
structure Outcome (t t' : FileTree) (layout : Layout) (outRoot : Path) (outputs all : List BuildOutput) :
    Prop where
  compiled : ∀ o ∈ all, ∃ s, t.compile o.source layout.root = .ok s ∧
    o = ⟨o.source, outRoot.join (layout.output o.source), s.text⟩
  last : ∀ o ∈ all, ∃ w, lastAt all o.output = some w ∧
    t'.readBytes o.output = .ok (Utf8.encode (w.shell ++ "\n"))
  ownFiles_iff : OwnFiles t' all ↔ (all.map fun o => layout.stems o.source).Nodup
  holdsLibrary_iff : outputs ≠ [] →
    (HoldsLibrary t' outRoot ↔ ∀ o ∈ all, layout.stems o.source ≠ [libraryStem])

theorem Wrote.outcome {t t₀ t' : FileTree} {root outRoot : Path} {outputs all : List BuildOutput}
    (hp : Prepared t t₀ outRoot (outputs.map (·.source))) (h : Wrote t t₀ t' ⟨t.cwd, root⟩ outRoot all) :
    Outcome t t' ⟨t.cwd, root⟩ outRoot outputs all where
  compiled o ho := by
    obtain ⟨⟨s, hs, hshell⟩, houtput, -⟩ := h.compiled o ho
    refine ⟨s, hs, ?_⟩
    rw [← hshell, ← scriptPath, ← houtput]
  last := h.last
  ownFiles_iff := h.ownFiles_iff
  holdsLibrary_iff hne := h.holdsLibrary_iff hp.scripts.cwd (hp.library (by simpa using hne))

/-- A build compiles all sources it finds, and a build with imports all files it reaches. Every output path
holds the text of the last output with that path, so each output has its own file exactly if no two sources
have the same stems, and the library stays exactly if no source has its stem. If there is no source, no file
changes. -/
theorem outcome_of_build (t : FileTree) :
    (∀ input target outputs t', (build input target).run t = (.ok outputs, t') →
      outputs.map (·.source) = sourcesOf t (input.resolve t.cwd) ∧
      (outputs = [] → FileTree.Kept (fun _ => False) t t') ∧
      Outcome t t' ⟨t.cwd, rootOf t (input.resolve t.cwd)⟩ (outRootOf t (input.resolve t.cwd) target)
        outputs outputs) ∧
    ∀ entry target outputs t', (buildWithImports entry target).run t = (.ok outputs, t') →
      ∃ others,
        outputs.map (·.source) = (if (entry.resolve t.cwd).isSource then [entry.resolve t.cwd] else []) ∧
        ((outputs ++ others).map (·.source)).Nodup ∧
        (∀ f, f ∈ (outputs ++ others).map (·.source) ↔
          Reachable t (entry.resolve t.cwd) f ∧ (f = entry.resolve t.cwd → f.isSource = true)) ∧
        Outcome t t' (entryLayout t (entry.resolve t.cwd)) (target.resolve t.cwd) outputs
          (outputs ++ others) := by
  constructor
  · intro input target outputs t' h
    obtain ⟨t₀, hprepared, hsources, hwrote⟩ := build_wrote h
    rw [← hsources] at hprepared
    refine ⟨hsources, ?_, hwrote.outcome hprepared⟩
    rintro rfl
    exact (hprepared.kept.mono fun _ hp => hp.1 rfl).trans (hwrote.kept.mono (by simp))
  · intro entry target outputs t' h
    obtain ⟨t₀, found, others, hb⟩ := buildWithImports_closure h
    have hprepared := hb.prepared
    rw [← hb.outputs_source] at hprepared
    exact ⟨others, hb.outputs_source.trans hb.sources, hb.nodup_sources, hb.mem_sources_iff,
      hb.wrote.outcome hprepared⟩

/-! ## Two sources -/

/-- A directory with two sources, the second of which imports the first. -/
def importPair (first second : Text) : FileTree where
  cwd := "/w"
  root := .dir [("w", .dir [
    (first, .file 0o644 (Utf8.encode "workflow one \x7b\n\x7d\n")),
    (second, .file 0o644 (Utf8.encode ("import \"" ++ first ++ "\" as x\nworkflow two \x7b\n\x7d\n")))])]

/-- One source and the library have files of their own. Two sources that differ in the extension have one
file, and a source with the stem of the library takes its place. -/
theorem outcome_of_importPair :
    (∃ outputs t', (build "a.jh" (some "out")).run (importPair "a.jh" "b.jph") = (.ok outputs, t') ∧
      outputs ≠ [] ∧ OwnFiles t' outputs ∧ HoldsLibrary t' "/w/out") ∧
    (∃ outputs others t', (buildWithImports "a.jph" "out").run (importPair "a.jh" "a.jph") = (.ok outputs, t') ∧
      (∀ f, f ∈ (outputs ++ others).map (·.source) ↔ Reachable (importPair "a.jh" "a.jph") "/w/a.jph" f) ∧
      ¬ OwnFiles t' (outputs ++ others)) ∧
    ∃ outputs t', (buildWithImports "main.jph" "out").run (importPair "jaiph_stdlib.jph" "main.jph") =
      (.ok outputs, t') ∧ ¬ HoldsLibrary t' "/w/out" := by
  refine ⟨?_, ?_, ?_⟩
  · obtain ⟨outputs, t', hrun⟩ := exists_run (x := build "a.jh" (some "out"))
      (t := importPair "a.jh" "b.jph") (by decide +kernel)
    obtain ⟨hsources, -, hout⟩ := (outcome_of_build (importPair "a.jh" "b.jph")).1 _ _ _ _ hrun
    have hsource : sourcesOf (importPair "a.jh" "b.jph")
        (Path.resolve "a.jh" (importPair "a.jh" "b.jph").cwd) = [("/w/a.jh" : Path)] := by decide +kernel
    rw [hsource] at hsources
    obtain ⟨o, rfl⟩ : ∃ o, outputs = [o] :=
      length_eq_one_iff.mp (by simpa using congrArg List.length hsources)
    have ho : o.source = "/w/a.jh" := head_eq_of_cons_eq hsources
    have hroot : outRootOf (importPair "a.jh" "b.jph") (Path.resolve "a.jh" (importPair "a.jh" "b.jph").cwd)
      (some "out") = "/w/out" := by decide +kernel
    refine ⟨[o], t', hrun, by simp, hout.ownFiles_iff.mpr (nodup_singleton _), ?_⟩
    have hlib := hout.holdsLibrary_iff (by simp)
    rw [hroot] at hlib
    rw [hlib, forall_mem_singleton, ho]
    decide +kernel
  · obtain ⟨outputs, t', hrun⟩ := exists_run (x := buildWithImports "a.jph" "out")
      (t := importPair "a.jh" "a.jph") (by decide +kernel)
    obtain ⟨others, -, -, hmem, hout⟩ := (outcome_of_build (importPair "a.jh" "a.jph")).2 _ _ _ _ hrun
    have hentry : Path.resolve "a.jph" (importPair "a.jh" "a.jph").cwd = "/w/a.jph" := by decide +kernel
    rw [hentry] at hmem hout
    have hentry' : ("/w/a.jph" : Path).isSource = true := by decide +kernel
    have hall : ∀ f, f ∈ (outputs ++ others).map (·.source) ↔
        Reachable (importPair "a.jh" "a.jph") "/w/a.jph" f := fun f =>
      (hmem f).trans (and_iff_left fun he => he ▸ hentry')
    refine ⟨outputs, others, t', hrun, hall, fun hown => ?_⟩
    obtain ⟨o, ho, hsource⟩ := mem_map.mp ((hall "/w/a.jph").mpr .entry)
    obtain ⟨w, hw, hsource'⟩ := mem_map.mp ((hall "/w/a.jh").mpr
      (reachable_of_import .entry (by decide +kernel)))
    have hsame := inj_on_of_nodup_map (hout.ownFiles_iff.mp hown) ho hw (by
      rw [hsource, hsource']; decide +kernel)
    rw [hsame, hsource'] at hsource
    exact absurd hsource (by decide)
  · obtain ⟨outputs, t', hrun⟩ := exists_run (x := buildWithImports "main.jph" "out")
      (t := importPair "jaiph_stdlib.jph" "main.jph") (by decide +kernel)
    obtain ⟨others, hsources, -, hmem, hout⟩ :=
      (outcome_of_build (importPair "jaiph_stdlib.jph" "main.jph")).2 _ _ _ _ hrun
    have hentry : Path.resolve "main.jph" (importPair "jaiph_stdlib.jph" "main.jph").cwd = "/w/main.jph" := by
      decide +kernel
    have htarget : Path.resolve "out" (importPair "jaiph_stdlib.jph" "main.jph").cwd = "/w/out" := by
      decide +kernel
    have hsource : ("/w/main.jph" : Path).isSource = true := by decide +kernel
    rw [hentry, if_pos hsource] at hsources
    rw [hentry] at hmem
    rw [hentry, htarget] at hout
    refine ⟨outputs, t', hrun, fun hlib => ?_⟩
    obtain ⟨w, hw, hfile⟩ := mem_map.mp ((hmem "/w/jaiph_stdlib.jph").mpr
      ⟨reachable_of_import .entry (by decide +kernel), by decide⟩)
    have hne : outputs ≠ [] := by
      rintro rfl
      cases hsources
    refine (hout.holdsLibrary_iff hne).mp hlib w hw ?_
    rw [hfile]
    decide +kernel

end Build

end Runbook
