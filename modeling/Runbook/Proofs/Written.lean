import Runbook.Proofs.Closure

/-!
# What a build with imports writes

The search for imports ends on every tree, since every file is followed once. When it succeeds, it has
compiled the files that the entry reaches and changed nothing but their scripts, the library and missing
directories above them.
-/

open List

namespace Runbook

/-! ## New directories -/

namespace Node

/-- Every directory was there before, or its place is one of the given ones. -/
def NewDirs (added : Place → Prop) (r r' : Node) : Prop :=
  ∀ place children, r'.get? place = some (.dir children) →
    (∃ old, r.get? place = some (.dir old)) ∨ added place

section

variable {added added' : Place → Prop} {r r' r'' : Node}

theorem NewDirs.refl (added : Place → Prop) (r : Node) : NewDirs added r r :=
  fun _ children h => Or.inl ⟨children, h⟩

theorem NewDirs.trans (h : NewDirs added r r') (h' : NewDirs added r' r'') : NewDirs added r r'' := by
  intro place children hd
  rcases h' place children hd with ⟨old, ho⟩ | ha
  · exact h place old ho
  · exact Or.inr ha

theorem NewDirs.mono (h : NewDirs added r r') (ha : ∀ place, added place → added' place) :
    NewDirs added' r r' :=
  fun place children hd => (h place children hd).imp_right (ha place)

theorem newDirs_set (r : Node) (q : Place) (new : Node) (hnew : new.IsLeaf) :
    NewDirs (· = q) r (r.set q new) := by
  intro place children hd
  by_cases hbelow : q <+: place
  · obtain ⟨rest, rfl⟩ := hbelow
    rcases get?_set_below r q new with hfound | ⟨hsame, -⟩
    · rw [hfound] at hd
      cases rest with
      | nil => exact .inr (append_nil q)
      | cons n rest => simp [get?_leaf hnew] at hd
    · exact .inl ⟨children, hsame ▸ hd⟩
  · exact .inl ((shape_set_off r new hbelow).2.mp ⟨children, hd⟩)

theorem newDirs_set_file (r : Node) (q : Place) (mode : Nat) (contents : Bytes) :
    NewDirs (fun _ => False) r (r.set q (.file mode contents)) := by
  intro place children hd
  rcases newDirs_set r q (.file mode contents) trivial place children hd with ho | rfl
  · exact Or.inl ho
  · rcases get?_set_self_or r (.file mode contents) place with hs | hs
    · rw [hs] at hd
      cases hd
    · rw [hs] at hd
      cases hd

theorem MakesDirs.newDirs (h : MakesDirs added r r') : NewDirs added r r' := by
  induction h with
  | nil r => exact .refl _ r
  | @cons r _ q hq _ _ ih => exact ((newDirs_set r q (dir []) rfl).mono fun _ hp => hp ▸ hq).trans ih

end

end Node

namespace FileTree

variable {t t' : FileTree}

theorem newDirs_writeBytes {p : Path} {contents : Bytes} (h : t.writeBytes p contents = .ok t') :
    Node.NewDirs (fun _ => False) t.root t'.root := by
  obtain ⟨place, -, h⟩ := of_bind_ok h
  split at h
  · cases h
  · cases h
    exact Node.newDirs_set_file _ _ _ _
  · cases h
    exact Node.newDirs_set_file _ _ _ _

end FileTree

namespace Build

/-! ## Directories of scripts -/

section

variable {t t' : FileTree} {root outRoot file : Path}

theorem LibraryMade.newDirs {sources : List Path} (h : LibraryMade outRoot sources t t') :
    Node.NewDirs (fun _ => False) t.root t'.root := by
  by_cases hs : sources = []
  · obtain rfl := h.same hs
    exact .refl _ _
  · exact FileTree.newDirs_writeBytes (of_writeText (h.made hs))

theorem newDirs_compileInto {o : BuildOutput} (hout : Resolved outRoot) (hp : Placed ⟨t.cwd, root⟩ file)
    (h : (compileInto root outRoot file).run t = (.ok o, t')) :
    Node.NewDirs (Place.Above · (scriptPlace ⟨t.cwd, root⟩ outRoot file)) t.root t'.root := by
  obtain ⟨s, t₁, -, -, hdir, hw⟩ := compileInto_steps h
  rw [scriptPath, Layout.output_eq hp.names] at hdir
  have hmade := hdir.makesDirs hout (Layout.isName_scriptNames hp.names) (Layout.scriptNames_ne_nil hp.ne_nil)
  exact hmade.newDirs.trans ((FileTree.newDirs_writeBytes hw).mono fun _ hf => hf.elim)

def AboveScript (layout : Layout) (outRoot : Path) (files : List Path) (place : Place) : Prop :=
  ∃ f ∈ files, Place.Above place (scriptPlace layout outRoot f)

theorem newDirs_compileInto_cons {t'' : FileTree} {o : BuildOutput} {files : List Path}
    (hout : Resolved outRoot) (hp : ∀ f ∈ file :: files, Placed ⟨t.cwd, root⟩ f)
    (h : (compileInto root outRoot file).run t = (.ok o, t'))
    (hrest : (∀ f ∈ files, Placed ⟨t'.cwd, root⟩ f) →
      Node.NewDirs (AboveScript ⟨t'.cwd, root⟩ outRoot files) t'.root t''.root) :
    Node.NewDirs (AboveScript ⟨t.cwd, root⟩ outRoot (file :: files)) t.root t''.root := by
  obtain ⟨hfile, hfiles⟩ := forall_mem_cons.mp hp
  obtain ⟨_, -, -, hkept, -⟩ := compileInto_stored hout hfile h
  rw [hkept.cwd] at hrest
  refine ((newDirs_compileInto hout hfile h).mono ?_).trans ((hrest hfiles).mono ?_)
  · exact fun place ha => ⟨file, by simp, ha⟩
  · rintro place ⟨f, hf, ha⟩
    exact ⟨f, by simp [hf], ha⟩

theorem newDirs_compileAll (hout : Resolved outRoot) {files : List Path}
    (hp : ∀ f ∈ files, Placed ⟨t.cwd, root⟩ f) {outputs : List BuildOutput}
    (h : (files.mapM (compileInto root outRoot)).run t = (.ok outputs, t')) :
    Node.NewDirs (AboveScript ⟨t.cwd, root⟩ outRoot files) t.root t'.root := by
  induction files generalizing t outputs with
  | nil =>
    obtain ⟨-, rfl⟩ := BuildM.of_pure_ok h
    exact .refl _ _
  | cons file rest ih =>
    rw [mapM_cons] at h
    obtain ⟨o, t₁, ho, h⟩ := BuildM.of_bind_ok h
    obtain ⟨os, t₂, hos, h⟩ := BuildM.of_bind_ok h
    obtain ⟨-, rfl⟩ := BuildM.of_pure_ok h
    exact newDirs_compileInto_cons hout hp ho fun hrest => ih hrest hos

theorem Search.newDirs {seen queue compiled : List Path} {current : List (Path × Import)}
    {result : Except CompileError Unit × FileTree}
    (h : Search root outRoot t seen queue current compiled result) (hout : Resolved outRoot)
    (hp : ∀ f ∈ compiled, Placed ⟨t.cwd, root⟩ f) {u : Unit} (hok : result = (.ok u, t')) :
    Node.NewDirs (AboveScript ⟨t.cwd, root⟩ outRoot compiled) t.root t'.root := by
  induction h with
  | done =>
    cases hok
    exact .refl _ _
  | unread => cases hok
  | follow _ _ ih => exact ih hp hok
  | known _ _ ih => exact ih hp hok
  | refused => cases hok
  | compile _ _ hrun _ ih => exact newDirs_compileInto_cons hout hp hrun fun hrest => ih hrest hok

end

/-! ## What is written -/

section

variable {t t' : FileTree} {entry target outRoot : Path}

/-- The texts that are written: the runtime library, and the script of each of the files. -/
inductive Rendered (t : FileTree) (layout : Layout) (outRoot : Path) (files : List Path) :
    Path → Text → Prop
  | library : Rendered t layout outRoot files (outRoot.push libraryName) Library.text
  | script {f : Path} {s : Script} (hf : f ∈ files) (hs : t.compile f layout.root = .ok s) :
      Rendered t layout outRoot files (scriptPath layout outRoot f) (s.text ++ "\n")

/-- Each path holds a text that is written to it, every other file is as it was before, and the new
directories are those on the way to the paths. -/
structure WritesExactly (t t' : FileTree) (written : Path → Text → Prop) : Prop where
  holds : ∀ p text, written p text → ∃ text', written p text' ∧ t'.readBytes p = .ok (Utf8.encode text')
  kept : FileTree.Kept (fun place => ∃ p text, written p text ∧ t'.locate p = .ok place) t t'
  dirs : Node.NewDirs (fun place => ∃ p text below, written p text ∧ t'.locate p = .ok below ∧
    Place.Above place below) t.root t'.root

theorem CompiledFrom.output_of_libraryPlace {layout : Layout} {o : BuildOutput}
    (h : CompiledFrom t layout outRoot o)
    (hp : libraryPlace layout.cwd outRoot = scriptPlace layout outRoot o.source) :
    o.output = outRoot.push libraryName := by
  rw [h.output, scriptPath, Layout.output_eq h.placed.names,
    ← append_cancel_left hp]
  rfl

section

variable {t₀ : FileTree} {found : List Path} {outputs others : List BuildOutput}
  (h : BuiltClosure t t₀ t' entry outRoot found outputs others) (hs : entry.isSource = true)

include h

theorem BuiltClosure.rendered {o : BuildOutput} (ho : o ∈ outputs ++ others) :
    Rendered t (entryLayout t entry) outRoot ((outputs ++ others).map (·.source)) o.output
      (o.shell ++ "\n") := by
  obtain ⟨⟨s, hs, hshell⟩, houtput, -⟩ := h.wrote.compiled o ho
  rw [houtput, hshell]
  exact .script (mem_map_of_mem ho) hs

theorem BuiltClosure.holds_output {o : BuildOutput} (ho : o ∈ outputs ++ others) :
    ∃ text, Rendered t (entryLayout t entry) outRoot ((outputs ++ others).map (·.source)) o.output text ∧
      t'.readBytes o.output = .ok (Utf8.encode text) := by
  obtain ⟨w, hw, hread⟩ := h.wrote.last o ho
  obtain ⟨hmem, hpath⟩ := of_lastAt_eq_some hw
  have hr := h.rendered hmem
  rw [hpath] at hr
  exact ⟨w.shell ++ "\n", hr, hread⟩

theorem BuiltClosure.script_at {f : Path} (hf : f ∈ (outputs ++ others).map (·.source)) :
    ∃ p text, Rendered t (entryLayout t entry) outRoot ((outputs ++ others).map (·.source)) p text ∧
      t'.locate p = .ok (scriptPlace (entryLayout t entry) outRoot f) := by
  obtain ⟨o, ho, rfl⟩ := mem_map.mp hf
  exact ⟨o.output, _, h.rendered ho, h.wrote.locate o ho⟩

include hs

theorem BuiltClosure.libraryStored : LibraryStored t₀ outRoot :=
  h.prepared.library (by rw [h.sources, if_pos hs]; simp)

theorem BuiltClosure.library_at : t'.locate (outRoot.push libraryName) = .ok (libraryPlace t.cwd outRoot) := by
  rw [← h.prepared.kept.cwd]
  exact h.wrote.kept.locate (h.libraryStored hs).locate

theorem BuiltClosure.holds {p : Path} {text : Text}
    (hp : Rendered t (entryLayout t entry) outRoot ((outputs ++ others).map (·.source)) p text) :
    ∃ text', Rendered t (entryLayout t entry) outRoot ((outputs ++ others).map (·.source)) p text' ∧
      t'.readBytes p = .ok (Utf8.encode text') := by
  cases hp with
  | script hf _ =>
    obtain ⟨o, ho, rfl⟩ := mem_map.mp hf
    have hheld := h.holds_output ho
    rwa [(h.wrote.compiled o ho).output] at hheld
  | library =>
    -- a script at the place of the library has its path too
    by_cases hscript : ∃ o ∈ outputs ++ others,
        libraryPlace t.cwd outRoot = scriptPlace (entryLayout t entry) outRoot o.source
    · obtain ⟨o, ho, hplace⟩ := hscript
      have hheld := h.holds_output ho
      rwa [(h.wrote.compiled o ho).output_of_libraryPlace hplace] at hheld
    · have hstored := h.libraryStored hs
      refine ⟨Library.text, .library, h.wrote.kept.readBytes hstored.locate ?_ hstored.readBytes⟩
      rwa [h.prepared.kept.cwd]

theorem BuiltClosure.kept : FileTree.Kept (fun place => ∃ p text,
    Rendered t (entryLayout t entry) outRoot ((outputs ++ others).map (·.source)) p text ∧
      t'.locate p = .ok place) t t' := by
  refine (h.prepared.kept.mono ?_).trans (h.wrote.kept.mono ?_)
  · rintro place ⟨-, rfl⟩
    exact ⟨_, _, .library, h.library_at hs⟩
  · rintro place ⟨o, ho, rfl⟩
    exact h.script_at (mem_map_of_mem ho)

end

theorem newDirs_build {t₁ : FileTree} {outputs : List BuildOutput}
    (h : (build entry (some target)).run t = (.ok outputs, t₁))
    (hp : ∀ f ∈ sourcesOf t (entry.resolve t.cwd), Placed ⟨t.cwd, rootOf t (entry.resolve t.cwd)⟩ f) :
    Node.NewDirs (fun place => Place.Above place (libraryPlace t.cwd (target.resolve t.cwd)) ∨
      AboveScript ⟨t.cwd, rootOf t (entry.resolve t.cwd)⟩ (target.resolve t.cwd)
        (sourcesOf t (entry.resolve t.cwd)) place) t.root t₁.root := by
  obtain ⟨node, t₂, t₀, -, hdirs, -, hlib, hall⟩ := build_steps h
  have hroot : outRootOf t (entry.resolve t.cwd) (some target) = target.resolve t.cwd := rfl
  rw [hroot] at hdirs hlib hall
  have hout : Resolved (target.resolve t.cwd) := resolved_resolve target t.cwd
  have hcwd : t₀.cwd = t.cwd :=
    (hlib.prepared hout).kept.cwd.trans (FileTree.createDirs_spec hdirs).cwd
  have hscripts := newDirs_compileAll hout (fun f hf => by rw [hcwd]; exact hp f hf) hall
  rw [hcwd] at hscripts
  refine ((makesDirs_outRoot hout hdirs).newDirs.mono ?_).trans ((hlib.newDirs.mono ?_).trans (hscripts.mono ?_))
  · exact fun _ hpre => Or.inl (Place.above_append_cons hpre libraryName [])
  · exact fun _ hf => hf.elim
  · exact fun _ ha => Or.inr ha

theorem Search.read {root file : Path} {seen queue compiled : List Path} {u : Unit}
    (h : Search root outRoot t seen (file :: queue) [] compiled (.ok u, t')) :
    ∃ m, t.readModule file = .ok m := by
  cases h with
  | follow hread _ => exact ⟨_, hread⟩

theorem BuiltClosure.newDirs {t₀ t₁ : FileTree} {found : List Path} {outputs others : List BuildOutput}
    (h : BuiltClosure t t₀ t' (entry.resolve t.cwd) (target.resolve t.cwd) found outputs others)
    (hs : (entry.resolve t.cwd).isSource = true)
    (hbuild : (build entry (some target)).run t = (.ok outputs, t₁))
    (hsearch : Search (entryLayout t (entry.resolve t.cwd)).root (target.resolve t.cwd) t₁
      [entry.resolve t.cwd] [entry.resolve t.cwd] [] found (.ok (), t')) :
    Node.NewDirs (fun place => ∃ p text below, Rendered t (entryLayout t (entry.resolve t.cwd))
      (target.resolve t.cwd) ((outputs ++ others).map (·.source)) p text ∧ t'.locate p = .ok below ∧
        Place.Above place below) t.root t'.root := by
  obtain ⟨m, hm⟩ := hsearch.read
  obtain ⟨_, hentered⟩ := entered_of_build hbuild hm
  have hplaced : ∀ f ∈ (outputs ++ others).map (·.source), Placed (entryLayout t (entry.resolve t.cwd)) f :=
    forall_mem_map.mpr fun o ho => (h.wrote.compiled o ho).placed
  rw [map_append, h.outputs_source, h.others_source, forall_mem_append] at hplaced
  have hentry := newDirs_build hbuild (by rw [hentered.root]; exact hplaced.1)
  have himports := hsearch.newDirs (resolved_resolve target t.cwd)
    (by rw [cwd_of_build hbuild]; exact hplaced.2) rfl
  rw [hentered.root, ← h.outputs_source] at hentry
  rw [cwd_of_build hbuild, ← h.others_source] at himports
  refine (hentry.mono ?_).trans (himports.mono ?_)
  · rintro place (habove | ⟨f, hf, habove⟩)
    · exact ⟨_, _, _, .library, h.library_at hs, habove⟩
    · obtain ⟨p, text, hp, hl⟩ := h.script_at (by rw [map_append]; exact mem_append_left _ hf)
      exact ⟨p, text, _, hp, hl, habove⟩
  · rintro place ⟨f, hf, habove⟩
    obtain ⟨p, text, hp, hl⟩ := h.script_at (by rw [map_append]; exact mem_append_right _ hf)
    exact ⟨p, text, _, hp, hl, habove⟩

theorem BuiltClosure.outputs_eq {t₀ : FileTree} {found : List Path} {outputs others : List BuildOutput}
    (h : BuiltClosure t t₀ t' entry outRoot found outputs others) (hs : entry.isSource = true) :
    ∃ s, t.compile entry (entryLayout t entry).root = .ok s ∧
      outputs = [⟨entry, scriptPath (entryLayout t entry) outRoot entry, s.text⟩] := by
  have hsource := h.outputs_source
  rw [h.sources, if_pos hs] at hsource
  obtain ⟨o, rfl, ho⟩ := map_eq_singleton_iff.mp hsource
  obtain ⟨⟨s, hcompile, hshell⟩, houtput, -⟩ := h.wrote.compiled o (by simp)
  rw [ho] at hcompile houtput
  exact ⟨s, hcompile, by rw [← houtput, ← hshell, ← ho]⟩

/-- A build with imports ends, and it runs in one way: it compiles the entry and goes on with imports that
were not compiled before. If it succeeds, it has compiled what the entry reaches, each file once, written
their scripts and the library with the directories on the way, and nothing else, and it reports the output
of the entry. -/
theorem closure_of_buildWithImports (t : FileTree) (entry target : Path)
    (hs : (entry.resolve t.cwd).isSource = true) :
    ∃ compiled, Built t entry target compiled ((buildWithImports entry target).run t) ∧
      (∀ compiled' result, Built t entry target compiled' result →
        compiled' = compiled ∧ result = (buildWithImports entry target).run t) ∧
      ∀ outputs t', (buildWithImports entry target).run t = (.ok outputs, t') →
        compiled.Nodup ∧ (∀ f, f ∈ compiled ↔ Reachable t (entry.resolve t.cwd) f) ∧
        (∀ f ∈ compiled, ∃ s, t.compile f (entryLayout t (entry.resolve t.cwd)).root = .ok s) ∧
        WritesExactly t t' (Rendered t (entryLayout t (entry.resolve t.cwd)) (target.resolve t.cwd) compiled) ∧
        ∃ s, t.compile (entry.resolve t.cwd) (entryLayout t (entry.resolve t.cwd)).root = .ok s ∧
          outputs = [⟨entry.resolve t.cwd, scriptPath (entryLayout t (entry.resolve t.cwd))
            (target.resolve t.cwd) (entry.resolve t.cwd), s.text⟩] := by
  obtain ⟨compiled, hbuilt⟩ := built_buildWithImports t entry target
  refine ⟨compiled, hbuilt, fun compiled' result h => h.unique hbuilt, fun outputs t' hrun => ?_⟩
  rw [hrun] at hbuilt
  obtain ⟨t₀, t₁, found, others, hbuild, hsearch, hb, rfl⟩ := hbuilt.closure
  refine ⟨hb.nodup_sources, fun f => ?_, forall_mem_map.mpr fun o ho => ?_,
    ⟨fun _ _ => hb.holds hs, hb.kept hs, hb.newDirs hs hbuild hsearch⟩, hb.outputs_eq hs⟩
  · rw [hb.mem_sources_iff]
    exact and_iff_left_of_imp fun _ he => he ▸ hs
  · obtain ⟨⟨s, hcompile, -⟩, -, -⟩ := hb.wrote.compiled o ho
    exact ⟨s, hcompile⟩

end

/-- Two sources that import each other, one of which also imports itself. -/
def importCycle : FileTree where
  cwd := "/w"
  root := .dir [("w", .dir [
    ("main.jph", .file 0o644 (Utf8.encode "import \"lib/a\" as a\nworkflow default \x7b\n  run a.one\n\x7d\n")),
    ("lib", .dir [("a.jph", .file 0o644 (Utf8.encode
      "import \"../main\" as m\nimport \"a\" as b\nworkflow one \x7b\n\x7d\n"))])])]

/-- The cycle is built, and each source is compiled once. -/
theorem closure_of_importCycle :
    (Path.resolve "main.jph" importCycle.cwd).isSource = true ∧
    ∃ compiled outputs t', (buildWithImports "main.jph" "out").run importCycle = (.ok outputs, t') ∧
      Built importCycle "main.jph" "out" compiled (.ok outputs, t') ∧
      compiled.Perm ["/w/main.jph", "/w/lib/a.jph"] ∧
      (∃ text, t'.readBytes "/w/out/lib/a.sh" = .ok (Utf8.encode text)) ∧
      outputs.map (·.output) = [("/w/out/main.sh" : Path)] := by
  have hs : (Path.resolve "main.jph" importCycle.cwd).isSource = true := by decide +kernel
  have hentry : Path.resolve "main.jph" importCycle.cwd = "/w/main.jph" := by decide +kernel
  have htarget : Path.resolve "out" importCycle.cwd = "/w/out" := by decide +kernel
  obtain ⟨outputs, t', hrun⟩ := exists_run (x := buildWithImports "main.jph" "out") (t := importCycle)
    (by decide +kernel)
  obtain ⟨compiled, hbuilt, -, hok⟩ := closure_of_buildWithImports importCycle "main.jph" "out" hs
  obtain ⟨hnodup, hmem, hcompile, hwrites, s, -, rfl⟩ := hok outputs t' hrun
  rw [hrun] at hbuilt
  rw [hentry] at hmem
  have hclosed : Closed importCycle ["/w/main.jph", "/w/lib/a.jph"] ["/w/main.jph", "/w/lib/a.jph"] := by
    decide +kernel
  have hlib : Reachable importCycle "/w/main.jph" "/w/lib/a.jph" :=
    reachable_of_import .entry (by decide +kernel)
  refine ⟨hs, compiled, _, t', hrun, hbuilt, ?_, ?_, ?_⟩
  · refine (perm_ext_iff_of_nodup hnodup (by decide +kernel)).mpr fun f => (hmem f).trans ⟨?_, ?_⟩
    · exact mem_of_reachable hclosed (by simp)
    · intro hf
      rcases mem_cons.mp hf with rfl | hf
      · exact .entry
      · rw [mem_singleton.mp hf]
        exact hlib
  · obtain ⟨script, hscript⟩ := hcompile _ ((hmem _).mpr hlib)
    obtain ⟨text, -, hread⟩ := hwrites.holds _ _ (.script ((hmem _).mpr hlib) hscript)
    exact ⟨text, hread⟩
  · have hout : scriptPath (entryLayout importCycle "/w/main.jph") "/w/out" "/w/main.jph" = "/w/out/main.sh" := by
      decide +kernel
    rw [hentry, htarget, hout]
    rfl

end Build

end Runbook
