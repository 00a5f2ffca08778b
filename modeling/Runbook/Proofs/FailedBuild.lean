import Runbook.Proofs.Rebuild
import Runbook.Proofs.Written

/-!
# Builds that stop at a source

When a source is refused, the output root has been created, the library written, and the script of each
source before it put in its place. Scripts change no source, so the first source that does not compile is
the same one before and after.
-/

open List

namespace Runbook
open FileTree

namespace FileTree

/-- The tree with a file at the path, in directories that are created for it. -/
def putFile (t : FileTree) (path : Path) (contents : Bytes) : Except FileError FileTree := do
  let t ← (path.parent.map fun folder => (t.createDirs folder).mapError Prod.fst).getD (.ok t)
  t.writeBytes path contents

/-- The tree with files put in their places, one after the other. -/
def putFiles (t : FileTree) (files : List (Path × Bytes)) : Except FileError FileTree :=
  files.foldlM (fun t file => t.putFile file.1 file.2) t

end FileTree

namespace BuildM

variable {α : Type} {t : FileTree}

theorem run_look_error {f : FileTree → Except CompileError α} {e : CompileError} (h : f t = .error e) :
    (look f).run t = (.error e, t) :=
  Prod.ext h rfl

end BuildM

namespace Build

def outputFile (o : BuildOutput) : Path × Bytes := (o.output, Utf8.encode (o.shell ++ "\n"))

/-- The tree with the output root, the library and the outputs, made and written in this order. -/
def withOutputs (t : FileTree) (outRoot : Path) (outputs : List BuildOutput) : Except FileError FileTree := do
  let t ← (t.createDirs outRoot).mapError Prod.fst
  let t ← t.writeBytes (outRoot.push libraryName) (Utf8.encode Library.text)
  t.putFiles (outputs.map outputFile)

/-- The output is what its source compiles to, with the path of its script. -/
def OutputOf (t : FileTree) (layout : Layout) (outRoot : Path) (o : BuildOutput) : Prop :=
  ∃ s, t.compile o.source layout.root = .ok s ∧
    o = ⟨o.source, scriptPath layout outRoot o.source, s.text⟩

variable {base t t' : FileTree} {root outRoot file : Path} {o : BuildOutput} {outputs : List BuildOutput}
  {e : CompileError}

theorem dirMade_of_putFile {path : Path} {contents : Bytes} (h : t.putFile path contents = .ok t') :
    ∃ t₁, DirMade path t t₁ ∧ t₁.writeBytes path contents = .ok t' := by
  obtain ⟨t₁, hd, hw⟩ := of_bind_ok h
  refine ⟨t₁, ⟨fun folder hfolder => ?_, fun hnone => ?_⟩, hw⟩
  · rw [hfolder] at hd
    exact of_mapError_ok hd
  · rw [hnone] at hd
    cases hd
    rfl

/-! ## Sources that compile -/

section

variable (hroot : Rooted base root) (hout : Resolved outRoot)

include hroot hout

theorem compileInto_of_putFile (hk : Kept ScriptPlace base t)
    (hsource : SourcePath (o.source.resolve base.cwd)) (ho : OutputOf base ⟨base.cwd, root⟩ outRoot o)
    (hput : t.putFile (outputFile o).1 (outputFile o).2 = .ok t') :
    (compileInto root outRoot o.source).run t = (.ok o, t') ∧
      Wrote base t t' ⟨base.cwd, root⟩ outRoot [o] := by
  obtain ⟨s, hs, heq⟩ := ho
  have houtput : o.output = scriptPath ⟨base.cwd, root⟩ outRoot o.source := by rw [heq]
  have hshell : o.shell = s.text := by rw [heq]
  have hs' : t.compile o.source root = .ok s :=
    compile_source hk.sameSources.symm (by rwa [hk.cwd]) hs
  obtain ⟨t₁, hdir, hwrite⟩ := dirMade_of_putFile hput
  simp only [outputFile, hshell, houtput, ← hk.cwd] at hdir hwrite
  have hrun := run_compileInto hs' hdir hwrite
  rw [hk.cwd, ← heq] at hrun
  exact ⟨hrun, (compileInto_wrote hroot hout hk hsource hrun).2⟩

theorem compileAll_of_putFiles (hk : Kept ScriptPlace base t)
    (hsources : ∀ o ∈ outputs, SourcePath (o.source.resolve base.cwd))
    (ho : ∀ o ∈ outputs, OutputOf base ⟨base.cwd, root⟩ outRoot o)
    (hput : t.putFiles (outputs.map outputFile) = .ok t') :
    ((outputs.map (·.source)).mapM (compileInto root outRoot)).run t = (.ok outputs, t') ∧
      Wrote base t t' ⟨base.cwd, root⟩ outRoot outputs := by
  induction outputs generalizing t with
  | nil =>
    cases hput
    exact ⟨rfl, .nil _ _ _ _⟩
  | cons o rest ih =>
    obtain ⟨hsource, hsources⟩ := forall_mem_cons.mp hsources
    obtain ⟨hfirst, ho⟩ := forall_mem_cons.mp ho
    obtain ⟨t₁, hone, hput⟩ := of_bind_ok hput
    obtain ⟨hrun, hwrote⟩ := compileInto_of_putFile hroot hout hk hsource hfirst hone
    obtain ⟨hruns, hwrotes⟩ := ih (hk.trans hwrote.scripts) hsources ho hput
    refine ⟨?_, hwrote.append hwrotes⟩
    rw [map_cons, mapM_cons]
    exact (BuildM.run_bind_ok hrun).trans (BuildM.run_bind_ok hruns)

end

/-! ## A source that does not compile -/

theorem compileInto_refused (h : t.compile file root = .error e) :
    (compileInto root outRoot file).run t = (.error e, t) :=
  BuildM.run_bind_error (BuildM.run_look_error (f := (·.compile file root)) h)

theorem compileAll_refused {before later : List Path}
    (hbefore : (before.mapM (compileInto root outRoot)).run t = (.ok outputs, t'))
    (h : t'.compile file root = .error e) :
    ((before ++ file :: later).mapM (compileInto root outRoot)).run t = (.error e, t') := by
  rw [mapM_append, mapM_cons]
  exact (BuildM.run_bind_ok hbefore).trans
    (BuildM.run_bind_error (BuildM.run_bind_error (compileInto_refused h)))

/-- A source that does not compile does not compile while only scripts have changed either, and if it is
there, for the same reason. -/
theorem compile_refused (hk : Kept ScriptPlace base t) (hsource : SourcePath (file.resolve base.cwd))
    (h : base.compile file root = .error e) :
    ∃ e', t.compile file root = .error e' ∧ (base.isFile (file.resolve base.cwd) = true → e' = e) := by
  cases hc : t.compile file root with
  | ok s =>
    rw [compile_source hk.sameSources hsource hc] at h
    cases h
  | error e' =>
    refine ⟨e', rfl, fun hfile => ?_⟩
    rw [compile_eq hk.sameSources hsource hfile, h] at hc
    exact (Except.error.inj hc).symm

/-! ## The build -/

theorem stat_of_sourcesOf {input : Path} (h : sourcesOf t input ≠ []) : ∃ node, t.stat input = .ok node := by
  cases hs : t.stat input with
  | ok node => exact ⟨node, rfl⟩
  | error e => simp [sourcesOf, hs] at h

theorem pairwise_sourcesOf (t : FileTree) (input : Path) :
    (sourcesOf t input).Pairwise fun p q => p.le q = true := by
  have htrans : ∀ p q r : Path, p.le q = true → q.le r = true → p.le r = true :=
    fun _ _ _ => Path.le_trans
  have htotal : ∀ p q : Path, (p.le q || q.le p) = true := by
    intro p q
    simpa using Path.le_total p q
  simp only [sourcesOf]
  split
  · exact pairwise_mergeSort htrans htotal _
  · exact .nil

/-- Once the library has been written, the directories on the way to it can be read. -/
theorem listable_outRoot {input cwd : Path} {node : Node} {t₁ t₀ : FileTree} {u : Unit} (hout : Resolved outRoot)
    (hs : t.stat (input.resolve cwd) = .ok node) (hl : Listable t (input.resolve cwd))
    (hdirs : t.createDirs outRoot = .ok t₁) (hlibrary : (writeLibrary outRoot).run t₁ = (.ok u, t₀)) :
    Listable t₁ (input.resolve cwd) := by
  by_cases hne : outRoot = ⟨[]⟩
  · subst hne
    cases hdirs
    exact hl
  · have hnames : ∀ n ∈ [libraryName], IsName n := forall_mem_singleton.mpr libraryName_isName
    obtain ⟨place, hlocate, -⟩ := writeBytes_spec (of_writeText hlibrary)
    have hr : refusal? (outRoot.join (Path.ofParts false ([libraryName].map .name))) = none :=
      (locate_iff.mp hlocate).1
    refine listable_extends (createDirs_spec hdirs) ?_ hne hs hl
    refine (makesDirs_outRoot hout hdirs).extends.mono ?_
    rintro q isDir ⟨rfl, hq⟩
    exact addable_on_way hout hnames (libraryPlace_isScript t.cwd outRoot) hr (by simp)
      (Place.above_append_cons hq libraryName [])

theorem steps_of_withOutputs (hroot : Rooted t root) (hout : Resolved outRoot)
    (hsources : ∀ o ∈ outputs, SourcePath (o.source.resolve t.cwd))
    (ho : ∀ o ∈ outputs, OutputOf t ⟨t.cwd, root⟩ outRoot o) (h : withOutputs t outRoot outputs = .ok t') :
    ∃ t₁ t₀, t.createDirs outRoot = .ok t₁ ∧ (writeLibrary outRoot).run t₁ = (.ok (), t₀) ∧
      ((outputs.map (·.source)).mapM (compileInto root outRoot)).run t₀ = (.ok outputs, t') ∧
      Kept (· = libraryPlace t.cwd outRoot) t t₀ ∧ Wrote t t₀ t' ⟨t.cwd, root⟩ outRoot outputs := by
  obtain ⟨t₁, hdirs, h⟩ := of_bind_ok h
  obtain ⟨t₀, hlibrary, hput⟩ := of_bind_ok h
  have hdirs := of_mapError_ok hdirs
  have hwrite : (writeLibrary outRoot).run t₁ = (.ok (), t₀) := run_writeText hlibrary
  have hmade := createDirs_spec hdirs
  obtain ⟨hkept, -⟩ := writeLibrary_spec hout hwrite
  rw [hmade.cwd] at hkept
  have hk := (hmade.mono fun _ hf => hf.elim).trans hkept
  have hscripts : Kept ScriptPlace t t₀ := hk.mono fun place hp => hp ▸ libraryPlace_isScript _ _
  obtain ⟨hrun, hwrote⟩ := compileAll_of_putFiles hroot hout hscripts hsources ho hput
  exact ⟨t₁, t₀, hdirs, hwrite, hrun, hk, hwrote⟩

/-- If the directories can be read, the sources before `file` compile and are written and `file` does not
compile, the build ends with the error of `file`. It leaves the tree with the output root, the library and
the outputs of the sources before it, written in this order; no other file has changed, and there is no new
directory but those on the way to them. -/
theorem build_stops (t t' : FileTree) (input file : Path) (target : Option Path) (outputs : List BuildOutput)
    (later : List Path) (e : CompileError) (hlist : Listable t (input.resolve t.cwd))
    (hsources : sourcesOf t (input.resolve t.cwd) = outputs.map (·.source) ++ file :: later)
    (houtputs : ∀ o ∈ outputs, OutputOf t ⟨t.cwd, rootOf t (input.resolve t.cwd)⟩
      (outRootOf t (input.resolve t.cwd) target) o)
    (hwritten : withOutputs t (outRootOf t (input.resolve t.cwd) target) outputs = .ok t')
    (hrefused : t.compile file (rootOf t (input.resolve t.cwd)) = .error e) :
    (sourcesOf t (input.resolve t.cwd)).Pairwise (fun p q => p.le q = true) ∧
      (∃ e', (build input target).run t = (.error e', t') ∧
        t'.compile file (rootOf t (input.resolve t.cwd)) = .error e' ∧
        (t.isFile (file.resolve t.cwd) = true → e' = e)) ∧
      Kept (fun place => place = libraryPlace t.cwd (outRootOf t (input.resolve t.cwd) target) ∨
        ∃ o ∈ outputs, place = scriptPlace ⟨t.cwd, rootOf t (input.resolve t.cwd)⟩
          (outRootOf t (input.resolve t.cwd) target) o.source) t t' ∧
      Node.NewDirs (fun place => place <+: basePlace t.cwd (outRootOf t (input.resolve t.cwd) target) ∨
        AboveScript ⟨t.cwd, rootOf t (input.resolve t.cwd)⟩ (outRootOf t (input.resolve t.cwd) target)
          (outputs.map (·.source)) place) t.root t'.root := by
  have hsome : sourcesOf t (input.resolve t.cwd) ≠ [] := by simp [hsources]
  obtain ⟨node, hnode⟩ := stat_of_sourcesOf hsome
  have hroot := rooted_rootOf hnode
  have hout := resolved_outRootOf hnode target
  have hpaths : ∀ f ∈ outputs.map (·.source) ++ file :: later, SourcePath (f.resolve t.cwd) := by
    rw [← hsources]
    exact fun f hf => sourcePath_of_isSource (isSource_of_mem_sourcesOf hf) t.cwd
  obtain ⟨hbefore, hfile⟩ := forall_mem_append.mp hpaths
  obtain ⟨t₁, t₀, hdirs, hlibrary, hrun, hk, hwrote⟩ :=
    steps_of_withOutputs hroot hout (fun o ho => hbefore _ (mem_map_of_mem ho)) houtputs hwritten
  have hscripts : Kept ScriptPlace t t' :=
    (hk.mono fun place hp => hp ▸ libraryPlace_isScript _ _).trans hwrote.scripts
  obtain ⟨e', he', hsame⟩ := compile_refused hscripts (hfile file mem_cons_self) hrefused
  refine ⟨pairwise_sourcesOf _ _, ⟨e', ?_, he', hsame⟩, ?_, ?_⟩
  · have hlist' := listable_outRoot hout hnode hlist hdirs hlibrary
    rw [run_build hnode hdirs hlist', compileSources, hsources, if_pos (by simp)]
    exact (BuildM.run_bind_ok hlibrary).trans (compileAll_refused hrun he')
  · exact (hk.mono fun _ => Or.inl).trans (hwrote.kept.mono fun _ => Or.inr)
  · have hplaced : ∀ f ∈ outputs.map (·.source), Placed ⟨t₀.cwd, rootOf t (input.resolve t.cwd)⟩ f := by
      rw [hk.cwd]
      exact forall_mem_map.mpr fun o ho => (hwrote.compiled o ho).placed
    have hmade := newDirs_compileAll hout hplaced hrun
    rw [hk.cwd] at hmade
    refine ((makesDirs_outRoot hout hdirs).newDirs.mono fun _ => Or.inl).trans
      (((newDirs_writeBytes (of_writeText hlibrary)).mono fun _ hf => hf.elim).trans ?_)
    exact hmade.mono fun _ => Or.inr

/-- Three sources, the second of which names a rule that does not exist. -/
def brokenSecond : FileTree where
  cwd := "/w"
  root := .dir [("w", .dir [
    ("lib", .dir [("a.jph", .file 0o644 (Utf8.encode "workflow one \x7b\n\x7d\n"))]),
    ("main.jph", .file 0o644 (Utf8.encode "workflow default \x7b\n  ensure missing\n\x7d\n")),
    ("z.jph", .file 0o644 (Utf8.encode "workflow two \x7b\n\x7d\n"))])]

theorem sourcesOf_brokenSecond :
    sourcesOf brokenSecond "/w" = [("/w/lib/a.jph" : Path), ("/w/main.jph" : Path), ("/w/z.jph" : Path)] := by
  have hsorted : [("/w/lib/a.jph" : Path), ("/w/main.jph" : Path), ("/w/z.jph" : Path)].Pairwise
      fun p q => p.le q = true := by decide +kernel
  exact mergeSort_of_pairwise hsorted

theorem listable_brokenSecond : Listable brokenSecond "/w" := by
  intro node hs
  cases hs
  decide +kernel

def firstOutput : BuildOutput where
  source := "/w/lib/a.jph"
  output := "/w/out/lib/a.sh"
  shell := Text.unlines [
    "set -euo pipefail",
    "if [[ -n \"$\x7b__jaiph_loaded_lib__a:-\x7d\" ]]; then return 0; fi",
    "__jaiph_loaded_lib__a=1",
    "source \"$\x7bJAIPH_STDLIB:-$(dirname \"$\x7bBASH_SOURCE[0]\x7d\")/../jaiph_stdlib.sh\x7d\"",
    "",
    "lib__a__workflow_one__impl() \x7b",
    "  :",
    "\x7d",
    "",
    "lib__a__workflow_one() \x7b",
    "  jaiph__run_step lib__a__workflow_one lib__a__workflow_one__impl \"$@\"",
    "\x7d"]

theorem outputOf_firstOutput : OutputOf brokenSecond ⟨"/w", "/w"⟩ "/w/out" firstOutput := by
  have hcompiles : (brokenSecond.compile "/w/lib/a.jph" "/w").toOption.map Script.text =
      some firstOutput.shell := by decide +kernel
  have hscript : scriptPath ⟨"/w", "/w"⟩ "/w/out" "/w/lib/a.jph" = "/w/out/lib/a.sh" := by decide +kernel
  obtain ⟨s, hs, htext⟩ := Option.map_eq_some_iff.mp hcompiles
  refine ⟨s, of_toOption hs, ?_⟩
  rw [htext]
  exact congrArg (fun p => BuildOutput.mk "/w/lib/a.jph" p firstOutput.shell) hscript.symm

/-- Built into a directory of its own, the tree gets the first script, and the second source is reported. -/
theorem build_stops_brokenSecond :
    ∃ t', withOutputs brokenSecond "/w/out" [firstOutput] = .ok t' ∧
      (build "." (some "out")).run brokenSecond =
        (.error (.validation "/w/main.jph" ⟨2, 3⟩ (.unknownName .rule "missing")), t') ∧
      ∀ mode contents, t'.root.get? ["w", "out", "z.sh"] ≠ some (.file mode contents) := by
  have hwrites : (withOutputs brokenSecond "/w/out" [firstOutput]).toOption.isSome = true := by decide +kernel
  obtain ⟨t', ht'⟩ := Option.isSome_iff_exists.mp hwrites
  have hwritten := of_toOption ht'
  have hinput : Path.resolve "." brokenSecond.cwd = "/w" := by decide +kernel
  have hroot : rootOf brokenSecond "/w" = "/w" := rfl
  have houtRoot : outRootOf brokenSecond "/w" (some "out") = "/w/out" := by decide +kernel
  have hrefused : brokenSecond.compile "/w/main.jph" "/w" =
      .error (.validation "/w/main.jph" ⟨2, 3⟩ (.unknownName .rule "missing")) := by decide +kernel
  have hstops := build_stops brokenSecond t' "." "/w/main.jph" (some "out") [firstOutput] ["/w/z.jph"]
    (.validation "/w/main.jph" ⟨2, 3⟩ (.unknownName .rule "missing"))
  rw [hinput, hroot, houtRoot] at hstops
  obtain ⟨-, ⟨e, hrun, -, he⟩, hkept, -⟩ := hstops listable_brokenSecond sourcesOf_brokenSecond
    (forall_mem_singleton.mpr outputOf_firstOutput) hwritten hrefused
  rw [he (by decide +kernel)] at hrun
  refine ⟨t', hwritten, hrun, fun mode contents hz => ?_⟩
  have hother : ¬ ((["w", "out", "z.sh"] : Place) = libraryPlace brokenSecond.cwd "/w/out" ∨ ∃ o ∈ [firstOutput],
      (["w", "out", "z.sh"] : Place) = scriptPlace ⟨brokenSecond.cwd, "/w"⟩ "/w/out" o.source) := by
    decide +kernel
  have hbefore := (hkept.root.files _ hother mode contents).mp hz
  cases hbefore

end Build

end Runbook
