import Mathlib.Data.List.Perm.Subperm
import Runbook.Proofs.Build
import Runbook.Proofs.Linking

/-!
# The import closure

A build with imports compiles exactly the files that the entry reaches. The search is breadth first; it
has enough fuel, because a file has at most two normal paths.
-/

open List

namespace Runbook

/-- The files that are imported from the entry on, and the entry. -/
inductive Reachable (t : FileTree) (entry : Path) : Path → Prop
  | entry : Reachable t entry entry
  | step {file : Path} {m : Module} {i : Import} (hf : Reachable t entry file)
      (hm : t.readModule file = .ok m) (hi : i ∈ m.imports) :
      Reachable t entry (importedFile t.cwd file i.path)

namespace Build

theorem length_lt_closureFuel {t : FileTree} {files : List Path} (hn : files.Nodup)
    (hfiles : ∀ f ∈ files, NamedPath f ∧ ∃ m, t.readModule f = .ok m) :
    files.length < closureFuel t := by
  let places := ((t.root.descendants []).filter (·.2.isFile)).map Prod.fst
  have hsub : files ⊆ places.map (Path.anchored false) ++ places.map (Path.anchored true) := by
    intro f hf
    obtain ⟨⟨above, names, hnames, hne, rfl⟩, m, hm⟩ := hfiles f hf
    obtain ⟨mode, contents, hg⟩ := get?_of_readModule hnames hne hm
    have hplace : names ∈ places :=
      mem_map.mpr ⟨_, mem_filter.mpr ⟨Node.mem_descendants [] hne hg, rfl⟩, rfl⟩
    cases above with
    | false => exact mem_append_left _ (mem_map_of_mem hplace)
    | true => exact mem_append_right _ (mem_map_of_mem hplace)
  have hlen := (hn.subperm hsub).length_le
  simp only [length_append, length_map, places] at hlen
  rw [closureFuel]
  omega

/-! ## The search -/

/-- The search as it goes on until the queue is empty. `current` are the imports left of the file that is
being followed; `compiled` are the files compiled from here on, in order. -/
inductive Search (root outRoot : Path) : (t : FileTree) → (seen queue : List Path) →
    (current : List (Path × Import)) → (compiled : List Path) → Except CompileError Unit × FileTree → Prop
  | done {t : FileTree} {seen : List Path} : Search root outRoot t seen [] [] [] (.ok (), t)
  | unread {t : FileTree} {seen queue : List Path} {file : Path} {e : CompileError}
      (hread : t.readModule file = .error e) :
      Search root outRoot t seen (file :: queue) [] [] (.error e, t)
  | follow {t : FileTree} {seen queue compiled : List Path} {file : Path} {m : Module}
      {result : Except CompileError Unit × FileTree} (hread : t.readModule file = .ok m)
      (h : Search root outRoot t seen queue (m.imports.map (file, ·)) compiled result) :
      Search root outRoot t seen (file :: queue) [] compiled result
  | known {t : FileTree} {seen queue compiled : List Path} {file : Path} {i : Import}
      {rest : List (Path × Import)} {result : Except CompileError Unit × FileTree}
      (hseen : importedFile t.cwd file i.path ∈ seen)
      (h : Search root outRoot t seen queue rest compiled result) :
      Search root outRoot t seen queue ((file, i) :: rest) compiled result
  | refused {t t' : FileTree} {seen queue : List Path} {file : Path} {i : Import}
      {rest : List (Path × Import)} {e : CompileError} (hnew : importedFile t.cwd file i.path ∉ seen)
      (hrun : (compileInto root outRoot (importedFile t.cwd file i.path)).run t = (.error e, t')) :
      Search root outRoot t seen queue ((file, i) :: rest) [] (.error e, t')
  | compile {t t₁ : FileTree} {seen queue compiled : List Path} {file imported : Path} {i : Import}
      {rest : List (Path × Import)} {o : BuildOutput} {result : Except CompileError Unit × FileTree}
      (hfile : imported = importedFile t.cwd file i.path) (hnew : imported ∉ seen)
      (hrun : (compileInto root outRoot imported).run t = (.ok o, t₁))
      (h : Search root outRoot t₁ (seen ++ [imported]) (queue ++ [imported]) rest compiled result) :
      Search root outRoot t seen queue ((file, i) :: rest) (imported :: compiled) result

theorem Search.unique {root outRoot : Path} {t : FileTree} {seen queue compiled compiled' : List Path}
    {current : List (Path × Import)} {result result' : Except CompileError Unit × FileTree}
    (h : Search root outRoot t seen queue current compiled result)
    (h' : Search root outRoot t seen queue current compiled' result') :
    compiled = compiled' ∧ result = result' := by
  induction h generalizing compiled' result' with
  | done =>
    cases h'
    exact ⟨rfl, rfl⟩
  | unread hread =>
    cases h' with
    | unread hread' =>
      cases hread.symm.trans hread'
      exact ⟨rfl, rfl⟩
    | follow hread' _ => cases hread.symm.trans hread'
  | follow hread _ ih =>
    cases h' with
    | unread hread' => cases hread.symm.trans hread'
    | follow hread' h' =>
      cases hread.symm.trans hread'
      exact ih h'
  | known hseen _ ih =>
    cases h' with
    | known _ h' => exact ih h'
    | refused hnew _ => exact absurd hseen hnew
    | compile hfile hnew _ _ => exact absurd (hfile ▸ hseen) hnew
  | refused hnew hrun =>
    cases h' with
    | known hseen _ => exact absurd hseen hnew
    | refused _ hrun' =>
      cases hrun.symm.trans hrun'
      exact ⟨rfl, rfl⟩
    | compile hfile _ hrun' _ =>
      subst hfile
      cases hrun.symm.trans hrun'
  | compile hfile hnew hrun _ ih =>
    subst hfile
    cases h' with
    | known hseen _ => exact absurd hseen hnew
    | refused _ hrun' => cases hrun.symm.trans hrun'
    | compile hfile' _ hrun' h' =>
      subst hfile'
      cases hrun.symm.trans hrun'
      obtain ⟨rfl, rfl⟩ := ih h'
      exact ⟨rfl, rfl⟩

section

variable {t t' : FileTree} {root outRoot file : Path} {imports : List Import} {seen seen' found : List Path}

theorem search_of_imports
    (hrun : (compileImports root outRoot file imports seen).run t = (.ok (seen', found), t'))
    {queue compiled : List Path} {result : Except CompileError Unit × FileTree}
    (h : Search root outRoot t' seen' (queue ++ found) [] compiled result) :
    Search root outRoot t seen queue (imports.map (file, ·)) (found ++ compiled) result := by
  induction imports generalizing t seen found queue with
  | nil =>
    obtain ⟨hpair, rfl⟩ := BuildM.of_pure_ok hrun
    cases hpair
    simpa using h
  | cons i rest ih =>
    obtain ⟨cwd, t₁, hcwd, hrun₁⟩ := BuildM.of_bind_ok hrun
    obtain ⟨rfl, rfl⟩ := of_cwd hcwd
    simp only at hrun₁
    split at hrun₁
    · rename_i hseen
      exact .known hseen (ih hrun₁ h)
    · rename_i hseen
      obtain ⟨o, t₂, hinto, hrun₂⟩ := BuildM.of_bind_ok hrun₁
      obtain ⟨⟨seen₁, found₁⟩, t₃, hmore, hrun₃⟩ := BuildM.of_bind_ok hrun₂
      obtain ⟨hpair, rfl⟩ := BuildM.of_pure_ok hrun₃
      obtain ⟨rfl, rfl⟩ := Prod.mk.inj hpair
      exact .compile rfl hseen hinto (ih hmore (by simpa using h))

theorem search_of_imports_error {e : CompileError}
    (hrun : (compileImports root outRoot file imports seen).run t = (.error e, t')) (queue : List Path) :
    ∃ compiled, Search root outRoot t seen queue (imports.map (file, ·)) compiled (.error e, t') := by
  induction imports generalizing t seen queue with
  | nil => cases hrun
  | cons i rest ih =>
    rcases BuildM.of_bind_error hrun with hcwd | ⟨cwd, t₁, hcwd, hrun₁⟩
    · cases hcwd
    obtain ⟨rfl, rfl⟩ := of_cwd hcwd
    simp only at hrun₁
    split at hrun₁
    · rename_i hseen
      obtain ⟨compiled, h⟩ := ih hrun₁ queue
      exact ⟨compiled, .known hseen h⟩
    · rename_i hseen
      rcases BuildM.of_bind_error hrun₁ with hinto | ⟨o, t₂, hinto, hrun₂⟩
      · exact ⟨[], .refused hseen hinto⟩
      rcases BuildM.of_bind_error hrun₂ with hmore | ⟨⟨seen₁, found₁⟩, t₃, -, hpure⟩
      · obtain ⟨compiled, h⟩ := ih hmore (queue ++ [importedFile t₁.cwd file i.path])
        exact ⟨_ :: compiled, .compile rfl hseen hinto h⟩
      · cases hpure

end

/-- What holds of the files that the search has seen: they are reached, and they can be read in the tree
that bounds the search. -/
structure Seen (base bound : FileTree) (entry : Path) (files : List Path) : Prop where
  nodup : files.Nodup
  reachable : ∀ f ∈ files, Reachable base entry f
  readable : ∀ f ∈ files, NamedPath f ∧ ∃ m, bound.readModule f = .ok m

/-- A part of the search that has seen some files before: it has found more and compiled them. -/
structure Found (base bound t t' : FileTree) (layout : Layout) (outRoot entry : Path)
    (before found : List Path) (outputs : List BuildOutput) : Prop where
  seen : Seen base bound entry (before ++ found)
  source : ∀ f ∈ found, SourcePath f
  sources : outputs.map (·.source) = found
  wrote : Wrote base t t' layout outRoot outputs

section

variable {base bound t t' t'' : FileTree} {layout : Layout} {root outRoot entry file : Path}
  {before found more : List Path} {outputs others : List BuildOutput}

theorem Found.nil (h : Seen base bound entry before) (t : FileTree) (layout : Layout) (outRoot : Path) :
    Found base bound t t layout outRoot entry before [] [] :=
  ⟨by rwa [append_nil], by simp, rfl, .nil _ _ _ _⟩

theorem Found.append (h : Found base bound t t' layout outRoot entry before found outputs)
    (h' : Found base bound t' t'' layout outRoot entry (before ++ found) more others) :
    Found base bound t t'' layout outRoot entry before (found ++ more) (outputs ++ others) where
  seen := by
    rw [← List.append_assoc]
    exact h'.seen
  source := forall_mem_append.mpr ⟨h.source, h'.source⟩
  sources := by rw [map_append, h.sources, h'.sources]
  wrote := h.wrote.append h'.wrote

def Closed (base : FileTree) (files within : List Path) : Prop :=
  ∀ f ∈ files, ∀ m, base.readModule f = .ok m → ∀ i ∈ m.imports, importedFile base.cwd f i.path ∈ within

/-- The result is that of a search, and if it is no error, all that it has compiled has been found and
nothing is missing. -/
def Searched (base bound : FileTree) (root outRoot entry : Path) (t : FileTree) (seen queue : List Path)
    (result : Except CompileError Unit × FileTree) : Prop :=
  ∃ compiled, Search root outRoot t seen queue [] compiled result ∧ ∀ u t', result = (.ok u, t') →
    (∃ outputs, Found base bound t t' ⟨base.cwd, root⟩ outRoot entry seen compiled outputs) ∧
      Closed base (seen ++ compiled) (seen ++ compiled)

variable (hroot : Rooted base root) (hout : Resolved outRoot) (hbound : FileTree.Kept ScriptPlace base bound)
  (hk : FileTree.Kept ScriptPlace base t)

include hroot hout hbound hk

theorem found_compileInto (h : Seen base bound entry before) (hnew : file ∉ before)
    (hr : Reachable base entry file) (hf : SourcePath file) {o : BuildOutput}
    (hrun : (compileInto root outRoot file).run t = (.ok o, t')) :
    Found base bound t t' ⟨base.cwd, root⟩ outRoot entry before [file] [o] := by
  have hself := hf.resolve base.cwd
  obtain ⟨rfl, hwrote⟩ := compileInto_wrote hroot hout hk (by rwa [hself]) hrun
  obtain ⟨⟨s, hs, -⟩, -, -⟩ := hwrote.compiled o (by simp)
  obtain ⟨m, hm⟩ := readModule_of_compile hs
  rw [hself] at hm
  refine ⟨⟨?_, ?_, ?_⟩, forall_mem_singleton.mpr hf, rfl, hwrote⟩
  · rw [← concat_eq_append]
    exact h.nodup.concat hnew
  · exact forall_mem_append.mpr ⟨h.reachable, forall_mem_singleton.mpr hr⟩
  · exact forall_mem_append.mpr ⟨h.readable,
      forall_mem_singleton.mpr ⟨hf.named, m, (readModule_source hbound.sameSources hf).mpr hm⟩⟩

theorem found_compileImports (hr : Reachable base entry file) {n : Module}
    (hn : base.readModule file = .ok n) {imports : List Import} (hi : imports ⊆ n.imports)
    (h : Seen base bound entry before) {seen : List Path}
    (hrun : (compileImports root outRoot file imports before).run t = (.ok (seen, found), t')) :
    ∃ outputs, Found base bound t t' ⟨base.cwd, root⟩ outRoot entry before found outputs ∧
      seen = before ++ found ∧ ∀ i ∈ imports, importedFile base.cwd file i.path ∈ before ++ found := by
  induction imports generalizing t before found with
  | nil =>
    obtain ⟨hpair, rfl⟩ := BuildM.of_pure_ok hrun
    cases hpair
    exact ⟨[], .nil h _ _ _, by simp, by simp⟩
  | cons i rest ih =>
    have hrest : rest ⊆ n.imports := fun j hj => hi (by simp [hj])
    obtain ⟨cwd, t₁, hcwd, hrun₁⟩ := BuildM.of_bind_ok hrun
    obtain ⟨rfl, rfl⟩ := of_cwd hcwd
    rw [hk.cwd] at hrun₁
    simp only at hrun₁
    split at hrun₁
    · rename_i hseen
      obtain ⟨outputs, hfound, hs, hall⟩ := ih hk hrest h hrun₁
      exact ⟨outputs, hfound, hs, forall_mem_cons.mpr ⟨mem_append_left _ hseen, hall⟩⟩
    · rename_i hseen
      obtain ⟨o, t₂, hinto, hrun₂⟩ := BuildM.of_bind_ok hrun₁
      obtain ⟨⟨seen₁, found₁⟩, t₃, hmore, hrun₃⟩ := BuildM.of_bind_ok hrun₂
      obtain ⟨hpair, rfl⟩ := BuildM.of_pure_ok hrun₃
      obtain ⟨rfl, rfl⟩ := Prod.mk.inj hpair
      have hone := found_compileInto hroot hout hbound hk h hseen (.step hr hn (hi (by simp)))
        (sourcePath_importedFile _ _ _) hinto
      obtain ⟨outputs, hfound, hs, hall⟩ := ih (hk.trans hone.wrote.scripts) hrest hone.seen hmore
      rw [List.append_assoc, singleton_append] at hs hall
      exact ⟨o :: outputs, hone.append hfound, hs, forall_mem_cons.mpr ⟨by simp, hall⟩⟩

/-- One file of the queue: what it imports is found, unless it is refused, and then the file is done. -/
theorem searched_step {fuel : Nat} {visited queue : List Path}
    (h : Seen base bound entry (visited ++ file :: queue))
    (hclosed : Closed base visited (visited ++ file :: queue))
    (hread : ∀ n, t.readModule file = .ok n → base.readModule file = .ok n)
    (hrest : ∀ t₁ found outputs,
      Found base bound t t₁ ⟨base.cwd, root⟩ outRoot entry (visited ++ file :: queue) found outputs →
      Closed base (visited ++ [file]) (visited ++ [file] ++ (queue ++ found)) →
      Searched base bound root outRoot entry t₁ (visited ++ [file] ++ (queue ++ found)) (queue ++ found)
        ((compileClosure root outRoot fuel (visited ++ [file] ++ (queue ++ found)) (queue ++ found)).run t₁)) :
    Searched base bound root outRoot entry t (visited ++ file :: queue) (file :: queue)
      ((compileClosure root outRoot (fuel + 1) (visited ++ file :: queue) (file :: queue)).run t) := by
  have hlook : (BuildM.look (·.readModule file)).run t = (t.readModule file, t) := rfl
  rw [compileClosure]
  cases hn : t.readModule file with
  | error e =>
    rw [hn] at hlook
    rw [BuildM.run_bind_error hlook]
    exact ⟨[], .unread hn, fun u t' hok => by cases hok⟩
  | ok n =>
    rw [hn] at hlook
    rw [BuildM.run_bind_ok hlook]
    obtain ⟨⟨e⟩ | ⟨seen, found⟩, t₁, himports⟩ :
        ∃ r t₁, (compileImports root outRoot file n.imports (visited ++ file :: queue)).run t = (r, t₁) :=
      ⟨_, _, rfl⟩
    · rw [BuildM.run_bind_error himports]
      obtain ⟨compiled, hsearch⟩ := search_of_imports_error himports queue
      exact ⟨compiled, .follow hn hsearch, fun u t' hok => by cases hok⟩
    · rw [BuildM.run_bind_ok himports]
      have hn' := hread n hn
      obtain ⟨outputs, hfound, rfl, hall⟩ := found_compileImports hroot hout hbound hk
        (h.reachable file (by simp)) hn' (fun _ hi => hi) h himports
      have hsplit : visited ++ file :: queue ++ found = visited ++ [file] ++ (queue ++ found) := by simp
      have hclosed' : Closed base (visited ++ [file]) (visited ++ [file] ++ (queue ++ found)) := by
        rw [← hsplit]
        refine forall_mem_append.mpr ⟨fun f hf k hk i hi => ?_, forall_mem_singleton.mpr ?_⟩
        · exact mem_append_left _ (hclosed f hf k hk i hi)
        · intro k hk
          rw [hn'] at hk
          cases hk
          exact hall
      obtain ⟨compiled, hsearch, hok⟩ := hrest t₁ found outputs hfound hclosed'
      rw [← hsplit] at hsearch hok
      refine ⟨found ++ compiled, .follow hn (search_of_imports himports hsearch), fun u t' hrun => ?_⟩
      obtain ⟨⟨others, hmore⟩, hend⟩ := hok u t' hrun
      exact ⟨⟨outputs ++ others, hfound.append hmore⟩, by rwa [← List.append_assoc]⟩

theorem searched_compileClosure {fuel : Nat} {visited queue : List Path}
    (h : Seen base bound entry (visited ++ queue)) (hqueue : ∀ f ∈ queue, SourcePath f)
    (hclosed : Closed base visited (visited ++ queue)) (hfuel : closureFuel bound ≤ fuel + visited.length) :
    Searched base bound root outRoot entry t (visited ++ queue) queue
      ((compileClosure root outRoot fuel (visited ++ queue) queue).run t) := by
  -- the visited files are those whose imports have been followed
  induction fuel generalizing t visited queue with
  | zero =>
    have hlt := length_lt_closureFuel h.nodup h.readable
    rw [length_append] at hlt
    omega
  | succ fuel ih =>
    cases queue with
    | nil =>
      refine ⟨[], .done, fun u t' hrun => ?_⟩
      obtain ⟨-, rfl⟩ := BuildM.of_pure_ok hrun
      exact ⟨⟨[], .nil h _ _ _⟩, by simpa using hclosed⟩
    | cons file queue =>
      have hfile : SourcePath file := hqueue file (by simp)
      refine searched_step hroot hout hbound hk h hclosed (fun n => (readModule_source hk.sameSources hfile).mp) ?_
      intro t₁ found outputs hfound hclosed'
      have hsplit : visited ++ file :: queue ++ found = visited ++ [file] ++ (queue ++ found) := by simp
      refine ih (hk.trans hfound.wrote.scripts) (hsplit ▸ hfound.seen) ?_ hclosed' (by simp; omega)
      exact forall_mem_append.mpr ⟨fun f hf => hqueue f (by simp [hf]), hfound.source⟩

end

/-! ## What is reached -/

def entryLayout (t : FileTree) (entry : Path) : Layout := ⟨t.cwd, entry.parent.getD ⟨[]⟩⟩

/-- No two files that are reached have the same output. -/
def DistinctOutputs (t : FileTree) (entry : Path) : Prop :=
  ∀ f g, Reachable t entry f → Reachable t entry g →
    (entryLayout t entry).output f = (entryLayout t entry).output g → f = g

section

variable {base : FileTree} {entry : Path} {files : List Path}

theorem closed_iff {within : List Path} : Closed base files within ↔
    ∀ f ∈ files, ∀ m ∈ (base.readModule f).toOption, ∀ i ∈ m.imports,
      importedFile base.cwd f i.path ∈ within := by
  constructor
  · intro h f hf m hm
    exact h f hf m (of_toOption hm)
  · intro h f hf m hm
    exact h f hf m (by rw [hm]; rfl)

instance (base : FileTree) (files within : List Path) : Decidable (Closed base files within) :=
  decidable_of_iff _ closed_iff.symm

theorem mem_of_reachable (hc : Closed base files files) (he : entry ∈ files) {f : Path}
    (h : Reachable base entry f) : f ∈ files := by
  induction h with
  | entry => exact he
  | step _ hm hi ih => exact hc _ ih _ hm _ hi

theorem reachable_of_import {f g : Path} (hf : Reachable base entry f)
    (h : (base.readModule f).toOption.any (fun m => m.imports.any (importedFile base.cwd f ·.path = g)) =
      true) : Reachable base entry g := by
  obtain ⟨m, hm, hi⟩ := (Option.any_eq_true _ _).mp h
  obtain ⟨i, hi, hg⟩ := any_eq_true.mp hi
  rw [← of_decide_eq_true hg]
  exact .step hf (of_toOption hm) hi

theorem distinctOutputs_of_closed (hc : Closed base files files) (he : entry ∈ files)
    (h : ∀ f ∈ files, ∀ g ∈ files,
      (entryLayout base entry).output f = (entryLayout base entry).output g → f = g) :
    DistinctOutputs base entry :=
  fun f g hf hg => h f (mem_of_reachable hc he hf) g (mem_of_reachable hc he hg)

end

/-! ## A build with imports -/

/-- What a build with imports does: it compiles the entry if that is a source, and then every other file
that is reached. -/
structure BuiltClosure (t t₀ t' : FileTree) (entry outRoot : Path) (found : List Path)
    (outputs others : List BuildOutput) : Prop where
  sources : sourcesOf t entry = if entry.isSource then [entry] else []
  prepared : Prepared t t₀ outRoot (sourcesOf t entry)
  outputs_source : outputs.map (·.source) = sourcesOf t entry
  others_source : others.map (·.source) = found
  wrote : Wrote t t₀ t' (entryLayout t entry) outRoot (outputs ++ others)
  nodup : (entry :: found).Nodup
  source : ∀ f ∈ found, SourcePath f
  mem_iff : ∀ f, f ∈ entry :: found ↔ Reachable t entry f

section

variable {t₁ : FileTree}
variable {t t₀ t' : FileTree} {root outRoot entry target file : Path} {found : List Path}
  {outputs others : List BuildOutput}

theorem BuiltClosure.map_source (h : BuiltClosure t t₀ t' entry outRoot found outputs others) :
    (outputs ++ others).map (·.source) = (if entry.isSource then [entry] else []) ++ found := by
  rw [map_append, h.outputs_source, h.others_source, h.sources]

theorem BuiltClosure.nodup_sources (h : BuiltClosure t t₀ t' entry outRoot found outputs others) :
    ((outputs ++ others).map (·.source)).Nodup := by
  rw [h.map_source]
  split
  · exact h.nodup
  · exact h.nodup.of_cons

/-- The files that are reached have been compiled, except for an entry that is no source. -/
theorem BuiltClosure.mem_sources_iff (h : BuiltClosure t t₀ t' entry outRoot found outputs others) (f : Path) :
    f ∈ (outputs ++ others).map (·.source) ↔ Reachable t entry f ∧ (f = entry → f.isSource = true) := by
  have hnew := (nodup_cons.mp h.nodup).1
  rw [h.map_source, ← h.mem_iff, mem_append, mem_cons]
  constructor
  · rintro (hf | hf)
    · split at hf
      · rename_i hs
        obtain rfl := mem_singleton.mp hf
        exact ⟨Or.inl rfl, fun _ => hs⟩
      · cases hf
    · refine ⟨Or.inr hf, ?_⟩
      rintro rfl
      exact absurd hf hnew
  · rintro ⟨rfl | hf, hs⟩
    · exact Or.inl (by simp [hs rfl])
    · exact Or.inr hf

theorem not_dir_of_readModule {changed : Place → Prop} {m : Module} (hk : FileTree.Kept changed t t')
    (hm : t'.readModule file = .ok m) (children : List (Text × Node)) :
    t.stat file ≠ .ok (.dir children) := by
  intro hs
  obtain ⟨node, hs', hd⟩ := hk.stat_isDir hs rfl
  obtain ⟨contents, hc⟩ := readBytes_of_readModule hm
  obtain ⟨mode, hf⟩ := FileTree.readBytes_iff_stat.mp hc
  rw [hs'] at hf
  cases hf
  cases hd

/-- What is known after the build of a file that can be read: it has compiled the file if that is a
source. -/
structure Entered (t t₀ t₁ : FileTree) (entry outRoot : Path) (outputs : List BuildOutput) : Prop where
  root : rootOf t entry = (entryLayout t entry).root
  sources : sourcesOf t entry = if entry.isSource then [entry] else []
  prepared : Prepared t t₀ outRoot (sourcesOf t entry)
  outputs_source : outputs.map (·.source) = sourcesOf t entry
  wrote : Wrote t t₀ t₁ (entryLayout t entry) outRoot outputs
  rooted : Rooted t (entryLayout t entry).root
  read : ∀ n, t₁.readModule entry = .ok n → t.readModule entry = .ok n

theorem Entered.scripts (h : Entered t t₀ t₁ entry outRoot outputs) : FileTree.Kept ScriptPlace t t₁ :=
  h.prepared.scripts.trans h.wrote.scripts

theorem entered_of_build {m : Module} (h : (build entry (some target)).run t = (.ok outputs, t₁))
    (hm : t₁.readModule (entry.resolve t.cwd) = .ok m) :
    ∃ t₀, Entered t t₀ t₁ (entry.resolve t.cwd) (target.resolve t.cwd) outputs := by
  obtain ⟨node, _, hnode, -, -⟩ := build_spec h
  obtain ⟨t₀, hprepared, houtputs, hwrote⟩ := build_wrote h
  have hk := hprepared.scripts.trans hwrote.scripts
  have hroot : rootOf t (entry.resolve t.cwd) = (entryLayout t (entry.resolve t.cwd)).root := by
    rw [rootOf]
    split
    · rename_i children hs
      exact absurd hs (not_dir_of_readModule hk hm children)
    · rfl
  have hsources : sourcesOf t (entry.resolve t.cwd) =
      if (entry.resolve t.cwd).isSource then [entry.resolve t.cwd] else [] := by
    cases node with
    | dir children => exact absurd hnode (not_dir_of_readModule hk hm children)
    | file mode contents => exact sourcesOf_file hnode
  have hrooted := rooted_rootOf hnode
  rw [hroot] at hwrote hrooted
  have hread : ∀ n, t₁.readModule (entry.resolve t.cwd) = .ok n →
      t.readModule (entry.resolve t.cwd) = .ok n := by
    by_cases hs : (entry.resolve t.cwd).isSource = true
    · have hsource := sourcePath_of_isSource hs t.cwd
      rw [Path.resolve_resolve] at hsource
      exact fun n => (readModule_source hk.sameSources hsource).mp
    · -- nothing has been written so far
      rw [hsources, if_neg hs] at hprepared houtputs
      obtain rfl := map_eq_nil_iff.mp houtputs
      have hnone : FileTree.Kept (fun _ => False) t t₁ :=
        (hprepared.kept.mono fun _ hp => hp.1 rfl).trans (hwrote.kept.mono (by simp))
      obtain ⟨above, names, hn, hne, he⟩ := named_of_readModule hm
      rw [he]
      exact fun n => (readModule_congr fun _ => hnone.readBytes_anchored hn hne id).mp
  exact ⟨t₀, hroot, hsources, hprepared, houtputs, hwrote, hrooted, hread⟩

/-- After the build of the entry, the loop gives what the search gives; if it is no error, exactly the other
files that are reached have been compiled. -/
theorem search_of_build (h : (build entry (some target)).run t = (.ok outputs, t₁)) :
    let entry := entry.resolve t.cwd
    let root := (entryLayout t entry).root
    let result := (compileClosure root (target.resolve t.cwd) (closureFuel t₁) [entry] [entry]).run t₁
    ∃ compiled, Search root (target.resolve t.cwd) t₁ [entry] [entry] [] compiled result ∧
      ∀ u t', result = (.ok u, t') →
        ∃ t₀ others, BuiltClosure t t₀ t' entry (target.resolve t.cwd) compiled outputs others := by
  intro file root result
  cases hm : t₁.readModule file with
  | error e =>
    have hlook : (BuildM.look (·.readModule file)).run t₁ = (.error e, t₁) := by rw [← hm]; rfl
    have hresult : result = (.error e, t₁) := BuildM.run_bind_error hlook
    rw [hresult]
    exact ⟨[], .unread hm, fun u t' hok => by cases hok⟩
  | ok m =>
    obtain ⟨t₀, he⟩ := entered_of_build h hm
    have hk := he.scripts
    have hstart : Seen t t₁ file ([] ++ [file]) :=
      ⟨nodup_singleton _, forall_mem_singleton.mpr .entry,
        forall_mem_singleton.mpr ⟨named_of_readModule hm, m, hm⟩⟩
    have hout := resolved_resolve target t.cwd
    have hsearched : Searched t t₁ root (target.resolve t.cwd) file t₁ ([] ++ [file]) [file] result :=
      searched_step he.rooted hout hk hk hstart (by simp [Closed]) he.read
        fun t₂ found outputs hfound hclosed => searched_compileClosure he.rooted hout hk
          (hk.trans hfound.wrote.scripts) hfound.seen hfound.source hclosed (Nat.le_refl _)
    obtain ⟨compiled, hsearch, hok⟩ := hsearched
    refine ⟨compiled, hsearch, fun u t' hrun => ?_⟩
    obtain ⟨⟨others, hfound⟩, hclosed⟩ := hok u t' hrun
    refine ⟨t₀, others, he.sources, he.prepared, he.outputs_source, hfound.sources,
      he.wrote.append hfound.wrote, hfound.seen.nodup, hfound.source,
      fun f => ⟨hfound.seen.reachable f, mem_of_reachable hclosed (by simp)⟩⟩

theorem cwd_of_build {input : Path} {place : Option Path}
    (h : (build input place).run t = (.ok outputs, t')) :
    t'.cwd = t.cwd := by
  obtain ⟨t₀, hprepared, -, hwrote⟩ := build_wrote h
  exact hwrote.kept.cwd.trans hprepared.kept.cwd

/-- What a build with imports compiles, in order, and how it ends, with nothing that bounds the search. -/
inductive Built (t : FileTree) (entry target : Path) :
    List Path → Except CompileError (List BuildOutput) × FileTree → Prop
  | refused {t' : FileTree} {e : CompileError}
      (hbuild : (build entry (some target)).run t = (.error e, t')) : Built t entry target [] (.error e, t')
  | searched {t₁ : FileTree} {outputs : List BuildOutput} {compiled : List Path}
      {result : Except CompileError Unit × FileTree}
      (hbuild : (build entry (some target)).run t = (.ok outputs, t₁))
      (hsearch : Search (entryLayout t (entry.resolve t.cwd)).root (target.resolve t.cwd) t₁
        [entry.resolve t.cwd] [entry.resolve t.cwd] [] compiled result) :
      Built t entry target (outputs.map (·.source) ++ compiled) (result.1.map fun _ => outputs, result.2)

theorem Built.unique {compiled compiled' : List Path}
    {result result' : Except CompileError (List BuildOutput) × FileTree}
    (h : Built t entry target compiled result) (h' : Built t entry target compiled' result') :
    compiled = compiled' ∧ result = result' := by
  cases h with
  | refused hbuild =>
    cases h' with
    | refused hbuild' =>
      cases hbuild.symm.trans hbuild'
      exact ⟨rfl, rfl⟩
    | searched hbuild' _ => cases hbuild.symm.trans hbuild'
  | searched hbuild hsearch =>
    cases h' with
    | refused hbuild' => cases hbuild.symm.trans hbuild'
    | searched hbuild' hsearch' =>
      cases hbuild.symm.trans hbuild'
      obtain ⟨rfl, rfl⟩ := hsearch.unique hsearch'
      exact ⟨rfl, rfl⟩

theorem run_buildWithImports (h : (build entry (some target)).run t = (.ok outputs, t₁)) :
    let result := (compileClosure (entryLayout t (entry.resolve t.cwd)).root (target.resolve t.cwd)
      (closureFuel t₁) [entry.resolve t.cwd] [entry.resolve t.cwd]).run t₁
    (buildWithImports entry target).run t = (result.1.map fun _ => outputs, result.2) := by
  intro result
  have hcwd : ((·.cwd) <$> get : BuildM Path).run t₁ = (.ok t.cwd, t₁) := by
    rw [← cwd_of_build h]
    rfl
  have hfuel : (closureFuel <$> get : BuildM Nat).run t₁ = (.ok (closureFuel t₁), t₁) := rfl
  rw [buildWithImports, BuildM.run_bind_ok h, BuildM.run_bind_ok hcwd, BuildM.run_bind_ok hfuel]
  obtain ⟨e | u, t', hclosure⟩ : ∃ r t', result = (r, t') := ⟨_, _, rfl⟩
  · rw [hclosure]
    exact BuildM.run_bind_error hclosure
  · rw [hclosure]
    exact BuildM.run_bind_ok hclosure

theorem built_buildWithImports (t : FileTree) (entry target : Path) :
    ∃ compiled, Built t entry target compiled ((buildWithImports entry target).run t) := by
  obtain ⟨e | outputs, t₁, hbuild⟩ : ∃ r t₁, (build entry (some target)).run t = (r, t₁) := ⟨_, _, rfl⟩
  · have hrun : (buildWithImports entry target).run t = (.error e, t₁) := BuildM.run_bind_error hbuild
    rw [hrun]
    exact ⟨[], .refused hbuild⟩
  · rw [run_buildWithImports hbuild]
    obtain ⟨compiled, hsearch, -⟩ := search_of_build hbuild
    exact ⟨_, .searched hbuild hsearch⟩

theorem Built.closure {compiled : List Path} (h : Built t entry target compiled (.ok outputs, t')) :
    ∃ t₀ t₁ found others, (build entry (some target)).run t = (.ok outputs, t₁) ∧
      Search (entryLayout t (entry.resolve t.cwd)).root (target.resolve t.cwd) t₁
        [entry.resolve t.cwd] [entry.resolve t.cwd] [] found (.ok (), t') ∧
      BuiltClosure t t₀ t' (entry.resolve t.cwd) (target.resolve t.cwd) found outputs others ∧
      compiled = (outputs ++ others).map (·.source) := by
  generalize hr : (Except.ok outputs, t') = r at h
  cases h with
  | refused => cases hr
  | @searched t₁ _ found result hbuild hsearch =>
    obtain ⟨e | u, t''⟩ := result
    · cases hr
    · cases hr
      obtain ⟨found', hsearch', hok⟩ := search_of_build hbuild
      obtain ⟨rfl, hresult⟩ := hsearch.unique hsearch'
      obtain ⟨t₀, others, hb⟩ := hok u _ hresult.symm
      refine ⟨t₀, t₁, found, others, hbuild, hsearch, hb, ?_⟩
      rw [map_append, hb.others_source]

theorem buildWithImports_closure (h : (buildWithImports entry target).run t = (.ok outputs, t')) :
    ∃ t₀ found others,
      BuiltClosure t t₀ t' (entry.resolve t.cwd) (target.resolve t.cwd) found outputs others := by
  obtain ⟨compiled, hbuilt⟩ := built_buildWithImports t entry target
  rw [h] at hbuilt
  obtain ⟨t₀, t₁, found, others, -, -, hb, -⟩ := hbuilt.closure
  exact ⟨t₀, found, others, hb⟩

end

/-! ## Distinct outputs -/

theorem BuiltClosure.nodup_outputs {t t₀ t' : FileTree} {entry outRoot : Path} {found : List Path}
    {outputs others : List BuildOutput} (h : BuiltClosure t t₀ t' entry outRoot found outputs others)
    (hd : DistinctOutputs t entry) : ((outputs ++ others).map (·.output)).Nodup := by
  have hreach : ∀ o ∈ outputs ++ others, Reachable t entry o.source := fun o ho =>
    ((h.mem_sources_iff o.source).mp (mem_map_of_mem ho)).1
  refine pairwise_map.mpr ((pairwise_map.mp h.nodup_sources).imp_of_mem ?_)
  intro o w ho hw hne hpath
  have hplace := (h.wrote.output_eq_iff ho hw).mp hpath
  exact hne (hd o.source w.source (hreach o ho) (hreach w hw)
    (output_of_scriptPlace (h.wrote.compiled o ho).placed (h.wrote.compiled w hw).placed hplace))

/-- What a build has left behind: the files have been compiled and their scripts are on disk. -/
structure Compiled (base : FileTree) (entry outRoot : Path) (t : FileTree) (files : List Path) : Prop where
  kept : FileTree.Kept ScriptPlace base t
  nodup : files.Nodup
  reachable : ∀ f ∈ files, Reachable base entry f
  source : ∀ f ∈ files, SourcePath f
  stored : ∀ f ∈ files, ∃ s, base.compile f (entryLayout base entry).root = .ok s ∧
    Stored t (entryLayout base entry) outRoot f s

section

variable {base t t' : FileTree} {entry outRoot target file : Path} {files : List Path}

theorem Compiled.readModule (h : Compiled base entry outRoot t files) {f : Path} (hf : f ∈ files) :
    ∃ m, base.readModule f = .ok m := by
  obtain ⟨s, hs, -⟩ := h.stored f hf
  rw [← (h.source f hf).resolve base.cwd]
  exact readModule_of_compile hs

theorem Compiled.placed (h : Compiled base entry outRoot t files) (he : entry ∈ files) {f : Path}
    (hf : f ∈ files) : Placed (entryLayout base entry) f := by
  obtain ⟨m, hm⟩ := h.readModule he
  obtain ⟨n, hn⟩ := h.readModule hf
  obtain ⟨above, names, hnames, hne, hpath⟩ := (h.source entry he).named
  have hself := (h.source f hf).resolve base.cwd
  have hroot : Rooted base (entryLayout base entry).root := by
    rw [hpath] at hm
    obtain ⟨mode, contents, hg⟩ := get?_of_readModule hnames hne hm
    rw [entryLayout, hpath]
    exact rooted_parent hnames hne hg
  exact placed_of_readModule hroot (by rw [hself]; exact h.source f hf) (by rw [hself]; exact hn)

theorem Compiled.scriptPath_inj (hd : DistinctOutputs base entry)
    (h : Compiled base entry outRoot t files) (he : entry ∈ files) {f g : Path} (hf : f ∈ files)
    (hg : g ∈ files) (hp : scriptPath (entryLayout base entry) outRoot f =
      scriptPath (entryLayout base entry) outRoot g) : f = g := by
  obtain ⟨_, _, hstored⟩ := h.stored f hf
  obtain ⟨_, _, hstored'⟩ := h.stored g hg
  have hplace := hstored.locate
  rw [hp, hstored'.locate] at hplace
  have hout := output_of_scriptPlace (h.placed he hg) (h.placed he hf) (Except.ok.inj hplace)
  exact hd f g (h.reachable f hf) (h.reachable g hg) hout.symm

theorem buildWithImports_spec {outputs : List BuildOutput} {o : BuildOutput}
    (h : (buildWithImports entry target).run t = (.ok outputs, t')) (ho : o ∈ outputs)
    (hd : DistinctOutputs t (entry.resolve t.cwd)) :
    ∃ files, Compiled t (entry.resolve t.cwd) (target.resolve t.cwd) t' files ∧
      (∀ f, f ∈ files ↔ Reachable t (entry.resolve t.cwd) f) ∧
      o.output = scriptPath (entryLayout t (entry.resolve t.cwd)) (target.resolve t.cwd)
        (entry.resolve t.cwd) := by
  obtain ⟨t₀, found, others, hb⟩ := buildWithImports_closure h
  have hmem : o.source ∈ outputs.map (·.source) := mem_map_of_mem ho
  rw [hb.outputs_source, hb.sources] at hmem
  split at hmem
  case isFalse => cases hmem
  rename_i hs
  have hfiles : (outputs ++ others).map (·.source) = entry.resolve t.cwd :: found := by
    rw [hb.map_source, if_pos hs]
    rfl
  refine ⟨entry.resolve t.cwd :: found, ⟨hb.prepared.scripts.trans hb.wrote.scripts, hb.nodup,
    fun f => (hb.mem_iff f).mp, ?_, ?_⟩, hb.mem_iff, ?_⟩
  · have hsource := sourcePath_of_isSource hs t.cwd
    rw [Path.resolve_resolve] at hsource
    exact forall_mem_cons.mpr ⟨hsource, hb.source⟩
  · intro f hf
    rw [← hfiles] at hf
    obtain ⟨w, hw, rfl⟩ := mem_map.mp hf
    exact hb.wrote.stored (hb.nodup_outputs hd) hw
  · rw [(hb.wrote.compiled o (mem_append_left _ ho)).output, mem_singleton.mp hmem]

end

end Build

end Runbook
