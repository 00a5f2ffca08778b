import Runbook.Build
import Runbook.Proofs.Sources

/-!
# What a build writes

Compiling a file changes the place of its script and nothing else, so after a run of compilations each
script path holds the text of the last file that was compiled to it.
-/

open List

namespace Runbook
open Runbook.Path FileTree

namespace BuildM

variable {α β : Type} {t t' : FileTree}

theorem of_bind_ok {x : BuildM α} {f : α → BuildM β} {b : β} (h : (x >>= f).run t = (.ok b, t')) :
    ∃ a t₁, x.run t = (.ok a, t₁) ∧ (f a).run t₁ = (.ok b, t') := by
  simp only [Bind.bind, ExceptT.bind, ExceptT.mk, ExceptT.run, StateT.bind] at h ⊢
  cases hx : x t with
  | mk result t₁ =>
    rw [hx] at h
    cases result with
    | ok a => exact ⟨a, t₁, rfl, h⟩
    | error e => cases h

theorem run_bind_ok {x : BuildM α} {f : α → BuildM β} {a : α} (h : x.run t = (.ok a, t')) :
    (x >>= f).run t = (f a).run t' := by
  simp only [Bind.bind, ExceptT.bind, ExceptT.mk, ExceptT.run, StateT.bind] at h ⊢
  rw [h]
  rfl

theorem run_bind_error {x : BuildM α} {f : α → BuildM β} {e : CompileError} (h : x.run t = (.error e, t')) :
    (x >>= f).run t = (.error e, t') := by
  simp only [Bind.bind, ExceptT.bind, ExceptT.mk, ExceptT.run, StateT.bind] at h ⊢
  rw [h]
  rfl

theorem of_bind_error {x : BuildM α} {f : α → BuildM β} {e : CompileError}
    (h : (x >>= f).run t = (.error e, t')) :
    x.run t = (.error e, t') ∨ ∃ a t₁, x.run t = (.ok a, t₁) ∧ (f a).run t₁ = (.error e, t') := by
  obtain ⟨e' | a, t₁, hx⟩ : ∃ r t₁, x.run t = (r, t₁) := ⟨_, _, rfl⟩
  · rw [run_bind_error hx] at h
    cases h
    exact Or.inl hx
  · rw [run_bind_ok hx] at h
    exact Or.inr ⟨a, t₁, hx, h⟩

theorem of_pure_ok {a b : α} (h : (pure a : BuildM α).run t = (.ok b, t')) : b = a ∧ t' = t :=
  ⟨(Except.ok.inj (congrArg Prod.fst h)).symm, (congrArg Prod.snd h).symm⟩

theorem of_look_ok {f : FileTree → Except CompileError α} {a : α} (h : (look f).run t = (.ok a, t')) :
    f t = .ok a ∧ t' = t :=
  ⟨congrArg Prod.fst h, (congrArg Prod.snd h).symm⟩

theorem run_look {f : FileTree → Except CompileError α} {a : α} (h : f t = .ok a) :
    (look f).run t = (.ok a, t) :=
  Prod.ext h rfl

section

variable {path : Path} {f : FileTree → Except (FileError × FileTree) FileTree}

theorem of_change_ok {u : Unit} (h : (change path f).run t = (.ok u, t')) : f t = .ok t' := by
  simp only [change, ExceptT.run] at h
  split at h
  · rename_i t₁ hf
    cases h
    exact hf
  · cases h

theorem run_change (h : f t = .ok t') : (change path f).run t = (.ok (), t') := by
  simp [change, ExceptT.run, h]

theorem run_change_error {e : FileError} (h : f t = .error (e, t')) :
    (change path f).run t = (.error (.write path e), t') := by
  simp [change, ExceptT.run, h]

end

end BuildM

namespace Build

variable {path : Path} {text : Text}

theorem exists_run {α : Type} {x : BuildM α} {t : FileTree} (h : (x.run t).1.toOption.isSome = true) :
    ∃ a t', x.run t = (.ok a, t') := by
  obtain ⟨a, ha⟩ := Option.isSome_iff_exists.mp h
  exact ⟨a, _, Prod.ext (of_toOption ha) rfl⟩

variable {t t' : FileTree} {root outRoot file : Path}

theorem of_cwd {cwd : Path} (h : ((·.cwd) <$> get : BuildM Path).run t = (.ok cwd, t')) :
    cwd = t.cwd ∧ t' = t := by
  cases h
  exact ⟨rfl, rfl⟩

theorem of_createDirs {dir : Path} {u : Unit} (h : (createDirs dir).run t = (.ok u, t')) :
    t.createDirs dir = .ok t' :=
  BuildM.of_change_ok (f := (·.createDirs dir)) h

theorem of_writeText {u : Unit} (h : (writeText path text).run t = (.ok u, t')) :
    t.writeBytes path (Utf8.encode text) = .ok t' :=
  of_mapError_ok (BuildM.of_change_ok h)

theorem run_writeText (h : t.writeBytes path (Utf8.encode text) = .ok t') :
    (writeText path text).run t = (.ok (), t') :=
  BuildM.run_change (by rw [h]; rfl)

def scriptPath (layout : Layout) (outRoot file : Path) : Path := outRoot.join (layout.output file)

/-- The directory of the path has been created, if it has one. -/
structure DirMade (path : Path) (t t' : FileTree) : Prop where
  made : ∀ folder, path.parent = some folder → t.createDirs folder = .ok t'
  same : path.parent = none → t' = t

theorem DirMade.kept (h : DirMade path t t') : Kept (fun _ => False) t t' := by
  cases hp : path.parent with
  | some folder => exact createDirs_spec (h.made folder hp)
  | none =>
    obtain rfl := h.same hp
    exact .refl _ _

theorem compileInto_steps {o : BuildOutput} (h : (compileInto root outRoot file).run t = (.ok o, t')) :
    ∃ s t₁, t.compile file root = .ok s ∧ o = ⟨file, scriptPath ⟨t.cwd, root⟩ outRoot file, s.text⟩ ∧
      DirMade (scriptPath ⟨t.cwd, root⟩ outRoot file) t t₁ ∧
      t₁.writeBytes (scriptPath ⟨t.cwd, root⟩ outRoot file) (Utf8.encode (s.text ++ "\n")) = .ok t' := by
  obtain ⟨s, t₁, hlook, hrest⟩ := BuildM.of_bind_ok h
  obtain ⟨hs, rfl⟩ := BuildM.of_look_ok hlook
  obtain ⟨cwd, t₂, hcwd, hrun⟩ := BuildM.of_bind_ok hrest
  obtain ⟨rfl, rfl⟩ := of_cwd hcwd
  have hwritten : ∀ t₃, ((writeText (scriptPath ⟨t₂.cwd, root⟩ outRoot file) (s.text ++ "\n") >>=
      fun _ => pure ⟨file, scriptPath ⟨t₂.cwd, root⟩ outRoot file, s.text⟩ : BuildM BuildOutput)).run t₃ =
        (.ok o, t') → o = ⟨file, scriptPath ⟨t₂.cwd, root⟩ outRoot file, s.text⟩ ∧
      t₃.writeBytes (scriptPath ⟨t₂.cwd, root⟩ outRoot file) (Utf8.encode (s.text ++ "\n")) = .ok t' := by
    intro t₃ hw
    obtain ⟨u, t₄, hwrite, hpure⟩ := BuildM.of_bind_ok hw
    obtain ⟨rfl, rfl⟩ := BuildM.of_pure_ok hpure
    exact ⟨rfl, of_writeText hwrite⟩
  simp only at hrun
  split at hrun
  · rename_i folder hdir
    obtain ⟨u, t₃, hdirs, hjoin⟩ := BuildM.of_bind_ok hrun
    obtain ⟨ho, hw⟩ := hwritten t₃ hjoin
    refine ⟨s, t₃, hs, ho, ⟨fun folder' hp => ?_, fun hp => ?_⟩, hw⟩
    · rw [scriptPath, hdir] at hp
      cases hp
      exact of_createDirs hdirs
    · rw [scriptPath, hdir] at hp
      cases hp
  · rename_i hdir
    obtain ⟨ho, hw⟩ := hwritten t₂ hrun
    refine ⟨s, t₂, hs, ho, ⟨fun folder hp => ?_, fun _ => rfl⟩, hw⟩
    rw [scriptPath, hdir] at hp
    cases hp

theorem compileInto_spec {o : BuildOutput} (h : (compileInto root outRoot file).run t = (.ok o, t')) :
    ∃ s t₁, t.compile file root = .ok s ∧ o = ⟨file, scriptPath ⟨t.cwd, root⟩ outRoot file, s.text⟩ ∧
      Kept (fun _ => False) t t₁ ∧
      t₁.writeBytes (scriptPath ⟨t.cwd, root⟩ outRoot file) (Utf8.encode (s.text ++ "\n")) = .ok t' := by
  obtain ⟨s, t₁, hs, ho, hdir, hw⟩ := compileInto_steps h
  exact ⟨s, t₁, hs, ho, hdir.kept, hw⟩

/-! ## Places below the output root -/

def Resolved (p : Path) : Prop :=
  p = ⟨[]⟩ ∨ ∃ above names, (∀ n ∈ names, IsName n) ∧ p = anchored above names

theorem resolved_resolve (p cwd : Path) : Resolved (p.resolve cwd) := by
  rcases resolve_cases p cwd with ⟨-, hr⟩ | hr
  · exact Or.inl hr
  · exact Or.inr hr

def basePlace (cwd outRoot : Path) : Place :=
  if outRoot.text = [] then namesOf cwd else namesOf outRoot

section

variable {names : List Text} (hn : ∀ n ∈ names, IsName n) (hne : names ≠ [])

include hn hne

theorem empty_join_names :
    join ⟨[]⟩ (ofParts false (names.map .name)) = ofParts false (names.map .name) :=
  (join_ofParts (by simp) (Component.proper_names hn) (by simpa using hne) :
    (ofParts false []).join (ofParts false (names.map .name)) = _)

theorem anchored_join_names {above : Bool} {ns : List Text} (hns : ∀ n ∈ ns, IsName n) :
    (anchored above ns).join (ofParts false (names.map .name)) =
      anchored above (ns ++ names) := by
  rw [anchored_ofParts, join_ofParts (anchored_proper hns) (Component.proper_names hn)
    (by simpa using hne), anchored_ofParts, map_append, List.append_assoc]

end

section

variable {names : List Text} (hout : Resolved outRoot) (hn : ∀ n ∈ names, IsName n) (hne : names ≠ [])

include hout hn hne

theorem place_below {place : Place}
    (h : t.locate (outRoot.join (ofParts false (names.map .name))) = .ok place) :
    place = basePlace t.cwd outRoot ++ names ∧
      ∃ children, t.root.get? place.dropLast = some (.dir children) := by
  rcases hout with rfl | ⟨above, ns, hns, rfl⟩
  · rw [empty_join_names hn hne] at h
    exact place_of_locate_names hn hne h
  · have hboth : ∀ n ∈ ns ++ names, IsName n := forall_mem_append.mpr ⟨hns, hn⟩
    rw [anchored_join_names hn hne hns] at h
    obtain ⟨rfl, -, hdir⟩ := place_of_locate_anchored hboth h
    rw [basePlace, anchored_text hns, if_neg (by simp), namesOf_anchored hns]
    exact ⟨rfl, hdir⟩

theorem write_below {contents : Bytes}
    (h : t.writeBytes (outRoot.join (ofParts false (names.map .name))) contents = .ok t') :
    Kept (· = basePlace t.cwd outRoot ++ names) t t' ∧
      t'.locate (outRoot.join (ofParts false (names.map .name))) =
        .ok (basePlace t.cwd outRoot ++ names) ∧
      t'.readBytes (outRoot.join (ofParts false (names.map .name))) = .ok contents := by
  obtain ⟨place, hl, hk, hread⟩ := writeBytes_spec h
  obtain ⟨rfl, children, hdir⟩ := place_below hout hn hne hl
  obtain ⟨init, last, rfl⟩ := (eq_nil_or_concat names).resolve_left hne
  rw [concat_eq_append, ← List.append_assoc] at hdir
  refine ⟨hk, hk.locate hl, hread (basePlace t.cwd outRoot ++ init) last children ?_ ?_⟩
  · rw [concat_eq_append, List.append_assoc]
  · rwa [dropLast_concat] at hdir

end

/-! ## Directories on the way -/

end Build

def Place.Above (place below : Place) : Prop := ∃ n rest, below = place ++ n :: rest

theorem Place.above_append_cons {place way : Place} (h : place <+: way) (n : Text) (rest : Place) :
    Place.Above place (way ++ n :: rest) := by
  obtain ⟨more, rfl⟩ := h
  cases more with
  | nil => exact ⟨n, rest, by simp⟩
  | cons m more => exact ⟨m, more ++ n :: rest, by simp⟩

namespace Build

variable {node : Node} {outputs : List BuildOutput} {input : Path} {target : Option Path}
variable {t t' : FileTree} {root outRoot file : Path}

theorem makesDirs_outRoot (hout : Resolved outRoot) (h : t.createDirs outRoot = .ok t') :
    Node.MakesDirs (· <+: basePlace t.cwd outRoot) t.root t'.root := by
  rcases hout with rfl | ⟨above, names, hn, rfl⟩
  · cases h
    exact .nil _
  · rw [basePlace, anchored_text hn, if_neg (by simp), namesOf_anchored hn]
    exact (makesDirs_createDirs (.inl h)).2.mono fun _ => prefix_of_mem_wayTo_anchored hn

theorem DirMade.makesDirs {names : List Text} (hout : Resolved outRoot) (hn : ∀ n ∈ names, IsName n)
    (hne : names ≠ []) (h : DirMade (outRoot.join (ofParts false (names.map .name))) t t') :
    Node.MakesDirs (Place.Above · (basePlace t.cwd outRoot ++ names)) t.root t'.root := by
  obtain ⟨init, last, rfl⟩ := (eq_nil_or_concat names).resolve_left hne
  rw [concat_eq_append] at hn h hne ⊢
  have hinit : ∀ n ∈ init, IsName n := fun n hi => hn n (by simp [hi])
  rw [← List.append_assoc]
  rcases hout with rfl | ⟨above, ns, hns, rfl⟩
  · rw [empty_join_names hn hne, map_append] at h
    have hparent : (ofParts false (init.map .name ++ [.name last])).parent =
        some (ofParts false (init.map .name)) :=
      parent_ofParts (Component.proper_names hinit) (hn last (by simp))
    refine (makesDirs_createDirs (.inl (h.made _ hparent))).2.mono fun q hq => ?_
    exact Place.above_append_cons (prefix_of_mem_wayTo_names hinit hq) last []
  · have hboth : ∀ n ∈ (ns ++ init) ++ [last], IsName n := by
      rw [List.append_assoc]
      exact forall_mem_append.mpr ⟨hns, hn⟩
    rw [anchored_join_names hn hne hns, ← List.append_assoc] at h
    rw [basePlace, anchored_text hns, if_neg (by simp), namesOf_anchored hns]
    refine (makesDirs_createDirs (.inl (h.made _ (parent_anchored hboth)))).2.mono fun q hq => ?_
    exact Place.above_append_cons
      (prefix_of_mem_wayTo_anchored (fun n hi => hboth n (mem_append_left _ hi)) hq) last []

/-! ## Scripts below the output root -/

/-- The way from the root to the file consists of names. -/
structure Placed (layout : Layout) (file : Path) : Prop where
  names : ∀ n ∈ layout.parts file, IsName n
  ne_nil : layout.parts file ≠ []

def scriptPlace (layout : Layout) (outRoot file : Path) : Place :=
  basePlace layout.cwd outRoot ++ Layout.scriptNames (layout.parts file)

structure Stored (t : FileTree) (layout : Layout) (outRoot file : Path) (s : Script) : Prop where
  locate : t.locate (scriptPath layout outRoot file) = .ok (scriptPlace layout outRoot file)
  readBytes : t.readBytes (scriptPath layout outRoot file) = .ok (Utf8.encode (s.text ++ "\n"))

theorem scriptPlace_isScript {layout : Layout} (outRoot : Path) (h : Placed layout file) :
    ScriptPlace (scriptPlace layout outRoot file) := by
  obtain ⟨init, last, hp⟩ := (eq_nil_or_concat (layout.parts file)).resolve_left h.ne_nil
  refine ⟨basePlace layout.cwd outRoot ++ init, (splitName last).1 ++ ".sh", ?_,
    suffix_append _ _⟩
  rw [scriptPlace, hp, concat_eq_append, Layout.scriptNames_append, List.append_assoc]

theorem output_of_scriptPlace {layout : Layout} {g : Path} (hf : Placed layout file) (hg : Placed layout g)
    (h : scriptPlace layout outRoot file = scriptPlace layout outRoot g) :
    layout.output file = layout.output g := by
  rw [Layout.output_eq hf.names, Layout.output_eq hg.names,
    append_cancel_left h]

theorem compileInto_stored {o : BuildOutput} (hout : Resolved outRoot) (hp : Placed ⟨t.cwd, root⟩ file)
    (h : (compileInto root outRoot file).run t = (.ok o, t')) :
    ∃ s, t.compile file root = .ok s ∧ o = ⟨file, scriptPath ⟨t.cwd, root⟩ outRoot file, s.text⟩ ∧
      Kept (· = scriptPlace ⟨t.cwd, root⟩ outRoot file) t t' ∧
      Stored t' ⟨t.cwd, root⟩ outRoot file s := by
  obtain ⟨s, t₁, hs, ho, hk, hw⟩ := compileInto_spec h
  have hpath : scriptPath ⟨t.cwd, root⟩ outRoot file =
      outRoot.join (ofParts false ((Layout.scriptNames (Layout.parts ⟨t.cwd, root⟩ file)).map .name)) := by
    rw [scriptPath, Layout.output_eq hp.names]
  rw [hpath] at hw
  obtain ⟨hk', hl, hread⟩ := write_below hout (Layout.isName_scriptNames hp.names)
    (Layout.scriptNames_ne_nil hp.ne_nil) hw
  rw [← hpath] at hl hread
  rw [hk.cwd] at hk' hl
  exact ⟨s, hs, ho, (hk.mono fun _ hf => hf.elim).trans hk', hl, hread⟩

/-! ## The root -/

/-- The root of a build is a directory with a normal path. -/
def Rooted (t : FileTree) (root : Path) : Prop :=
  ∃ above names children, (∀ n ∈ names, IsName n) ∧ root = anchored above names ∧
    t.root.get? names = some (.dir children)

theorem Rooted.resolved (h : Rooted t root) : Resolved root := by
  obtain ⟨above, names, -, hn, hr, -⟩ := h
  exact Or.inr ⟨above, names, hn, hr⟩

theorem rooted_parent {above : Bool} {names : List Text} (hn : ∀ n ∈ names, IsName n) (hne : names ≠ [])
    (h : t.root.get? names = some node) : Rooted t ((anchored above names).parent.getD ⟨[]⟩) := by
  obtain ⟨init, last, rfl⟩ := (eq_nil_or_concat names).resolve_left hne
  rw [concat_eq_append] at hn h ⊢
  obtain ⟨children, hdir⟩ := Node.dir_of_get?_append h
  rw [parent_anchored hn]
  exact ⟨above, init, children, fun n hi => hn n (by simp [hi]), rfl, hdir⟩

theorem placed_of_readModule {m : Module} (hroot : Rooted t root) (hf : SourcePath (file.resolve t.cwd))
    (hm : t.readModule (file.resolve t.cwd) = .ok m) : Placed ⟨t.cwd, root⟩ file := by
  obtain ⟨above, ns, children, hns, rfl, hdir⟩ := hroot
  obtain ⟨above', ks, k, hks, -, hfile⟩ := hf
  rw [hfile] at hm
  have hself : (anchored above ns).resolve t.cwd = anchored above ns :=
    resolve_anchored hns t.cwd
  refine ⟨Layout.isName_parts hns hself hks hfile, Layout.parts_ne_nil hns hself hks hfile ?_⟩
  intro heq
  obtain ⟨-, rfl⟩ := anchored_inj hns hks heq
  obtain ⟨mode, contents, hg⟩ := get?_of_readModule hks (by simp) hm
  rw [hdir] at hg
  cases hg

/-! ## Runs of compilations -/

/-- The output is what its source compiles to, at the path of its script. -/
structure CompiledFrom (base : FileTree) (layout : Layout) (outRoot : Path) (o : BuildOutput) : Prop where
  compile : ∃ s, base.compile o.source layout.root = .ok s ∧ o.shell = s.text
  output : o.output = scriptPath layout outRoot o.source
  placed : Placed layout o.source

def lastAt (outputs : List BuildOutput) (path : Path) : Option BuildOutput :=
  outputs.reverse.find? (·.output = path)

theorem lastAt_append (outputs more : List BuildOutput) (path : Path) :
    lastAt (outputs ++ more) path = (lastAt more path).or (lastAt outputs path) := by
  rw [lastAt, reverse_append, find?_append]
  rfl

theorem of_lastAt_eq_some {path : Path} {w : BuildOutput} (h : lastAt outputs path = some w) :
    w ∈ outputs ∧ w.output = path :=
  ⟨mem_reverse.mp (mem_of_find?_eq_some h), by simpa using find?_some h⟩

theorem lastAt_eq_none {path : Path} : lastAt outputs path = none ↔ ∀ o ∈ outputs, o.output ≠ path := by
  simp [lastAt]

/-- From `t` to `t'` the outputs were written in order: each path holds the text of the last output with
that path, and no other place has changed. The outputs come from the sources in `base`. -/
structure Wrote (base t t' : FileTree) (layout : Layout) (outRoot : Path) (outputs : List BuildOutput) :
    Prop where
  compiled : ∀ o ∈ outputs, CompiledFrom base layout outRoot o
  kept : Kept (fun place => ∃ o ∈ outputs, place = scriptPlace layout outRoot o.source) t t'
  locate : ∀ o ∈ outputs, t'.locate o.output = .ok (scriptPlace layout outRoot o.source)
  last : ∀ o ∈ outputs, ∃ w, lastAt outputs o.output = some w ∧
    t'.readBytes o.output = .ok (Utf8.encode (w.shell ++ "\n"))

section

variable {base t'' : FileTree} {layout : Layout} {outputs more : List BuildOutput} {o : BuildOutput}

theorem Wrote.nil (base t : FileTree) (layout : Layout) (outRoot : Path) :
    Wrote base t t layout outRoot [] :=
  ⟨by simp, .refl _ _, by simp, by simp⟩

theorem Wrote.scripts (h : Wrote base t t' layout outRoot outputs) : Kept ScriptPlace t t' := by
  refine h.kept.mono ?_
  rintro place ⟨o, ho, rfl⟩
  exact scriptPlace_isScript outRoot (h.compiled o ho).placed

theorem CompiledFrom.output_of_scriptPlace {w : BuildOutput} (ho : CompiledFrom base layout outRoot o)
    (hw : CompiledFrom base layout outRoot w)
    (h : scriptPlace layout outRoot o.source = scriptPlace layout outRoot w.source) :
    o.output = w.output := by
  rw [ho.output, hw.output, scriptPath, scriptPath, Build.output_of_scriptPlace ho.placed hw.placed h]

theorem Wrote.append (h : Wrote base t t' layout outRoot outputs)
    (h' : Wrote base t' t'' layout outRoot more) : Wrote base t t'' layout outRoot (outputs ++ more) where
  compiled := forall_mem_append.mpr ⟨h.compiled, h'.compiled⟩
  kept := by
    refine (h.kept.mono ?_).trans (h'.kept.mono ?_)
    · rintro place ⟨o, ho, hp⟩
      exact ⟨o, mem_append_left _ ho, hp⟩
    · rintro place ⟨o, ho, hp⟩
      exact ⟨o, mem_append_right _ ho, hp⟩
  locate := forall_mem_append.mpr ⟨fun o ho => h'.kept.locate (h.locate o ho), h'.locate⟩
  last := by
    intro o ho
    rw [lastAt_append]
    cases hlast : lastAt more o.output with
    -- the second run has written the path again
    | some w =>
      obtain ⟨hmem, hpath⟩ := of_lastAt_eq_some hlast
      obtain ⟨w', hw', hread⟩ := h'.last w hmem
      rw [hpath] at hw' hread
      exact ⟨w', hlast.symm.trans hw', hread⟩
    -- or it has left the place alone, since another place means another path
    | none =>
      have hnew := lastAt_eq_none.mp hlast
      have hold : o ∈ outputs := (mem_append.mp ho).resolve_right fun hmem => hnew o hmem rfl
      obtain ⟨w, hw, hread⟩ := h.last o hold
      refine ⟨w, hw, h'.kept.readBytes (h.locate o hold) ?_ hread⟩
      rintro ⟨o', ho', hplace⟩
      exact hnew o' ho' ((h'.compiled o' ho').output_of_scriptPlace (h.compiled o hold) hplace.symm)

theorem Wrote.output_eq_iff (h : Wrote base t t' layout outRoot outputs) {w : BuildOutput} (ho : o ∈ outputs)
    (hw : w ∈ outputs) : o.output = w.output ↔
      scriptPlace layout outRoot o.source = scriptPlace layout outRoot w.source := by
  constructor
  · intro hpath
    have hplace := h.locate o ho
    rw [hpath, h.locate w hw] at hplace
    exact (Except.ok.inj hplace).symm
  · exact (h.compiled o ho).output_of_scriptPlace (h.compiled w hw)

theorem Wrote.own (h : Wrote base t t' layout outRoot outputs) (hd : (outputs.map (·.output)).Nodup)
    (ho : o ∈ outputs) : t'.readBytes o.output = .ok (Utf8.encode (o.shell ++ "\n")) := by
  obtain ⟨w, hw, hread⟩ := h.last o ho
  obtain ⟨hmem, hpath⟩ := of_lastAt_eq_some hw
  obtain rfl := inj_on_of_nodup_map hd hmem ho hpath
  exact hread

theorem Wrote.stored (h : Wrote base t t' layout outRoot outputs) (hd : (outputs.map (·.output)).Nodup)
    (ho : o ∈ outputs) : ∃ s, base.compile o.source layout.root = .ok s ∧
      Stored t' layout outRoot o.source s := by
  obtain ⟨⟨s, hs, hshell⟩, houtput, -⟩ := h.compiled o ho
  have hlocate := h.locate o ho
  have hread := h.own hd ho
  rw [houtput] at hlocate hread
  rw [hshell] at hread
  exact ⟨s, hs, hlocate, hread⟩

variable (hroot : Rooted base root) (hout : Resolved outRoot) (hk : Kept ScriptPlace base t)

include hroot hout hk

/-- One file, compiled while only scripts have been written since `base`. -/
theorem compileInto_wrote (hf : SourcePath (file.resolve base.cwd))
    (h : (compileInto root outRoot file).run t = (.ok o, t')) :
    o.source = file ∧ Wrote base t t' ⟨base.cwd, root⟩ outRoot [o] := by
  obtain ⟨s, -, hs, -⟩ := compileInto_spec h
  have hbase := compile_source hk.sameSources hf hs
  obtain ⟨m, hm⟩ := readModule_of_compile hbase
  have hplaced := placed_of_readModule hroot hf hm
  rw [← hk.cwd] at hplaced
  obtain ⟨s', hs', ho, hkept, hstored⟩ := compileInto_stored hout hplaced h
  rw [hs] at hs'
  cases hs'
  rw [hk.cwd] at hplaced hkept hstored ho
  have hsource : o.source = file := by rw [ho]
  have houtput : o.output = scriptPath ⟨base.cwd, root⟩ outRoot file := by rw [ho]
  have hshell : o.shell = s.text := by rw [ho]
  subst hsource
  refine ⟨rfl, ?_, hkept.mono ?_, ?_, ?_⟩
  · exact forall_mem_singleton.mpr ⟨⟨s, hbase, hshell⟩, houtput, hplaced⟩
  · rintro place rfl
    exact ⟨o, mem_singleton_self o, rfl⟩
  · rw [forall_mem_singleton, houtput]
    exact hstored.locate
  · rw [forall_mem_singleton]
    refine ⟨o, by simp [lastAt], ?_⟩
    rw [houtput, hshell]
    exact hstored.readBytes

theorem compileAll_wrote {files : List Path} (hfiles : ∀ f ∈ files, SourcePath (f.resolve base.cwd))
    (h : (files.mapM (compileInto root outRoot)).run t = (.ok outputs, t')) :
    outputs.map (·.source) = files ∧ Wrote base t t' ⟨base.cwd, root⟩ outRoot outputs := by
  induction files generalizing t outputs with
  | nil =>
    obtain ⟨rfl, rfl⟩ := BuildM.of_pure_ok h
    exact ⟨rfl, .nil _ _ _ _⟩
  | cons file rest ih =>
    rw [mapM_cons] at h
    obtain ⟨o, t₁, ho, h⟩ := BuildM.of_bind_ok h
    obtain ⟨os, t₂, hos, h⟩ := BuildM.of_bind_ok h
    obtain ⟨rfl, rfl⟩ := BuildM.of_pure_ok h
    obtain ⟨rfl, hone⟩ := compileInto_wrote hroot hout hk (hfiles file (by simp)) ho
    obtain ⟨rfl, hrest⟩ := ih (hk.trans hone.scripts) (fun f hf => hfiles f (by simp [hf])) hos
    exact ⟨rfl, hone.append hrest⟩

end

/-! ## The library -/

def libraryPlace (cwd outRoot : Path) : Place := basePlace cwd outRoot ++ [libraryName]

structure LibraryStored (t : FileTree) (outRoot : Path) : Prop where
  locate : t.locate (outRoot.push libraryName) = .ok (libraryPlace t.cwd outRoot)
  readBytes : t.readBytes (outRoot.push libraryName) = .ok (Utf8.encode Library.text)

theorem libraryPlace_isScript (cwd outRoot : Path) : ScriptPlace (libraryPlace cwd outRoot) :=
  ⟨_, libraryName, rfl, by decide⟩

theorem writeLibrary_spec {u : Unit} (hout : Resolved outRoot)
    (h : (writeLibrary outRoot).run t = (.ok u, t')) :
    Kept (· = libraryPlace t.cwd outRoot) t t' ∧ LibraryStored t' outRoot := by
  have hpath : outRoot.push libraryName = outRoot.join (ofParts false ([libraryName].map .name)) := rfl
  have hw := of_writeText h
  rw [hpath] at hw
  obtain ⟨hk, hl, hread⟩ :=
    write_below hout (forall_mem_singleton.mpr libraryName_isName) (by simp) hw
  rw [← hpath] at hl hread
  rw [← hk.cwd] at hl
  exact ⟨hk, hl, hread⟩

/-! ## What a build finds -/

/-- The root of a build: the input itself, or the directory of a file. -/
def rootOf (t : FileTree) (input : Path) : Path :=
  match t.stat input with
  | .ok (.dir _) => input
  | _ => input.parent.getD ⟨[]⟩

theorem pathBelow_concat (dir : Path) (place : Place) (n : Text) :
    pathBelow dir (place ++ [n]) = (pathBelow dir place).push n := by
  simp [pathBelow]

def isSourceFile (dir : Path) (entry : Place × Bool) : Bool := !entry.2 && (pathBelow dir entry.1).isSource

/-- A directory that cannot be read by its path. -/
def isRefusedDir (dir : Path) (entry : Place × Bool) : Bool :=
  entry.2 && (refusal? (pathBelow dir entry.1)).isSome

/-- The paths of the source files at and below a node. -/
def sourceFiles (dir : Path) (node : Node) : List Path :=
  ((node.kinds []).filter (isSourceFile dir)).map fun entry => pathBelow dir entry.1

mutual

theorem listSources_iff {files : List Path} (dir : Path) (place : Place) :
    (node : Node) → (listSources (pathBelow dir place) node = .ok files ↔
      (node.kinds place).filter (isRefusedDir dir) = [] ∧
        files = ((node.kinds place).filter (isSourceFile dir)).map fun entry => pathBelow dir entry.1)
  | .file mode contents => by
    rw [listSources, Node.kinds_file]
    by_cases hs : (pathBelow dir place).isSource = true <;>
      simp [isRefusedDir, isSourceFile, hs, eq_comm]
  | .dir children => by
    rw [listSources, Node.kinds_dir]
    cases hr : refusal? (pathBelow dir place) with
    | some e => simp [isRefusedDir, hr]
    | none =>
      simp only [filter_cons, isRefusedDir, isSourceFile, hr, Option.isSome_none, Bool.and_false,
        Bool.not_true, Bool.false_and, Bool.false_eq_true, ↓reduceIte]
      exact listChildren_iff dir place children

theorem listChildren_iff {files : List Path} (dir : Path) (place : Place) :
    (children : List (Text × Node)) → (listChildren (pathBelow dir place) children = .ok files ↔
      (Node.kindsOf place children).filter (isRefusedDir dir) = [] ∧
        files = ((Node.kindsOf place children).filter (isSourceFile dir)).map fun entry => pathBelow dir entry.1)
  | [] => by
    rw [listChildren]
    simp [Node.kindsOf, Node.descendantsOf, eq_comm]
  | (name, node) :: rest => by
    rw [listChildren, ← pathBelow_concat, Node.kindsOf_cons, filter_append, filter_append,
      append_eq_nil_iff, map_append]
    constructor
    · intro h
      obtain ⟨later, hlater, h⟩ := of_bind_ok h
      obtain ⟨found, hfound, h⟩ := of_bind_ok h
      cases h
      obtain ⟨hread, rfl⟩ := (listChildren_iff dir place rest).mp hlater
      obtain ⟨hread', rfl⟩ := (listSources_iff dir (place ++ [name]) node).mp hfound
      exact ⟨⟨hread', hread⟩, rfl⟩
    · rintro ⟨⟨hread', hread⟩, rfl⟩
      rw [(listChildren_iff dir place rest).mpr ⟨hread, rfl⟩]
      exact congrArg (· >>= fun found => pure (found ++ _))
        ((listSources_iff dir (place ++ [name]) node).mpr ⟨hread', rfl⟩)

end

/-- The sources of a build: all that stand below a directory, or the file itself. -/
def sourcesOf (t : FileTree) (input : Path) : List Path :=
  match t.stat input with
  | .ok node => (sourceFiles input node).mergeSort le
  | .error _ => []

/-- Every directory at and below the input can be read by its path. -/
def Listable (t : FileTree) (input : Path) : Prop :=
  ∀ node, t.stat input = .ok node → ∀ entry ∈ node.kinds [], isRefusedDir input entry = false

/-- The output root of a build: the target, or else the root. -/
def outRootOf (t : FileTree) (input : Path) (target : Option Path) : Path :=
  (target.map (·.resolve t.cwd)).getD (rootOf t input)

theorem isSource_of_mem_sourcesOf (h : file ∈ sourcesOf t input) : file.isSource = true := by
  simp only [sourcesOf] at h
  split at h
  · rw [mem_mergeSort, sourceFiles, mem_map] at h
    obtain ⟨entry, hentry, rfl⟩ := h
    exact (Bool.and_eq_true_iff.mp (mem_filter.mp hentry).2).2
  · cases h

theorem sourcesOf_file {mode : Nat} {contents : Bytes} (h : t.stat input = .ok (.file mode contents)) :
    sourcesOf t input = if input.isSource then [input] else [] := by
  by_cases hs : input.isSource = true <;>
    simp [sourcesOf, h, sourceFiles, Node.kinds_file, isSourceFile, pathBelow, hs]

theorem sourcesBelow_iff {dir : Path} {files : List Path} :
    sourcesBelow dir node = .ok files ↔ (∀ entry ∈ node.kinds [], isRefusedDir dir entry = false) ∧
      files = (sourceFiles dir node).mergeSort le := by
  have hall : (∀ entry ∈ node.kinds [], isRefusedDir dir entry = false) ↔
      (node.kinds []).filter (isRefusedDir dir) = [] := by
    simp [filter_eq_nil_iff]
  rw [hall]
  constructor
  · intro h
    obtain ⟨found, hfound, rfl⟩ := of_map_ok h
    obtain ⟨hread, rfl⟩ := (listSources_iff dir [] node).mp hfound
    exact ⟨hread, rfl⟩
  · rintro ⟨hread, rfl⟩
    have hfound : listSources dir node = .ok (sourceFiles dir node) :=
      (listSources_iff dir [] node).mpr ⟨hread, rfl⟩
    rw [sourcesBelow, hfound]
    rfl

theorem rooted_rootOf {cwd : Path} (h : t.stat (input.resolve cwd) = .ok node) :
    Rooted t (rootOf t (input.resolve cwd)) := by
  obtain ⟨place, hl, hg⟩ := stat_iff.mp h
  rcases resolve_cases input cwd with ⟨-, hr⟩ | ⟨above, names, hn, hr⟩
  · rw [hr] at hl
    cases hl
  · rw [hr] at h hl ⊢
    obtain ⟨rfl, -, hdir⟩ := place_of_locate_anchored hn hl
    simp only [rootOf, h]
    cases node with
    | dir children => exact ⟨above, place, children, hn, rfl, hg⟩
    | file mode contents =>
      refine rooted_parent hn ?_ hg
      rintro rfl
      obtain ⟨children, hdir⟩ := hdir
      rw [dropLast_nil, hg] at hdir
      cases hdir

theorem resolved_outRootOf (h : t.stat (input.resolve t.cwd) = .ok node) (target : Option Path) :
    Resolved (outRootOf t (input.resolve t.cwd) target) := by
  cases target with
  | none => exact (rooted_rootOf h).resolved
  | some target => exact resolved_resolve target t.cwd

theorem not_isSource_pathBelow (dir : Path) {place : Place} (h : ScriptPlace place) :
    (pathBelow dir place).isSource = false := by
  obtain ⟨a, n, rfl, hn⟩ := h
  rw [pathBelow_concat]
  exact not_isSource_of_script (hn.trans (suffix_push _ n))

theorem scriptPlace_below {place : Place} {n : Text} {rest : Place} (h : ScriptPlace (place ++ n :: rest)) :
    ScriptPlace (n :: rest) := by
  obtain ⟨a, last, he, hl⟩ := h
  obtain ⟨init, m, hm⟩ := (eq_nil_or_concat (n :: rest)).resolve_left (by simp)
  rw [concat_eq_append] at hm
  rw [hm, ← List.append_assoc] at he
  cases (append_inj' he rfl).2
  exact ⟨init, last, hm, hl⟩

/-- As long as no file is added but scripts, a build finds the same sources and the same root. -/
theorem sourcesOf_extends {changed : Place → Prop} {added : Place → Bool → Prop}
    (hk : Kept changed t t') (he : Node.Extends added t.root t'.root)
    (hadded : ∀ place, added place false → ScriptPlace place) (hs : t.stat input = .ok node) :
    (∃ node', t'.stat input = .ok node') ∧
      sourcesOf t' input = sourcesOf t input ∧ rootOf t' input = rootOf t input := by
  obtain ⟨place, hl, hg⟩ := stat_iff.mp hs
  obtain ⟨node', hg', hd, hkinds⟩ := he place node hg
  have hs' := stat_iff.mpr ⟨place, hk.locate hl, hg'⟩
  have hsame := hkinds (isSourceFile input) fun n rest isDir ha => by
    cases isDir with
    | true => rfl
    | false => exact not_isSource_pathBelow input (scriptPlace_below (hadded _ ha))
  refine ⟨⟨node', hs'⟩, ?_, ?_⟩
  · simp only [sourcesOf, hs, hs', sourceFiles, hsame]
  · simp only [rootOf, hs, hs']
    cases node with
    | dir children =>
      cases node' with
      | dir children' => rfl
      | file mode contents => cases hd
    | file mode contents =>
      cases node' with
      | dir children' => cases hd
      | file mode' contents' => rfl

/-- The tree before the first source is compiled: if there is a source, the library has been written. -/
structure Prepared (t t₀ : FileTree) (outRoot : Path) (sources : List Path) : Prop where
  kept : Kept (fun place => sources ≠ [] ∧ place = libraryPlace t.cwd outRoot) t t₀
  library : sources ≠ [] → LibraryStored t₀ outRoot

theorem Prepared.scripts {t₀ : FileTree} {sources : List Path} (h : Prepared t t₀ outRoot sources) :
    Kept ScriptPlace t t₀ := by
  refine h.kept.mono ?_
  rintro place ⟨-, rfl⟩
  exact libraryPlace_isScript _ _

/-- The library has been written, if there is a source. -/
structure LibraryMade (outRoot : Path) (sources : List Path) (t t' : FileTree) : Prop where
  made : sources ≠ [] → (writeLibrary outRoot).run t = (.ok (), t')
  same : sources = [] → t' = t

/-- The sources of a build, after the library if there are any. -/
def compileSources (root outRoot : Path) (sources : List Path) : BuildM (List BuildOutput) := do
  if sources ≠ [] then writeLibrary outRoot
  sources.mapM (compileInto root outRoot)

section

variable {input : Path} {target : Option Path} {node : Node} {t₁ : FileTree}

theorem rootOf_of_stat (h : t.stat input = .ok node) :
    (if node.isDir then input else input.parent.getD ⟨[]⟩) = rootOf t input := by
  rw [rootOf, h]
  cases node <;> rfl

theorem run_cwd (t : FileTree) : ((·.cwd) <$> get : BuildM Path).run t = (.ok t.cwd, t) := rfl

theorem run_look_stat (h : t.stat input = .ok node) :
    (BuildM.look fun u => (u.stat input).mapError (CompileError.read input)).run t = (.ok node, t) :=
  BuildM.run_look (by rw [h]; rfl)

/-- The walk finds the sources of a build, or a directory that cannot be read. -/
theorem look_sources (t : FileTree) (input : Path) :
    (∃ e, (BuildM.look fun u => (u.stat input).mapError (CompileError.read input) >>= sourcesBelow input).run t =
      (.error e, t)) ∨ Listable t input := by
  cases hlook : (t.stat input).mapError (CompileError.read input) >>= sourcesBelow input with
  | error e => exact .inl ⟨e, Prod.ext hlook rfl⟩
  | ok files =>
    refine .inr fun node hs => ?_
    rw [hs] at hlook
    exact (sourcesBelow_iff.mp hlook).1

theorem run_look_sources (hs : t.stat input = .ok node) (hl : Listable t input) :
    (BuildM.look fun u => (u.stat input).mapError (CompileError.read input) >>= sourcesBelow input).run t =
      (.ok (sourcesOf t input), t) := by
  refine BuildM.run_look ?_
  rw [hs]
  refine sourcesBelow_iff.mpr ⟨hl node hs, ?_⟩
  rw [sourcesOf, hs]

theorem sourcesOf_createDirs {dir : Path} (hs : t.stat input = .ok node) (hd : t.createDirs dir = .ok t₁) :
    (∃ node', t₁.stat input = .ok node') ∧ sourcesOf t₁ input = sourcesOf t input := by
  obtain ⟨hs', hsources, -⟩ := sourcesOf_extends (createDirs_spec hd)
    (makesDirs_createDirs (.inl hd)).2.extends (fun _ ha => absurd ha.1 Bool.false_ne_true) hs
  exact ⟨hs', hsources⟩

theorem run_build (hs : t.stat (input.resolve t.cwd) = .ok node)
    (hd : t.createDirs (outRootOf t (input.resolve t.cwd) target) = .ok t₁)
    (hl : Listable t₁ (input.resolve t.cwd)) :
    (build input target).run t = (compileSources (rootOf t (input.resolve t.cwd))
      (outRootOf t (input.resolve t.cwd) target) (sourcesOf t (input.resolve t.cwd))).run t₁ := by
  obtain ⟨⟨node', hs'⟩, hsources⟩ := sourcesOf_createDirs hs hd
  refine (BuildM.run_bind_ok (run_cwd t)).trans ((BuildM.run_bind_ok (run_look_stat hs)).trans ?_)
  simp only [rootOf_of_stat hs]
  refine (BuildM.run_bind_ok (BuildM.run_change hd)).trans ((BuildM.run_bind_ok (run_look_sources hs' hl)).trans ?_)
  simp only [hsources]
  rfl

/-- A build ends before it writes a file, or it has created the output root and can read every directory. -/
theorem build_cases (t : FileTree) (input : Path) (target : Option Path) :
    (∃ e t₁, (build input target).run t = (.error e, t₁) ∧ Kept (fun _ => False) t t₁) ∨
      ∃ node t₁, t.stat (input.resolve t.cwd) = .ok node ∧
        t.createDirs (outRootOf t (input.resolve t.cwd) target) = .ok t₁ ∧ Listable t₁ (input.resolve t.cwd) := by
  cases hs : t.stat (input.resolve t.cwd) with
  | error e =>
    have hlook : (BuildM.look fun u => (u.stat (input.resolve t.cwd)).mapError
        (CompileError.read (input.resolve t.cwd))).run t = (.error (.read (input.resolve t.cwd) e), t) := by
      simp [BuildM.look, ExceptT.run, hs, Except.mapError]
    exact .inl ⟨_, t, (BuildM.run_bind_ok (run_cwd t)).trans (BuildM.run_bind_error hlook), .refl _ _⟩
  | ok node =>
    cases hd : t.createDirs (outRootOf t (input.resolve t.cwd) target) with
    | ok t₁ =>
      obtain ⟨e, hlook⟩ | hl := look_sources t₁ (input.resolve t.cwd)
      · refine .inl ⟨e, t₁, ?_, createDirs_spec hd⟩
        refine (BuildM.run_bind_ok (run_cwd t)).trans ((BuildM.run_bind_ok (run_look_stat hs)).trans ?_)
        simp only [rootOf_of_stat hs]
        exact (BuildM.run_bind_ok (BuildM.run_change hd)).trans (BuildM.run_bind_error hlook)
      · exact .inr ⟨node, t₁, rfl, rfl, hl⟩
    | error failure =>
      obtain ⟨e, t₁⟩ := failure
      refine .inl ⟨.write (outRootOf t (input.resolve t.cwd) target) e, t₁, ?_, createDirs_kept (.inr ⟨e, hd⟩)⟩
      refine (BuildM.run_bind_ok (run_cwd t)).trans ((BuildM.run_bind_ok (run_look_stat hs)).trans ?_)
      simp only [rootOf_of_stat hs]
      exact BuildM.run_bind_error (BuildM.run_change_error hd)

end

theorem build_steps (h : (build input target).run t = (.ok outputs, t')) :
    ∃ node t₁ t₀, t.stat (input.resolve t.cwd) = .ok node ∧
      t.createDirs (outRootOf t (input.resolve t.cwd) target) = .ok t₁ ∧ Listable t₁ (input.resolve t.cwd) ∧
      LibraryMade (outRootOf t (input.resolve t.cwd) target) (sourcesOf t (input.resolve t.cwd)) t₁ t₀ ∧
      ((sourcesOf t (input.resolve t.cwd)).mapM (compileInto (rootOf t (input.resolve t.cwd))
        (outRootOf t (input.resolve t.cwd) target))).run t₀ = (.ok outputs, t') := by
  obtain ⟨e, t₁, he, -⟩ | ⟨node, t₁, hnode, hdirs, hlist⟩ := build_cases t input target
  · rw [he] at h
    cases h
  · rw [run_build hnode hdirs hlist, compileSources] at h
    split at h
    · rename_i hne
      obtain ⟨u, t₀, hlib, hall⟩ := BuildM.of_bind_ok h
      exact ⟨node, t₁, t₀, hnode, hdirs, hlist, ⟨fun _ => hlib, fun he => absurd he hne⟩, hall⟩
    · rename_i hnil
      exact ⟨node, t₁, t₁, hnode, hdirs, hlist, ⟨fun hne => absurd hne hnil, fun _ => rfl⟩, h⟩

theorem LibraryMade.prepared {sources : List Path} (hout : Resolved outRoot)
    (h : LibraryMade outRoot sources t t') : Prepared t t' outRoot sources := by
  by_cases hs : sources = []
  · obtain rfl := h.same hs
    exact ⟨.refl _ _, fun hne => absurd hs hne⟩
  · obtain ⟨hk, hstored⟩ := writeLibrary_spec hout (h.made hs)
    exact ⟨hk.mono fun _ hp => ⟨hs, hp⟩, fun _ => hstored⟩

theorem build_spec (h : (build input target).run t = (.ok outputs, t')) :
    ∃ node t₀, t.stat (input.resolve t.cwd) = .ok node ∧
      Prepared t t₀ (outRootOf t (input.resolve t.cwd) target) (sourcesOf t (input.resolve t.cwd)) ∧
      ((sourcesOf t (input.resolve t.cwd)).mapM (compileInto (rootOf t (input.resolve t.cwd))
        (outRootOf t (input.resolve t.cwd) target))).run t₀ = (.ok outputs, t') := by
  obtain ⟨node, t₁, t₀, hnode, hdirs, -, hlib, hall⟩ := build_steps h
  have hk := createDirs_spec hdirs
  have hprepared := hlib.prepared (resolved_outRootOf hnode target)
  have hkept := hprepared.kept
  rw [hk.cwd] at hkept
  exact ⟨node, t₀, hnode, ⟨(hk.mono fun _ hf => hf.elim).trans hkept, hprepared.library⟩, hall⟩

theorem build_wrote (h : (build input target).run t = (.ok outputs, t')) :
    ∃ t₀, Prepared t t₀ (outRootOf t (input.resolve t.cwd) target) (sourcesOf t (input.resolve t.cwd)) ∧
      outputs.map (·.source) = sourcesOf t (input.resolve t.cwd) ∧
      Wrote t t₀ t' ⟨t.cwd, rootOf t (input.resolve t.cwd)⟩ (outRootOf t (input.resolve t.cwd) target)
        outputs := by
  obtain ⟨node, t₀, hnode, hprepared, hall⟩ := build_spec h
  obtain ⟨hsources, hwrote⟩ := compileAll_wrote (rooted_rootOf hnode) (resolved_outRootOf hnode target)
    hprepared.scripts (fun f hf => sourcePath_of_isSource (isSource_of_mem_sourcesOf hf) t.cwd) hall
  exact ⟨t₀, hprepared, hsources, hwrote⟩

end Build

end Runbook
