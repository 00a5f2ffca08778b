import Runbook.Proofs.Outputs
import Runbook.Proofs.Overwriting

/-!
# Building again

Scripts never have the place of a source, so a build leaves all sources as they are. A second build then
writes the same texts in the same order over the same files, and leaves the tree as it is.
-/

open List

namespace Runbook
open FileTree

namespace BuildM

variable {α : Type} {t t' : FileTree}

end BuildM

theorem FileTree.Kept.weaken {changed : Place → Prop} {t t' : FileTree} (h : Kept changed t t') :
    Kept (fun _ => True) t t' :=
  h.mono fun _ _ => trivial

namespace Build

variable {input : Path} {target : Option Path} {node : Node}
variable {t t' : FileTree} {root outRoot file : Path}

/-! ## Builds that fail -/

/-- What a build adds: scripts, and directories that can be read by their paths. The latter is not known if the
output root is empty and so stands for the current directory. -/
def Addable (outRoot : Path) (place : Place) : Bool → Prop
  | false => ScriptPlace place
  | true => outRoot = ⟨[]⟩ ∨
      (∀ n ∈ place, IsName n) ∧ ∀ above, refusal? (Path.anchored above place) = none

theorem addable_on_way {names : List Text} {cwd : Path} {place : Place} (hout : Resolved outRoot)
    (hn : ∀ n ∈ names, IsName n) (hs : ScriptPlace (basePlace cwd outRoot ++ names))
    (hr : refusal? (outRoot.join (Path.ofParts false (names.map .name))) = none) (hne : names ≠ [])
    (h : Place.Above place (basePlace cwd outRoot ++ names)) : Addable outRoot place true := by
  rcases hout with rfl | ⟨above, ns, hns, rfl⟩
  · exact .inl rfl
  · have hboth : ∀ n ∈ ns ++ names, IsName n := forall_mem_append.mpr ⟨hns, hn⟩
    rw [basePlace, anchored_text hns, if_neg (by simp), namesOf_anchored hns] at hs h
    rw [anchored_join_names hn hne hns] at hr
    obtain ⟨n, rest, hway⟩ := h
    rw [hway] at hs hboth hr
    refine .inr ⟨fun m hm => hboth m (by simp [hm]), fun above' => refusal?_anchored_append hboth ?_ hr⟩
    -- the name of a script has three characters at least
    obtain ⟨a, last, hlast, before, hsuffix⟩ := scriptPlace_below hs
    obtain ⟨text, htext⟩ := Path.exists_partsText_append (a.map .name) (.name last)
    have hbytes : Text.byteLength ".sh" = 3 := by decide
    rw [hlast, map_append, map_singleton, htext, Component.text, ← hsuffix, Text.byteLength_append,
      Text.byteLength_append, hbytes]
    omega

theorem pathBelow_anchored (above : Bool) (names : List Text) (rest : Place) :
    pathBelow (Path.anchored above names) rest = Path.anchored above (names ++ rest) := by
  induction rest generalizing names with
  | nil => simp [pathBelow]
  | cons n rest ih =>
    have hpush : (Path.anchored above names).push n = Path.anchored above (names ++ [n]) := by
      rw [Path.anchored_ofParts, Path.push_ofParts, Path.anchored_ofParts, map_append, List.append_assoc]
      rfl
    have hrest := ih (names ++ [n])
    rw [← hpush, List.append_assoc] at hrest
    exact hrest

theorem listable_extends {changed : Place → Prop} {cwd : Path} (hk : Kept changed t t')
    (he : Node.Extends (Addable outRoot) t.root t'.root) (hne : outRoot ≠ ⟨[]⟩)
    (hs : t.stat (input.resolve cwd) = .ok node) (h : Listable t (input.resolve cwd)) :
    Listable t' (input.resolve cwd) := by
  obtain ⟨place, hl, hg⟩ := stat_iff.mp hs
  rcases Path.resolve_cases input cwd with ⟨-, hr⟩ | ⟨above, names, hn, hr⟩
  · rw [hr] at hl
    cases hl
  · rw [hr] at hl hs h ⊢
    obtain ⟨rfl, -, -⟩ := place_of_locate_anchored hn hl
    obtain ⟨node₁, hg₁, -, hkinds⟩ := he place node hg
    intro node' hs'
    cases hs'.symm.trans (stat_iff.mpr ⟨place, hk.locate hl, hg₁⟩)
    have hsame := hkinds (isRefusedDir (Path.anchored above place)) fun n rest isDir ha => by
      cases isDir with
      | false => rfl
      | true => simp [isRefusedDir, pathBelow_anchored, (ha.resolve_left hne).2 above]
    have hnone : (node.kinds []).filter (isRefusedDir (Path.anchored above place)) = [] :=
      filter_eq_nil_iff.mpr fun entry hentry => by simp [h node hs entry hentry]
    rw [hnone] at hsame
    exact fun entry hentry => Bool.eq_false_iff.mpr (filter_eq_nil_iff.mp hsame entry hentry)

/-! ## What a compilation leaves behind -/

/-- There is a directory at the place of the output root. -/
def Grounded (t : FileTree) (outRoot : Path) : Prop :=
  ∃ children, t.root.get? (basePlace t.cwd outRoot) = some (.dir children)

/-- From `t` to `t'` nothing has been added but what a second build can pass by, and the directories of the
outputs are there to stay. -/
structure Steady (t t' : FileTree) (outRoot : Path) (outputs : List BuildOutput) : Prop where
  grown : Node.Extends (Addable outRoot) t.root t'.root
  dirs : ∀ o ∈ outputs, ∀ changed u, Kept changed t' u → DirMade o.output u u

section

variable {changed : Place → Prop} {t₁ u : FileTree}

theorem Grounded.top (h : Grounded t outRoot) : ∃ children, t.root.get? [] = some (.dir children) := by
  obtain ⟨children, h⟩ := h
  exact dir_top h

theorem Grounded.kept (h : Grounded t outRoot) (hk : Kept changed t u) : Grounded u outRoot := by
  obtain ⟨children, h⟩ := h
  rw [Grounded, hk.cwd]
  exact hk.root.dirs _ children h

theorem DirMade.again (hout : Resolved outRoot) (hp : Placed ⟨t.cwd, root⟩ file) (hb : Grounded t outRoot)
    (h : DirMade (scriptPath ⟨t.cwd, root⟩ outRoot file) t t₁) (hk : Kept changed t₁ u) :
    DirMade (scriptPath ⟨t.cwd, root⟩ outRoot file) u u := by
  refine ⟨fun folder hfolder => ?_, fun _ => rfl⟩
  refine createDirs_again (h.made folder hfolder) hk (fun _ => hb.top) fun habs _ => ?_
  rcases hout with rfl | ⟨above, ns, hns, rfl⟩
  · exact hb
  · -- below an absolute path the directory has an absolute path
    have hnames := Layout.isName_scriptNames hp.names
    have hne := Layout.scriptNames_ne_nil hp.ne_nil
    rw [scriptPath, Layout.output_eq hp.names, anchored_join_names hnames hne hns] at hfolder
    obtain ⟨init, last, hlast⟩ := (eq_nil_or_concat _).resolve_left hne
    rw [concat_eq_append] at hlast
    have hboth : ∀ n ∈ (ns ++ init) ++ [last], IsName n := by
      rw [List.append_assoc, ← hlast]
      exact forall_mem_append.mpr ⟨hns, hnames⟩
    rw [hlast, ← List.append_assoc, Path.parent_anchored hboth] at hfolder
    cases hfolder
    rw [Path.isAbsolute_anchored] at habs
    cases habs

theorem DirMade.extends (hout : Resolved outRoot) (hp : Placed ⟨t.cwd, root⟩ file) {place : Place}
    (h : DirMade (scriptPath ⟨t.cwd, root⟩ outRoot file) t t₁)
    (hl : t₁.locate (scriptPath ⟨t.cwd, root⟩ outRoot file) = .ok place) :
    Node.Extends (Addable outRoot) t.root t₁.root := by
  have hnames := Layout.isName_scriptNames hp.names
  have hne := Layout.scriptNames_ne_nil hp.ne_nil
  have hr := (locate_iff.mp hl).1
  rw [scriptPath, Layout.output_eq hp.names] at h hr
  refine (h.makesDirs hout hnames hne).extends.mono ?_
  rintro q isDir ⟨rfl, hq⟩
  exact addable_on_way hout hnames (scriptPlace_isScript outRoot hp) hr hne hq

theorem Steady.append {t'' : FileTree} {outputs more : List BuildOutput} {changed : Place → Prop}
    (h : Steady t t' outRoot outputs) (h' : Steady t' t'' outRoot more) (hk : Kept changed t' t'') :
    Steady t t'' outRoot (outputs ++ more) where
  grown := h.grown.trans h'.grown
  dirs := by
    refine forall_mem_append.mpr ⟨fun o ho changed' u hu => ?_, h'.dirs⟩
    exact h.dirs o ho _ u (hk.weaken.trans hu.weaken)

def writesOf (layout : Layout) (outRoot : Path) (outputs : List BuildOutput) : List (Place × Bytes) :=
  outputs.map fun o => (scriptPlace layout outRoot o.source, Utf8.encode (o.shell ++ "\n"))

theorem run_compileInto {s : Script} (hs : t.compile file root = .ok s)
    (hd : DirMade (scriptPath ⟨t.cwd, root⟩ outRoot file) t t₁)
    (hw : t₁.writeBytes (scriptPath ⟨t.cwd, root⟩ outRoot file) (Utf8.encode (s.text ++ "\n")) = .ok t') :
    (compileInto root outRoot file).run t =
      (.ok ⟨file, scriptPath ⟨t.cwd, root⟩ outRoot file, s.text⟩, t') := by
  have hlook : (BuildM.look (·.compile file root)).run t = (.ok s, t) := BuildM.run_look hs
  have hwrite : (writeText (scriptPath ⟨t.cwd, root⟩ outRoot file) (s.text ++ "\n") >>= fun _ =>
      pure ⟨file, scriptPath ⟨t.cwd, root⟩ outRoot file, s.text⟩ : BuildM BuildOutput).run t₁ =
        (.ok ⟨file, scriptPath ⟨t.cwd, root⟩ outRoot file, s.text⟩, t') :=
    BuildM.run_bind_ok (run_writeText hw)
  refine (BuildM.run_bind_ok hlook).trans ((BuildM.run_bind_ok (run_cwd t)).trans ?_)
  simp only
  split
  · rename_i folder hfolder
    exact (BuildM.run_bind_ok (BuildM.run_change (hd.made folder hfolder))).trans hwrite
  · rename_i hfolder
    rw [hd.same hfolder] at hwrite
    exact hwrite

end

section

variable {base : FileTree} {outputs : List BuildOutput} {o : BuildOutput} {writes : List (Place × Bytes)}

section

variable (hk : Kept ScriptPlace base t) (hw : ∀ place ∈ writes.map Prod.fst, ScriptPlace place)

include hk hw

end

/-! ## What the files hold -/

theorem get?_of_readBytes {p : Path} {place : Place} {contents : Bytes} (hl : t.locate p = .ok place)
    (h : t.readBytes p = .ok contents) : ∃ mode, t.root.get? place = some (.file mode contents) := by
  obtain ⟨place', mode, hl', hg⟩ := readBytes_iff.mp h
  rw [hl] at hl'
  cases hl'
  exact ⟨mode, hg⟩

theorem Wrote.holds {layout : Layout} (h : Wrote base t t' layout outRoot outputs) :
    t'.root.Holds (writesOf layout outRoot outputs) := by
  -- the induction is on the outputs that are left, since a write shows unless a later one has its place
  suffices hall : ∀ later earlier, outputs = earlier ++ later →
      t'.root.Holds (writesOf layout outRoot later) from hall outputs [] rfl
  intro later
  induction later with
  | nil => exact fun _ _ => trivial
  | cons o later ih =>
    rintro earlier rfl
    have ho : o ∈ earlier ++ o :: later := mem_append_right _ mem_cons_self
    refine ⟨fun hnew => ?_, ih (earlier ++ [o]) (by simp)⟩
    have hlater : lastAt later o.output = none := by
      refine lastAt_eq_none.mpr fun w hw hpath => hnew ?_
      have hplace := (h.output_eq_iff (mem_append_right _ (mem_cons_of_mem _ hw)) ho).mp hpath
      exact mem_map.mpr ⟨_, mem_map_of_mem hw, hplace⟩
    have hlast : lastAt (earlier ++ o :: later) o.output = some o := by
      rw [append_cons, lastAt_append, hlater, Option.none_or, lastAt_append]
      simp [lastAt]
    obtain ⟨w, hw, hread⟩ := h.last o ho
    cases hlast.symm.trans hw
    exact get?_of_readBytes (h.locate o ho) hread

end

/-! ## The same build -/

end Build

end Runbook
