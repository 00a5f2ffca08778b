import Runbook.Proofs.Walk
import Runbook.Proofs.Written
import Runbook.Scaffold

/-!
# What setting up a workspace leaves alone

Setting up a workspace keeps the contents of every file and adds nothing but its directory and the two files
in it. Permission bits stay, except that a starter workflow that is there becomes executable. A second time
changes nothing.
-/

namespace Runbook

namespace Node

/-- What is there stays: files with their contents and with the given modes, directories as directories.
What is new stands at one of the given places. -/
structure Keeps (modes : Place → Nat → Nat) (added : Place → Prop) (r r' : Node) : Prop where
  files : ∀ place mode contents, r.get? place = some (.file mode contents) →
    r'.get? place = some (.file (modes place mode) contents)
  dirs : ∀ place, r.DirAt place → r'.DirAt place
  new : ∀ place node, r'.get? place = some node → (∃ old, r.get? place = some old) ∨ added place

def sameModes : Place → Nat → Nat := fun _ mode => mode

/-- The file at the place gets a mode, and every other keeps its own. -/
def modeAt (q : Place) (new : Nat) : Place → Nat → Nat := fun place mode => if place = q then new else mode

section

variable {modes modes' : Place → Nat → Nat} {added added' : Place → Prop} {r r' r'' : Node} {q : Place}

theorem Keeps.refl (added : Place → Prop) (r : Node) : Keeps sameModes added r r :=
  ⟨fun _ _ _ h => h, fun _ h => h, fun _ node h => .inl ⟨node, h⟩⟩

theorem Keeps.trans (h : Keeps modes added r r') (h' : Keeps modes' added r' r'') :
    Keeps (fun place mode => modes' place (modes place mode)) added r r'' where
  files place mode contents hf := h'.files _ _ _ (h.files _ _ _ hf)
  dirs place hd := h'.dirs place (h.dirs place hd)
  new place node hn := by
    rcases h'.new place node hn with ⟨old, ho⟩ | ha
    · exact h.new place old ho
    · exact .inr ha

theorem Keeps.mono (h : Keeps modes added r r') (ha : ∀ place, added place → added' place) :
    Keeps modes added' r r' :=
  ⟨h.files, h.dirs, fun place node hn => (h.new place node hn).imp_right (ha place)⟩

theorem Keeps.get?_isSome (h : Keeps modes added r r') {place : Place} {node : Node}
    (hn : r.get? place = some node) : ∃ node', r'.get? place = some node' := by
  cases node with
  | file mode contents => exact ⟨_, h.files place mode contents hn⟩
  | dir children =>
    obtain ⟨children', hd⟩ := h.dirs place ⟨children, hn⟩
    exact ⟨_, hd⟩

theorem Keeps.get?_none (h : Keeps modes added r r') {place : Place} (hn : r.get? place = none)
    (ha : ¬ added place) : r'.get? place = none := by
  rw [Option.eq_none_iff_forall_ne_some]
  intro node hg
  rcases h.new place node hg with ⟨old, ho⟩ | hp
  · simp [hn] at ho
  · exact ha hp

theorem keeps_set_new {new : Node} (h : r.get? q = none) (hnew : new.IsLeaf) :
    Keeps sameModes (· = q) r (r.set q new) := by
  have hk : Kept (· = q) r (r.set q new) := kept_set (by simp [h]) hnew
  constructor
  · intro place mode contents hf
    refine (hk.files place ?_ mode contents).mpr hf
    rintro rfl
    simp [h] at hf
  · rintro place ⟨children, hd⟩
    exact hk.dirs place children hd
  · intro place node hn
    by_cases hp : place = q
    · exact .inr hp
    cases node with
    | file mode contents => exact .inl ⟨_, (hk.files place hp mode contents).mp hn⟩
    | dir children =>
      rcases newDirs_set r q new hnew place children hn with ⟨old, ho⟩ | hq
      · exact .inl ⟨_, ho⟩
      · exact .inr hq

theorem keeps_set_mode {old : Nat} {contents : Bytes} (h : r.get? q = some (.file old contents)) (mode : Nat)
    (added : Place → Prop) : Keeps (modeAt q mode) added r (r.set q (.file mode contents)) := by
  have hk : Kept (· = q) r (r.set q (.file mode contents)) := kept_set (by simp [h]) trivial
  constructor
  · intro place m c hf
    by_cases hp : place = q
    · subst hp
      rw [h] at hf
      cases hf
      rw [get?_set h, modeAt, if_pos rfl]
    · rw [modeAt, if_neg hp]
      exact (hk.files place hp m c).mpr hf
  · rintro place ⟨children, hd⟩
    exact hk.dirs place children hd
  · intro place node hn
    by_cases hp : place = q
    · exact .inl ⟨_, hp ▸ h⟩
    cases node with
    | file m c => exact .inl ⟨_, (hk.files place hp m c).mp hn⟩
    | dir children =>
      rcases newDirs_set_file r q mode contents place children hn with ⟨before, ho⟩ | hf
      · exact .inl ⟨_, ho⟩
      · exact hf.elim

theorem Keeps.modeAt_of_dir (h : Keeps sameModes added r r') (hd : r.DirAt q) (mode : Nat) :
    Keeps (modeAt q mode) added r r' := by
  refine ⟨fun place m contents hf => ?_, h.dirs, h.new⟩
  obtain ⟨children, hd⟩ := hd
  have hne : place ≠ q := by
    rintro rfl
    simp [hd] at hf
  rw [modeAt, if_neg hne]
  exact h.files place m contents hf

end

end Node

namespace FileTree

structure Keeps (modes : Place → Nat → Nat) (added : Place → Prop) (t t' : FileTree) : Prop where
  cwd : t'.cwd = t.cwd
  root : Node.Keeps modes added t.root t'.root

section

variable {modes modes' : Place → Nat → Nat} {added added' : Place → Prop} {t t' t'' : FileTree} {p : Path}

theorem Keeps.refl (added : Place → Prop) (t : FileTree) : Keeps Node.sameModes added t t :=
  ⟨rfl, .refl added t.root⟩

theorem Keeps.trans (h : Keeps modes added t t') (h' : Keeps modes' added t' t'') :
    Keeps (fun place mode => modes' place (modes place mode)) added t t'' :=
  ⟨h'.cwd.trans h.cwd, h.root.trans h'.root⟩

theorem Keeps.mono (h : Keeps modes added t t') (ha : ∀ place, added place → added' place) :
    Keeps modes added' t t' :=
  ⟨h.cwd, h.root.mono ha⟩

theorem Keeps.kept (h : Keeps modes added t t') : Kept (fun _ => True) t t' :=
  ⟨h.cwd, ⟨fun _ hc => absurd trivial hc, fun place children hd => h.root.dirs place ⟨children, hd⟩⟩⟩

theorem exists?_iff : t.exists? p = true ↔ ∃ place node, t.locate p = .ok place ∧ t.root.get? place = some node := by
  have hstat : t.exists? p = true ↔ ∃ node, t.stat p = .ok node := by
    rw [exists?]
    cases t.stat p <;> simp [Except.toOption]
  rw [hstat, exists_comm]
  exact exists_congr fun node => stat_iff

theorem Keeps.exists? (h : Keeps modes added t t') (he : t.exists? p = true) : t'.exists? p = true := by
  obtain ⟨place, node, hl, hn⟩ := exists?_iff.mp he
  obtain ⟨node', hn'⟩ := h.root.get?_isSome hn
  exact exists?_iff.mpr ⟨place, node', h.kept.locate hl, hn'⟩

theorem isDir_iff : t.isDir p = true ↔ ∃ place, t.locate p = .ok place ∧ t.root.DirAt place := by
  constructor
  · intro h
    cases hs : t.stat p with
    | error e => simp [isDir, hs, Except.toOption] at h
    | ok node =>
      obtain ⟨place, hl, hn⟩ := stat_iff.mp hs
      cases node with
      | file mode contents => simp [isDir, hs, Except.toOption, Node.isDir] at h
      | dir children => exact ⟨place, hl, children, hn⟩
  · rintro ⟨place, hl, children, hd⟩
    simp [isDir, stat_iff.mpr ⟨place, hl, hd⟩, Except.toOption, Node.isDir]

theorem setMode_cases {mode : Nat} (h : t.setMode p mode = .ok t') :
    ∃ place, t.locate p = .ok place ∧
      ((t.root.DirAt place ∧ t' = t) ∨
        ∃ old contents, t.root.get? place = some (.file old contents) ∧
          t' = { t with root := t.root.set place (.file mode contents) }) := by
  obtain ⟨place, hl, h⟩ := of_bind_ok h
  refine ⟨place, hl, ?_⟩
  split at h
  · rename_i children hd
    cases h
    exact .inl ⟨⟨children, hd⟩, rfl⟩
  · rename_i old contents hf
    cases h
    exact .inr ⟨old, contents, hf, rfl⟩
  · cases h

theorem setMode_keeps {place : Place} {mode : Nat} (hl : t.locate p = .ok place)
    (h : t.setMode p mode = .ok t') (added : Place → Prop) : Keeps (Node.modeAt place mode) added t t' := by
  obtain ⟨place', hl', hcase⟩ := setMode_cases h
  rw [hl] at hl'
  cases hl'
  rcases hcase with ⟨hd, rfl⟩ | ⟨old, contents, hf, rfl⟩
  · exact ⟨rfl, (Node.Keeps.refl added t'.root).modeAt_of_dir hd mode⟩
  · exact ⟨rfl, Node.keeps_set_mode hf mode added⟩

theorem setMode_again {mode : Nat} {u : FileTree} (h : t.setMode p mode = .ok t')
    (hk : Keeps Node.sameModes added t' u) : u.setMode p mode = .ok u := by
  obtain ⟨place, hl, hcase⟩ := setMode_cases h
  have hl' : u.locate p = .ok place := hk.kept.locate ((setMode_keeps hl h added).kept.locate hl)
  rcases hcase with ⟨hd, rfl⟩ | ⟨old, contents, hf, rfl⟩
  · obtain ⟨children, hd'⟩ := hk.root.dirs place hd
    simp [setMode, hl', hd', bind, Except.bind]
  · have hf' : u.root.get? place = some (.file mode contents) :=
      hk.root.files place mode contents (Node.get?_set hf _)
    simp [setMode, hl', hf', bind, Except.bind, Node.set_get? hf']

end

end FileTree

namespace Scaffold

open FileTree

/-! ## New files -/

section

variable {t t' u : FileTree} {p : Path} {text : Text} {written : Bool} {place : Place}

theorem writeNew_cases (h : writeNew t p text = .ok (t', written)) :
    (t.exists? p = true ∧ t' = t) ∨
      ∃ place, t.locate p = .ok place ∧ t.root.get? place = none ∧
        t' = { t with root := t.root.set place (.file Node.fileMode (Utf8.encode text)) } := by
  simp only [writeNew] at h
  split at h
  · rename_i he
    cases h
    exact .inl ⟨he, rfl⟩
  · rename_i he
    split at h
    · rename_i hw
      cases h
      obtain ⟨place, hl, hw⟩ := of_bind_ok hw
      refine .inr ⟨place, hl, ?_⟩
      cases hg : t.root.get? place with
      | some node => exact absurd (exists?_iff.mpr ⟨place, node, hl, hg⟩) he
      | none =>
        simp only [hg] at hw
        cases hw
        exact ⟨rfl, rfl⟩
    · cases h

theorem writeNew_keeps {dir : Place} {n : Text} (hd : LeadsTo t p dir) (hn : IsName n)
    (h : writeNew t (p.push n) text = .ok (t', written)) :
    Keeps Node.sameModes (· = dir ++ [n]) t t' ∧ t'.exists? (p.push n) = true ∧
      (t.root.get? (dir ++ [n]) = none →
        t'.root.get? (dir ++ [n]) = some (.file Node.fileMode (Utf8.encode text))) := by
  rcases writeNew_cases h with ⟨he, rfl⟩ | ⟨place, hl, hnone, rfl⟩
  · refine ⟨.refl _ _, he, fun hnone => ?_⟩
    obtain ⟨place, node, hl, hg⟩ := exists?_iff.mp he
    rw [hd.locate_push hn hl, hnone] at hg
    cases hg
  · obtain rfl := hd.locate_push hn hl
    obtain ⟨children, hdir⟩ := hd.leads.dirAt_goal
    have hk : Keeps Node.sameModes (· = dir ++ [n]) t
        { t with root := t.root.set (dir ++ [n]) (.file Node.fileMode (Utf8.encode text)) } :=
      ⟨rfl, Node.keeps_set_new hnone trivial⟩
    have hfile : (t.root.set (dir ++ [n]) (.file Node.fileMode (Utf8.encode text))).get? (dir ++ [n]) =
        some (.file Node.fileMode (Utf8.encode text)) := Node.get?_set_self n hdir
    exact ⟨hk, exists?_iff.mpr ⟨_, _, hk.kept.locate hl, hfile⟩, fun _ => hfile⟩

theorem writeNew_of_exists (h : u.exists? p = true) (text : Text) : writeNew u p text = .ok (u, false) := by
  rw [writeNew, if_pos h]

end

/-! ## The steps -/

def bootstrapPlace (base : Place) : Place := base ++ [workspaceDir] ++ [bootstrapName]

def configPlace (base : Place) : Place := base ++ [workspaceDir] ++ [configName]

/-- The directory of a workspace and the two files in it. -/
def scaffoldPlaces (base : Place) : List Place :=
  [base ++ [workspaceDir], bootstrapPlace base, configPlace base]

/-- The trees that setting up a workspace goes through to its end, from the one it finds. -/
structure SetUp (t : FileTree) (dir : Path) (t₁ t₂ t₃ t₄ : FileTree) : Prop where
  dirs : t.createDirs dir = .ok t₁
  bootstrap : ∃ written, writeNew t₁ (dir.push bootstrapName) (textOf bootstrapLines) = .ok (t₂, written)
  mode : t₂.setMode (dir.push bootstrapName) bootstrapMode = .ok t₃
  config : ∃ written, writeNew t₃ (dir.push configName) (textOf configLines) = .ok (t₄, written)

theorem init_cases {t : FileTree} {workspace : Path} (hd : t.isDir workspace = true) {dir : Path}
    (hdir : dir = (Path.absolute t.cwd workspace).push workspaceDir) :
    (∃ t₁ t₂ t₃, SetUp t dir t₁ t₂ t₃ (init t workspace).tree ∧ (init t workspace).error = none) ∨
      ((init t workspace).error ≠ none ∧
        ((∃ e, t.createDirs dir = .error (e, (init t workspace).tree)) ∨
          ∃ t₁, t.createDirs dir = .ok t₁ ∧
            ((init t workspace).tree = t₁ ∨
              ∃ t₂ written, writeNew t₁ (dir.push bootstrapName) (textOf bootstrapLines) = .ok (t₂, written) ∧
                ((init t workspace).tree = t₂ ∨
                  t₂.setMode (dir.push bootstrapName) bootstrapMode = .ok (init t workspace).tree)))) := by
  subst hdir
  simp only [init, hd, Bool.not_true, Bool.false_eq_true, ↓reduceIte]
  split
  · rename_i e t₁ h₁
    exact .inr ⟨by simp, .inl ⟨e, h₁⟩⟩
  · rename_i t₁ h₁
    split
    · exact .inr ⟨by simp, .inr ⟨t₁, h₁, .inl rfl⟩⟩
    · rename_i t₂ written h₂
      split
      · exact .inr ⟨by simp, .inr ⟨t₁, h₁, .inr ⟨t₂, written, h₂, .inl rfl⟩⟩⟩
      · rename_i t₃ h₃
        split
        · exact .inr ⟨by simp, .inr ⟨t₁, h₁, .inr ⟨t₂, written, h₂, .inr h₃⟩⟩⟩
        · rename_i t₄ written' h₄
          exact .inl ⟨t₁, t₂, t₃, ⟨h₁, ⟨written, h₂⟩, h₃, ⟨written', h₄⟩⟩, rfl⟩

theorem isName_workspaceDir : IsName workspaceDir := ⟨by decide, by decide, by decide, by decide⟩

theorem isName_bootstrapName : IsName bootstrapName := ⟨by decide, by decide, by decide, by decide⟩

theorem isName_configName : IsName configName := ⟨by decide, by decide, by decide, by decide⟩

section

variable {t t₁ t₂ t₃ t₄ : FileTree} {root : Path} {base : Place} {written : Bool}

theorem keeps_createDirs (hroot : LeadsTo t root base)
    (h : t.createDirs (root.push workspaceDir) = .ok t₁) :
    Keeps Node.sameModes (· = base ++ [workspaceDir]) t t₁ ∧
      LeadsTo t₁ (root.push workspaceDir) (base ++ [workspaceDir]) := by
  rcases hroot.createDirs_push isName_workspaceDir h with ⟨hd, rfl⟩ | ⟨hnone, rfl⟩
  · exact ⟨.refl _ _, hroot.push isName_workspaceDir hd⟩
  · have hk : Keeps Node.sameModes (· = base ++ [workspaceDir]) t
        { t with root := t.root.set (base ++ [workspaceDir]) (.dir []) } :=
      ⟨rfl, Node.keeps_set_new hnone rfl⟩
    obtain ⟨children, hbase⟩ := hroot.leads.dirAt_goal
    exact ⟨hk, (hroot.mono hk.root.dirs).push isName_workspaceDir ⟨[], Node.get?_set_self _ hbase⟩⟩

theorem keeps_within {modes : Place → Nat → Nat} {q : Place} (hq : q ∈ scaffoldPlaces base)
    (h : Keeps modes (· = q) t t₁) : Keeps modes (· ∈ scaffoldPlaces base) t t₁ :=
  h.mono fun _ hp => hp ▸ hq

theorem keeps_bootstrap (hroot : LeadsTo t root base)
    (h₁ : t.createDirs (root.push workspaceDir) = .ok t₁)
    (h₂ : writeNew t₁ ((root.push workspaceDir).push bootstrapName) (textOf bootstrapLines) = .ok (t₂, written)) :
    Keeps Node.sameModes (· ∈ scaffoldPlaces base) t t₂ ∧
      LeadsTo t₂ (root.push workspaceDir) (base ++ [workspaceDir]) := by
  obtain ⟨hk₁, hdir⟩ := keeps_createDirs hroot h₁
  obtain ⟨hk₂, -, -⟩ := writeNew_keeps hdir isName_bootstrapName h₂
  have hdirs : Keeps _ (· ∈ scaffoldPlaces base) t t₁ := keeps_within (by simp [scaffoldPlaces]) hk₁
  exact ⟨hdirs.trans (keeps_within (by simp [scaffoldPlaces, bootstrapPlace]) hk₂), hdir.mono hk₂.root.dirs⟩

theorem keeps_mode (hdir : LeadsTo t₂ (root.push workspaceDir) (base ++ [workspaceDir]))
    (h₃ : t₂.setMode ((root.push workspaceDir).push bootstrapName) bootstrapMode = .ok t₃) (added : Place → Prop) :
    Keeps (Node.modeAt (bootstrapPlace base) bootstrapMode) added t₂ t₃ := by
  obtain ⟨place, hl, -⟩ := setMode_cases h₃
  obtain rfl := hdir.locate_push isName_bootstrapName hl
  exact setMode_keeps hl h₃ added

/-- What each step of a success leaves alone, and what it has made. -/
structure Frames (base : Place) (dir : Path) (t t₁ t₂ t₃ t₄ : FileTree) : Prop where
  dirs : Keeps Node.sameModes (· = base ++ [workspaceDir]) t t₁
  bootstrap : Keeps Node.sameModes (· = bootstrapPlace base) t₁ t₂
  bootstrap_exists : t₂.exists? (dir.push bootstrapName) = true
  bootstrap_new : t₁.root.get? (bootstrapPlace base) = none →
    t₂.root.get? (bootstrapPlace base) = some (.file Node.fileMode (Utf8.encode (textOf bootstrapLines)))
  mode : Keeps (Node.modeAt (bootstrapPlace base) bootstrapMode) (fun _ => False) t₂ t₃
  config : Keeps Node.sameModes (· = configPlace base) t₃ t₄
  config_exists : t₄.exists? (dir.push configName) = true
  config_new : t₃.root.get? (configPlace base) = none →
    t₄.root.get? (configPlace base) = some (.file Node.fileMode (Utf8.encode (textOf configLines)))

theorem SetUp.frames (h : SetUp t (root.push workspaceDir) t₁ t₂ t₃ t₄) (hroot : LeadsTo t root base) :
    Frames base (root.push workspaceDir) t t₁ t₂ t₃ t₄ := by
  obtain ⟨written, h₂⟩ := h.bootstrap
  obtain ⟨written', h₄⟩ := h.config
  obtain ⟨hk₁, hdir⟩ := keeps_createDirs hroot h.dirs
  obtain ⟨hk₂, he₂, hnew₂⟩ := writeNew_keeps hdir isName_bootstrapName h₂
  have hdir₂ := hdir.mono hk₂.root.dirs
  have hk₃ := keeps_mode hdir₂ h.mode fun _ => False
  obtain ⟨hk₄, he₄, hnew₄⟩ := writeNew_keeps (hdir₂.mono hk₃.root.dirs) isName_configName h₄
  exact ⟨hk₁, hk₂, he₂, hnew₂, hk₃, hk₄, he₄, hnew₄⟩

theorem SetUp.again (h : SetUp t (root.push workspaceDir) t₁ t₂ t₃ t₄) (hroot : LeadsTo t root base) :
    SetUp t₄ (root.push workspaceDir) t₄ t₄ t₄ t₄ := by
  have hf := h.frames hroot
  have hlater := (hf.bootstrap.kept.trans hf.mode.kept).trans hf.config.kept
  have habs := Path.isAbsolute_push hroot.absolute workspaceDir
  constructor
  · exact createDirs_again h.dirs hlater (fun _ => hroot.leads.dirAt_start) (by simp [habs])
  · exact ⟨false, writeNew_of_exists (hf.config.exists? (hf.mode.exists? hf.bootstrap_exists)) _⟩
  · exact setMode_again h.mode hf.config
  · exact ⟨false, writeNew_of_exists hf.config_exists _⟩

namespace Frames

variable {dir : Path} (h : Frames base dir t t₁ t₂ t₃ t₄)

include h

theorem keeps : Keeps (Node.modeAt (bootstrapPlace base) bootstrapMode) (· ∈ scaffoldPlaces base) t t₄ := by
  have hdirs : Keeps _ (· ∈ scaffoldPlaces base) t t₁ := keeps_within (by simp [scaffoldPlaces]) h.dirs
  have hbootstrap : Keeps _ (· ∈ scaffoldPlaces base) t₁ t₂ := keeps_within (by simp [scaffoldPlaces]) h.bootstrap
  have hconfig : Keeps _ (· ∈ scaffoldPlaces base) t₃ t₄ := keeps_within (by simp [scaffoldPlaces]) h.config
  exact ((hdirs.trans hbootstrap).trans (h.mode.mono fun _ => False.elim)).trans hconfig

theorem bootstrap_written (hnone : t.root.get? (bootstrapPlace base) = none) :
    t₄.root.get? (bootstrapPlace base) = some (.file bootstrapMode (Utf8.encode (textOf bootstrapLines))) := by
  have hmode : Node.modeAt (bootstrapPlace base) bootstrapMode (bootstrapPlace base) Node.fileMode =
      bootstrapMode := if_pos rfl
  have hfile₂ := h.bootstrap_new (h.dirs.root.get?_none hnone (by simp [bootstrapPlace]))
  have hfile₃ := h.mode.root.files _ _ _ hfile₂
  rw [hmode] at hfile₃
  exact h.config.root.files _ _ _ hfile₃

theorem config_written (hnone : t.root.get? (configPlace base) = none) :
    t₄.root.get? (configPlace base) = some (.file Node.fileMode (Utf8.encode (textOf configLines))) := by
  have hother : configPlace base ≠ bootstrapPlace base := by
    intro he
    exact absurd (List.append_cancel_left he) (by decide)
  have hnone₁ := h.dirs.root.get?_none hnone (by simp [configPlace])
  have hnone₂ := h.bootstrap.root.get?_none hnone₁ hother
  exact h.config_new (h.mode.root.get?_none hnone₂ id)

end Frames

theorem init_of_setUp {workspace : Path} (hd : t.isDir workspace = true)
    (h : SetUp t ((Path.absolute t.cwd workspace).push workspaceDir) t₁ t₂ t₃ t₄) :
    (init t workspace).error = none ∧ (init t workspace).tree = t₄ := by
  obtain ⟨written, h₂⟩ := h.bootstrap
  obtain ⟨written', h₄⟩ := h.config
  simp [init, hd, h.dirs, h₂, h.mode, h₄]

end

/-- Setting up a path that is no directory does nothing. A directory keeps all its files with contents and
modes, except that a starter workflow that was there is made executable once it gets that far. Only the two
files and their directory are added. A success has written those that were missing, and a second one changes
nothing. -/
theorem init_keeps (t : FileTree) (workspace : Path) (names : List Text) (hn : ∀ n ∈ names, IsName n)
    (hcwd : t.cwd = Path.anchored false names) :
    (t.isDir workspace = false ∧ init t workspace = ⟨[], some (.notADirectory workspace), t⟩) ∨
      ∃ base, t.locate workspace = .ok base ∧ t.root.DirAt base ∧
        ((Keeps Node.sameModes (· ∈ scaffoldPlaces base) t (init t workspace).tree ∧
            (init t workspace).error ≠ none) ∨
          Keeps (Node.modeAt (bootstrapPlace base) bootstrapMode) (· ∈ scaffoldPlaces base) t
            (init t workspace).tree) ∧
        ((init t workspace).error = none →
          (t.root.get? (bootstrapPlace base) = none → (init t workspace).tree.root.get? (bootstrapPlace base) =
            some (.file bootstrapMode (Utf8.encode (textOf bootstrapLines)))) ∧
          (t.root.get? (configPlace base) = none → (init t workspace).tree.root.get? (configPlace base) =
            some (.file Node.fileMode (Utf8.encode (textOf configLines)))) ∧
          (init (init t workspace).tree workspace).error = none ∧
          (init (init t workspace).tree workspace).tree = (init t workspace).tree) := by
  by_cases hd : t.isDir workspace = true
  swap
  · rw [Bool.not_eq_true] at hd
    exact .inl ⟨hd, by simp [init, hd]⟩
  obtain ⟨base, hl, hbase⟩ := isDir_iff.mp hd
  have hroot := leadsTo_absolute hn hcwd hl hbase
  refine .inr ⟨base, hl, hbase, ?_⟩
  rcases init_cases hd rfl with ⟨t₁, t₂, t₃, hset, hok⟩ | ⟨herror, hcase⟩
  · have hf := hset.frames hroot
    have hk := hf.keeps
    have hd' : (init t workspace).tree.isDir workspace = true :=
      isDir_iff.mpr ⟨base, hk.kept.locate hl, hk.root.dirs base hbase⟩
    have hagain := hset.again hroot
    rw [← hk.cwd] at hagain
    exact ⟨.inr hk, fun _ => ⟨hf.bootstrap_written, hf.config_written, init_of_setUp hd' hagain⟩⟩
  · refine ⟨?_, fun hok => absurd hok herror⟩
    rcases hcase with ⟨e, h₁⟩ | ⟨t₁, h₁, htree | ⟨t₂, written, h₂, htree | h₃⟩⟩
    · obtain ⟨e', hrun⟩ | ⟨r, place, -, hrun⟩ := hroot.createDirs_cases isName_workspaceDir
      · have htree : t = (init t workspace).tree := (Prod.mk.inj (Except.error.inj (hrun.symm.trans h₁))).2
        rw [← htree]
        exact .inl ⟨.refl _ _, herror⟩
      · cases hrun.symm.trans h₁
    · rw [htree]
      have hk := (keeps_createDirs hroot h₁).1
      exact .inl ⟨keeps_within (by simp [scaffoldPlaces]) hk, herror⟩
    · rw [htree]
      exact .inl ⟨(keeps_bootstrap hroot h₁ h₂).1, herror⟩
    · obtain ⟨hk₂, hdir⟩ := keeps_bootstrap hroot h₁ h₂
      exact .inr (hk₂.trans (keeps_mode hdir h₃ _))

/-- A workspace with a starter workflow that only its owner may change, and nobody may run. -/
def startedWorkspace : FileTree where
  cwd := "/ws"
  root := .dir [("ws", .dir [(workspaceDir, .dir [(bootstrapName, .file 0o644 (Utf8.encode "mine\n"))])])]

theorem init_keeps_startedWorkspace :
    startedWorkspace.cwd = Path.anchored false ["ws"] ∧
      startedWorkspace.root.get? (bootstrapPlace ["ws"]) = some (.file 0o644 (Utf8.encode "mine\n")) ∧
      (init startedWorkspace ".").tree.root.get? (bootstrapPlace ["ws"]) =
        some (.file 0o755 (Utf8.encode "mine\n")) := by
  have hcwd : startedWorkspace.cwd = Path.anchored false ["ws"] := by decide
  have hd : startedWorkspace.isDir "." = true := by decide +kernel
  have hl : startedWorkspace.locate "." = .ok ["ws"] := by decide +kernel
  have hok : (init startedWorkspace ".").error = none := by decide +kernel
  have hn : ∀ n ∈ [("ws" : Text)], IsName n := by
    intro n hn
    rw [List.mem_singleton.mp hn]
    exact ⟨by decide, by decide, by decide, by decide⟩
  refine ⟨hcwd, rfl, ?_⟩
  rcases init_keeps startedWorkspace "." ["ws"] hn hcwd with ⟨hno, -⟩ | ⟨base, hb, -, ⟨-, hfailed⟩ | hk, -⟩
  · rw [hd] at hno
    cases hno
  · exact absurd hok hfailed
  · rw [hl] at hb
    cases hb
    exact hk.root.files _ _ _ rfl

end Scaffold

end Runbook
