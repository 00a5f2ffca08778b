import Mathlib.Data.Finset.Card
import Runbook.Proofs.Closure

/-!
# Loading scripts

Sourcing a script marks it as loaded, sources its imports and then defines its functions. Two scripts with
one guard count as one, so what a build has written is loaded completely just if the guards differ.
-/

open List

namespace Runbook

/-- What the shell knows while it sources scripts: the guards that are set, the functions that are
defined, and the scripts that have been read to their end. -/
structure Loading where
  guards : List Text
  functions : List Text
  loaded : List Path
deriving DecidableEq, Repr

namespace Loading

def fresh : Loading := ⟨[], [], []⟩

def mark (st : Loading) (s : Script) : Loading := { st with guards := s.guard :: st.guards }

def define (st : Loading) (path : Path) (s : Script) : Loading :=
  { st with
    functions := st.functions ++ s.definitions.flatMap Definition.functionNames
    loaded := st.loaded ++ [path] }

/-- The path by which the script at `path` sources an import. -/
def importAt (path : Path) (written : Text) : Path := ((path.parent.getD ⟨[]⟩).push written).normalize

/-- Sources the scripts at the paths one after the other; `none` if one is missing or the fuel is used
up. -/
def source (scripts : Path → Option Script) : Nat → Loading → List Path → Option Loading
  | _, st, [] => some st
  | 0, _, _ :: _ => none
  | fuel + 1, st, path :: rest =>
    match scripts path with
    | none => none
    | some s =>
      if s.guard ∈ st.guards then source scripts fuel st rest
      else
        match source scripts fuel (st.mark s) (s.imports.map (importAt path)) with
        | none => none
        | some st => source scripts fuel (st.define path s) rest

/-- What sourcing the paths does: the new scripts are read to their end, in this order. Each of them and
each of the paths has its guard set afterwards, and so has every import of a new script. -/
structure Sourced (scripts : Path → Option Script) (st : Loading) (paths : List Path)
    (new : List (Path × Script)) (st' : Loading) : Prop where
  loaded : st'.loaded = st.loaded ++ new.map Prod.fst
  functions : st'.functions =
    st.functions ++ new.flatMap fun (_, s) => s.definitions.flatMap Definition.functionNames
  guards : st'.guards.Perm (new.map (fun (_, s) => s.guard) ++ st.guards)
  nodup : st.guards.Nodup → st'.guards.Nodup
  found : ∀ x ∈ new, scripts x.1 = some x.2
  marked : ∀ path ∈ paths, ∃ s, scripts path = some s ∧ s.guard ∈ st'.guards
  imports : ∀ x ∈ new, ∀ i ∈ x.2.imports, ∃ s, scripts (importAt x.1 i) = some s ∧ s.guard ∈ st'.guards

section

variable {scripts : Path → Option Script} {st st₁ st₂ st' : Loading} {path : Path} {s : Script}
  {paths rest : List Path} {new new' : List (Path × Script)}

theorem Sourced.subset (h : Sourced scripts st paths new st') : st.guards ⊆ st'.guards := by
  intro g hg
  exact h.guards.mem_iff.mpr (by simp [hg])

theorem Sourced.refl (scripts : Path → Option Script) (st : Loading) : Sourced scripts st [] [] st where
  loaded := by simp
  functions := by simp
  guards := by simp
  nodup := id
  found := by simp
  marked := by simp
  imports := by simp

theorem Sourced.again (hs : scripts path = some s) (hg : s.guard ∈ st.guards)
    (h : Sourced scripts st rest new st') : Sourced scripts st (path :: rest) new st' where
  loaded := h.loaded
  functions := h.functions
  guards := h.guards
  nodup := h.nodup
  found := h.found
  marked := by
    intro p hp
    rcases mem_cons.mp hp with rfl | hp
    · exact ⟨s, hs, h.subset hg⟩
    · exact h.marked p hp
  imports := h.imports

theorem Sourced.first (hs : scripts path = some s) (hg : s.guard ∉ st.guards)
    (h : Sourced scripts (st.mark s) (s.imports.map (importAt path)) new st₁)
    (h' : Sourced scripts (st₁.define path s) rest new' st₂) :
    Sourced scripts st (path :: rest) (new ++ (path, s) :: new') st₂ where
  loaded := by simp [h'.loaded, define, h.loaded, mark]
  functions := by simp [h'.functions, define, h.functions, mark]
  guards := by
    refine h'.guards.trans ((h.guards.append_left _).trans (perm_append_comm.trans ?_))
    simp only [mark, map_append, map_cons, List.append_assoc, cons_append]
    exact (perm_append_comm.cons _).append_left _
  nodup := fun hn => h'.nodup (h.nodup (nodup_cons.mpr ⟨hg, hn⟩))
  found := by
    intro x hx
    rcases mem_append.mp hx with hx | hx
    · exact h.found x hx
    · rcases mem_cons.mp hx with rfl | hx
      · exact hs
      · exact h'.found x hx
  marked := by
    intro p hp
    rcases mem_cons.mp hp with rfl | hp
    · exact ⟨s, hs, h'.subset (h.subset (by simp [mark]))⟩
    · exact h'.marked p hp
  imports := by
    intro x hx i hi
    rcases mem_append.mp hx with hx | hx
    · obtain ⟨u, hu, hm⟩ := h.imports x hx i hi
      exact ⟨u, hu, h'.subset hm⟩
    · rcases mem_cons.mp hx with rfl | hx
      · obtain ⟨u, hu, hm⟩ := h.marked _ (mem_map_of_mem hi)
        exact ⟨u, hu, h'.subset hm⟩
      · exact h'.imports x hx i hi

def unset (all : Finset Text) (st : Loading) : Nat := (all \ st.guards.toFinset).card

theorem unset_mark {all : Finset Text} (ha : s.guard ∈ all) (hg : s.guard ∉ st.guards) :
    unset all (st.mark s) < unset all st := by
  apply Finset.card_lt_card
  constructor
  · intro g h
    simp only [mark, toFinset_cons, Finset.mem_sdiff, Finset.mem_insert, mem_toFinset] at h ⊢
    exact ⟨h.1, fun hm => h.2 (Or.inr hm)⟩
  · intro h
    have hm := h (Finset.mem_sdiff.mpr ⟨ha, by simpa using hg⟩)
    simp [mark] at hm

theorem unset_le_of_subset (all : Finset Text) (h : st.guards ⊆ st'.guards) :
    unset all st' ≤ unset all st := by
  apply Finset.card_le_card
  intro g hg
  simp only [Finset.mem_sdiff, mem_toFinset] at hg ⊢
  exact ⟨hg.1, fun hm => hg.2 (h hm)⟩

theorem source_ends (all : Finset Text)
    (hscripts : ∀ path s, scripts path = some s →
      s.guard ∈ all ∧ ∀ i ∈ s.imports, (scripts (importAt path i)).isSome)
    (st : Loading) (paths : List Path) (hpaths : ∀ path ∈ paths, (scripts path).isSome) :
    ∃ bound st' new, (∀ fuel ≥ bound, source scripts fuel st paths = some st') ∧
      Sourced scripts st paths new st' := by
  -- outer induction on the guards that are not set, inner induction on the paths
  induction hk : unset all st using Nat.strongRecOn generalizing st paths with
  | ind k ih =>
    subst hk
    induction paths with
    | nil => exact ⟨0, st, [], fun fuel _ => by simp [source], .refl scripts st⟩
    | cons path rest ihrest =>
      obtain ⟨s, hs⟩ := Option.isSome_iff_exists.mp (hpaths path (by simp))
      obtain ⟨ha, himports⟩ := hscripts path s hs
      have hrest : ∀ p ∈ rest, (scripts p).isSome := fun p hp => hpaths p (by simp [hp])
      by_cases hg : s.guard ∈ st.guards
      · obtain ⟨bound, st', new, hrun, hdone⟩ := ihrest hrest
        refine ⟨bound + 1, st', new, fun fuel hf => ?_, hdone.again hs hg⟩
        obtain ⟨n, rfl⟩ : ∃ n, fuel = n + 1 := ⟨fuel - 1, by omega⟩
        simp only [source, hs, hg, ↓reduceIte]
        exact hrun n (by omega)
      · have hless := unset_mark ha hg
        obtain ⟨b₁, st₁, new₁, hrun₁, hdone₁⟩ := ih _ hless (st.mark s)
          (s.imports.map (importAt path)) (by simpa using himports) rfl
        have hless' : unset all (st₁.define path s) < unset all st :=
          Nat.lt_of_le_of_lt (unset_le_of_subset all hdone₁.subset) hless
        obtain ⟨b₂, st₂, new₂, hrun₂, hdone₂⟩ := ih _ hless' (st₁.define path s) rest hrest rfl
        refine ⟨max b₁ b₂ + 1, st₂, _, fun fuel hf => ?_, hdone₁.first hs hg hdone₂⟩
        obtain ⟨n, rfl⟩ : ∃ n, fuel = n + 1 := ⟨fuel - 1, by omega⟩
        simp only [source, hs, hg, ↓reduceIte, hrun₁ n (by omega)]
        exact hrun₂ n (by omega)

/-! ## What has been loaded -/

theorem Sourced.mem_loaded (h : Sourced scripts fresh paths new st') {p : Path} :
    p ∈ st'.loaded ↔ ∃ s, (p, s) ∈ new := by
  simp [h.loaded, fresh]

theorem Sourced.eq_of_guard (h : Sourced scripts fresh paths new st') {p q : Path} {u v : Script}
    (hp : p ∈ st'.loaded) (hq : q ∈ st'.loaded) (hu : scripts p = some u) (hv : scripts q = some v)
    (hg : u.guard = v.guard) : p = q := by
  have hnodup : (new.map fun (_, s) => s.guard).Nodup := by
    have hall := h.guards.nodup_iff.mp (h.nodup (by simp [fresh]))
    simpa [fresh] using hall
  obtain ⟨u', hp⟩ := h.mem_loaded.mp hp
  obtain ⟨v', hq⟩ := h.mem_loaded.mp hq
  obtain rfl : u = u' := by simpa [hu] using h.found _ hp
  obtain rfl : v = v' := by simpa [hv] using h.found _ hq
  exact congrArg Prod.fst (inj_on_of_nodup_map hnodup hp hq hg)

theorem Sourced.loaded_of_marked (h : Sourced scripts fresh paths new st')
    (hunique : ∀ p q u v, scripts p = some u → scripts q = some v → u.guard = v.guard → p = q)
    {p : Path} (hp : ∃ s, scripts p = some s ∧ s.guard ∈ st'.guards) : p ∈ st'.loaded := by
  obtain ⟨s, hs, hg⟩ := hp
  have hm := h.guards.mem_iff.mp hg
  simp only [fresh, append_nil, mem_map, Prod.exists] at hm
  obtain ⟨q, v, hq, hv⟩ := hm
  obtain rfl := hunique p q s v hs (h.found _ hq) hv.symm
  exact h.mem_loaded.mpr ⟨v, hq⟩

theorem Sourced.import_loaded (h : Sourced scripts fresh paths new st')
    (hunique : ∀ p q u v, scripts p = some u → scripts q = some v → u.guard = v.guard → p = q)
    {p : Path} (hp : p ∈ st'.loaded) (hs : scripts p = some s) {i : Text} (hi : i ∈ s.imports) :
    importAt p i ∈ st'.loaded := by
  obtain ⟨s', hp⟩ := h.mem_loaded.mp hp
  obtain rfl : s = s' := by simpa [hs] using h.found _ hp
  exact h.loaded_of_marked hunique (h.imports _ hp i hi)

theorem Sourced.mem_functions (h : Sourced scripts fresh paths new st') {name : Text} :
    name ∈ st'.functions ↔ ∃ p s, p ∈ st'.loaded ∧ scripts p = some s ∧
      ∃ d ∈ s.definitions, name ∈ d.functionNames := by
  have hfunctions : name ∈ st'.functions ↔ ∃ x ∈ new, ∃ d ∈ x.2.definitions, name ∈ d.functionNames := by
    simp [h.functions, fresh]
  rw [hfunctions]
  constructor
  · rintro ⟨⟨p, s⟩, hx, hd⟩
    exact ⟨p, s, h.mem_loaded.mpr ⟨s, hx⟩, h.found _ hx, hd⟩
  · rintro ⟨p, s, hp, hs, hd⟩
    obtain ⟨s', hx⟩ := h.mem_loaded.mp hp
    obtain rfl : s = s' := by simpa [hs] using h.found _ hx
    exact ⟨_, hx, hd⟩

end

/-! ## Loading what a build has written -/

open Build

section

variable {t t' : FileTree} {entry target file : Path} {files : List Path} {s : Script}

/-- Where a build with imports puts the script of a file. -/
abbrev scriptOf (t : FileTree) (entry target file : Path) : Path :=
  scriptPath (entryLayout t entry) (target.resolve t.cwd) file

def placedScripts (t : FileTree) (entry target : Path) (files : List Path) (path : Path) : Option Script :=
  (files.find? (scriptOf t entry target · = path)).bind fun f =>
    (t.compile f (entryLayout t entry).root).toOption

/-- No two files that are reached have the same guard. -/
def DistinctGuards (t : FileTree) (entry : Path) : Prop :=
  ∀ f g, Reachable t entry f → Reachable t entry g →
    guardName ((entryLayout t entry).symbol f) = guardName ((entryLayout t entry).symbol g) → f = g

/-- The wrapper of every declaration of every file that is reached is defined. -/
def AllDefined (t : FileTree) (entry : Path) (st : Loading) : Prop :=
  ∀ f m kind name, Reachable t entry f → t.readModule f = .ok m → m.declares kind name = true →
    wrapperName ((entryLayout t entry).symbol f) kind name ∈ st.functions

/-- The file declares something whose wrapper no other file that is reached defines. -/
def HasOwnWrapper (t : FileTree) (entry file : Path) : Prop :=
  ∃ m kind name, t.readModule file = .ok m ∧ m.declares kind name = true ∧
    ∀ g s, Reachable t entry g → t.compile g (entryLayout t entry).root = .ok s → ∀ d ∈ s.definitions,
      wrapperName ((entryLayout t entry).symbol file) kind name ∈ d.functionNames → g = file

theorem script_of_compile (hf : SourcePath file) (h : t.compile file (entryLayout t entry).root = .ok s) :
    ∃ m, t.readModule file = .ok m ∧ s.guard = guardName ((entryLayout t entry).symbol file) ∧
      s.imports = m.imports.map (fun i =>
        (entryLayout t entry).importPath file (importedFile t.cwd file i.path)) ∧
      ∀ kind name, m.declares kind name = true →
        ∃ d ∈ s.definitions, d.symbol = wrapperName ((entryLayout t entry).symbol file) kind name := by
  have hlayout : (⟨t.cwd, (entryLayout t entry).root⟩ : Layout) = entryLayout t entry := rfl
  obtain ⟨m, hm, hfile, -, hscript⟩ := FileTree.compile_spec h
  rw [hf.resolve] at hm hfile
  obtain ⟨hguard, himports⟩ := Module.script_header hscript
  simp only [hfile, Layout.symbol_resolve, Layout.importPath_resolve, hlayout] at hguard himports
  refine ⟨m, hm, hguard, himports, fun kind name hdecl => ?_⟩
  obtain ⟨d, hmem, hsymbol⟩ := Module.definition_of_declares hscript hdecl
  rw [hfile, Layout.symbol_resolve, hlayout] at hsymbol
  exact ⟨d, hmem, hsymbol⟩

theorem importAt_scriptPath {layout : Layout} {f g : Path} (hf : Placed layout f) (hg : Placed layout g)
    (target cwd : Path) :
    importAt (scriptPath layout (target.resolve cwd) f) (layout.importPath f g) =
      scriptPath layout (target.resolve cwd) g := by
  obtain ⟨rooted, cs, hcs, hnormal, hroot⟩ := Path.resolve_ofParts target cwd
  rw [hroot]
  exact Layout.normalize_importPath hcs hnormal hf.names hf.ne_nil hg.names hg.ne_nil

variable (hd : DistinctOutputs t entry) (h : Compiled t entry (target.resolve t.cwd) t' files)
  (hfiles : ∀ f, f ∈ files ↔ Reachable t entry f)

include hd h hfiles

theorem placedScripts_iff {path : Path} :
    placedScripts t entry target files path = some s ↔
      ∃ f, Reachable t entry f ∧ scriptOf t entry target f = path ∧
        t.compile f (entryLayout t entry).root = .ok s := by
  rw [placedScripts, Option.bind_eq_some_iff]
  constructor
  · rintro ⟨f, hf, hs⟩
    exact ⟨f, h.reachable f (mem_of_find?_eq_some hf), by simpa using find?_some hf, of_toOption hs⟩
  · rintro ⟨f, hf, rfl, hs⟩
    rw [← hfiles] at hf
    cases hg : files.find? (scriptOf t entry target · = scriptOf t entry target f) with
    | none => simpa using find?_eq_none.mp hg f hf
    | some g =>
      have hpath : scriptOf t entry target g = scriptOf t entry target f := by
        simpa using find?_some hg
      obtain rfl := h.scriptPath_inj hd ((hfiles entry).mpr .entry) (mem_of_find?_eq_some hg) hf hpath
      exact ⟨g, rfl, by rw [hs]; rfl⟩

/-- The script of a file that is reached has the guard of the file, sources the scripts of the imports
and defines the wrappers. -/
theorem placed_spec {f : Path} (hf : Reachable t entry f) :
    ∃ s m, placedScripts t entry target files (scriptOf t entry target f) = some s ∧
      t.compile f (entryLayout t entry).root = .ok s ∧ t.readModule f = .ok m ∧
      s.guard = guardName ((entryLayout t entry).symbol f) ∧
      s.imports.map (importAt (scriptOf t entry target f)) =
        m.imports.map (fun i => scriptOf t entry target (importedFile t.cwd f i.path)) ∧
      ∀ kind name, m.declares kind name = true →
        ∃ d ∈ s.definitions, d.symbol = wrapperName ((entryLayout t entry).symbol f) kind name := by
  have he : entry ∈ files := (hfiles entry).mpr .entry
  have hmem := (hfiles f).mpr hf
  obtain ⟨s, hs, -⟩ := h.stored f hmem
  obtain ⟨m, hm, hguard, himports, hdefs⟩ := script_of_compile (h.source f hmem) hs
  refine ⟨s, m, (placedScripts_iff hd h hfiles).mpr ⟨f, hf, rfl, hs⟩, hs, hm, hguard, ?_, hdefs⟩
  rw [himports, map_map]
  refine map_congr_left fun i hi => ?_
  have hnext : importedFile t.cwd f i.path ∈ files := (hfiles _).mpr (.step hf hm hi)
  rw [Function.comp_apply, importAt_scriptPath (h.placed he hmem) (h.placed he hnext)]

theorem source_entry_ends :
    ∃ bound st new,
      (∀ fuel ≥ bound, source (placedScripts t entry target files) fuel fresh
        [scriptOf t entry target entry] = some st) ∧
      Sourced (placedScripts t entry target files) fresh [scriptOf t entry target entry] new st := by
  have hsome : ∀ f, Reachable t entry f →
      (placedScripts t entry target files (scriptOf t entry target f)).isSome := by
    intro f hf
    obtain ⟨s, m, hs, -⟩ := placed_spec hd h hfiles hf
    exact Option.isSome_of_eq_some hs
  refine source_ends (files.map fun f => guardName ((entryLayout t entry).symbol f)).toFinset ?_ fresh _
    (forall_mem_singleton.mpr (hsome entry .entry))
  intro path s hs
  obtain ⟨f, hf, rfl, -⟩ := (placedScripts_iff hd h hfiles).mp hs
  obtain ⟨s', m, hs', -, hm, hguard, himports, -⟩ := placed_spec hd h hfiles hf
  rw [hs] at hs'
  cases hs'
  refine ⟨by simpa [hguard] using ⟨f, (hfiles f).mpr hf, rfl⟩, fun i hi => ?_⟩
  have hi := mem_map_of_mem (f := importAt (scriptOf t entry target f)) hi
  rw [himports] at hi
  obtain ⟨j, hj, hp⟩ := mem_map.mp hi
  rw [← hp]
  exact hsome _ (.step hf hm hj)

variable {st : Loading} {new : List (Path × Script)}
  (hst : Sourced (placedScripts t entry target files) fresh [scriptOf t entry target entry] new st)

include hst

theorem loaded_iff_distinctGuards :
    (∀ f, Reachable t entry f → scriptOf t entry target f ∈ st.loaded) ↔ DistinctGuards t entry := by
  constructor
  · intro hall f g hf hg hguard
    obtain ⟨u, _, hu, _, _, hfu, -⟩ := placed_spec hd h hfiles hf
    obtain ⟨v, _, hv, _, _, hgv, -⟩ := placed_spec hd h hfiles hg
    have hpath := hst.eq_of_guard (hall f hf) (hall g hg) hu hv (by rw [hfu, hgv, hguard])
    exact h.scriptPath_inj hd ((hfiles entry).mpr .entry) ((hfiles f).mpr hf) ((hfiles g).mpr hg) hpath
  · intro hguards f hf
    have hunique : ∀ p q u v, placedScripts t entry target files p = some u →
        placedScripts t entry target files q = some v → u.guard = v.guard → p = q := by
      intro p q u v hu hv hguard
      obtain ⟨f, hf, rfl, -⟩ := (placedScripts_iff hd h hfiles).mp hu
      obtain ⟨g, hg, rfl, -⟩ := (placedScripts_iff hd h hfiles).mp hv
      obtain ⟨u', _, hu', _, _, hfu, -⟩ := placed_spec hd h hfiles hf
      obtain ⟨v', _, hv', _, _, hgv, -⟩ := placed_spec hd h hfiles hg
      rw [hu] at hu'
      rw [hv] at hv'
      cases hu'
      cases hv'
      rw [hguards f g hf hg (by rw [← hfu, ← hgv, hguard])]
    induction hf with
    | entry => exact hst.loaded_of_marked hunique (hst.marked _ (by simp))
    | @step file m i hf hm hi ih =>
      obtain ⟨s, m', hs, -, hm', -, himports, -⟩ := placed_spec hd h hfiles hf
      rw [hm] at hm'
      cases hm'
      have hi := mem_map_of_mem
        (f := fun i => scriptOf t entry target (importedFile t.cwd file i.path)) hi
      rw [← himports] at hi
      obtain ⟨j, hj, hp⟩ := mem_map.mp hi
      rw [← hp]
      exact hst.import_loaded hunique ih hs hj

theorem allDefined_of_distinctGuards (hguards : DistinctGuards t entry) : AllDefined t entry st := by
  intro f m kind name hf hm hdecl
  obtain ⟨s, m', hs, -, hm', -, -, hdefs⟩ := placed_spec hd h hfiles hf
  rw [hm] at hm'
  cases hm'
  obtain ⟨d, hmem, hsymbol⟩ := hdefs kind name hdecl
  have hloaded := (loaded_iff_distinctGuards hd h hfiles hst).mpr hguards f hf
  exact hst.mem_functions.mpr ⟨_, s, hloaded, hs, d, hmem, by simp [Definition.functionNames, hsymbol]⟩

/-- If everything is defined and each file defines something of its own, no two guards are the same. -/
theorem distinctGuards_of_allDefined (hown : ∀ f, Reachable t entry f → HasOwnWrapper t entry f)
    (hall : AllDefined t entry st) : DistinctGuards t entry := by
  refine (loaded_iff_distinctGuards hd h hfiles hst).mp fun f hf => ?_
  obtain ⟨m, kind, name, hm, hdecl, honly⟩ := hown f hf
  obtain ⟨p, s, hp, hs, d, hmem, hname⟩ := hst.mem_functions.mp (hall f m kind name hf hm hdecl)
  obtain ⟨g, hg, rfl, hc⟩ := (placedScripts_iff hd h hfiles).mp hs
  rwa [← honly g s hg hc d hmem hname]

end

/-- If no two outputs of a build with imports are the same, the script of the entry, sourced in a fresh
shell, ends on any import graph. It loads the scripts of all files just if their guards differ, and then
every wrapper is defined. Conversely, the guards differ if every wrapper is defined and each file has one of
its own. -/
theorem source_buildWithImports {t t' : FileTree} {entry target : Path} {outputs : List BuildOutput}
    {o : BuildOutput} (h : (buildWithImports entry target).run t = (.ok outputs, t')) (ho : o ∈ outputs)
    (hd : DistinctOutputs t (entry.resolve t.cwd)) :
    ∃ files bound st,
      (∀ f, f ∈ files ↔ Reachable t (entry.resolve t.cwd) f) ∧
      (∀ f ∈ files, ∃ s, t.compile f (entryLayout t (entry.resolve t.cwd)).root = .ok s ∧
        t'.readBytes (scriptOf t (entry.resolve t.cwd) target f) = .ok (Utf8.encode (s.text ++ "\n"))) ∧
      (∀ fuel ≥ bound, source (placedScripts t (entry.resolve t.cwd) target files) fuel fresh [o.output] =
        some st) ∧
      ((∀ f ∈ files, scriptOf t (entry.resolve t.cwd) target f ∈ st.loaded) ↔
        DistinctGuards t (entry.resolve t.cwd)) ∧
      (DistinctGuards t (entry.resolve t.cwd) → AllDefined t (entry.resolve t.cwd) st) ∧
      ((∀ f ∈ files, HasOwnWrapper t (entry.resolve t.cwd) f) → AllDefined t (entry.resolve t.cwd) st →
        DistinctGuards t (entry.resolve t.cwd)) := by
  obtain ⟨files, hc, hfiles, hout⟩ := buildWithImports_spec h ho hd
  obtain ⟨bound, st, new, hrun, hst⟩ := source_entry_ends hd hc hfiles
  refine ⟨files, bound, st, hfiles, fun f hf => ?_, ?_, ?_, allDefined_of_distinctGuards hd hc hfiles hst, ?_⟩
  · obtain ⟨s, hs, hstored⟩ := hc.stored f hf
    exact ⟨s, hs, hstored.readBytes⟩
  · rw [hout]
    exact hrun
  · rw [← loaded_iff_distinctGuards hd hc hfiles hst]
    simp only [hfiles]
  · simp only [hfiles]
    exact distinctGuards_of_allDefined hd hc hfiles hst

/-! ## Two imports -/

theorem exists_output (t : FileTree) (entry target : Path)
    (h : ((buildWithImports entry target).run t).1.toOption.any (!·.isEmpty) = true) :
    ∃ outputs t' o, (buildWithImports entry target).run t = (.ok outputs, t') ∧ o ∈ outputs := by
  obtain ⟨outputs, hsome, hne⟩ := (Option.any_eq_true _ _).mp h
  obtain ⟨o, ho⟩ := exists_mem_of_ne_nil outputs (by simpa using hne)
  exact ⟨outputs, _, o, Prod.ext (of_toOption hsome) rfl, ho⟩

theorem distinctGuards_of_closed {t : FileTree} {entry : Path} {files : List Path}
    (hc : Closed t files files) (he : entry ∈ files)
    (h : ∀ f ∈ files, ∀ g ∈ files, guardName ((entryLayout t entry).symbol f) =
      guardName ((entryLayout t entry).symbol g) → f = g) : DistinctGuards t entry :=
  fun f g hf hg => h f (mem_of_reachable hc he hf) g (mem_of_reachable hc he hg)

theorem hasOwnWrapper_of_closed {t : FileTree} {entry : Path} {files : List Path}
    (hc : Closed t files files) (he : entry ∈ files) (kind : Kind) (name : Path → Text)
    (hm : ∀ f ∈ files, (t.readModule f).toOption.any (·.declares kind (name f)) = true)
    (hown : ∀ g ∈ files, ∀ s ∈ (t.compile g (entryLayout t entry).root).toOption, ∀ d ∈ s.definitions,
      ∀ f ∈ files, wrapperName ((entryLayout t entry).symbol f) kind (name f) ∈ d.functionNames → g = f) :
    ∀ f ∈ files, HasOwnWrapper t entry f := by
  intro f hf
  obtain ⟨m, hread, hdecl⟩ := (Option.any_eq_true _ _).mp (hm f hf)
  refine ⟨m, kind, name f, of_toOption hread, hdecl, fun g s hg hs d hd => ?_⟩
  exact hown g (mem_of_reachable hc he hg) s (by rw [hs]; rfl) d hd f hf

/-- An entry with two imports, the first of which imports the entry again. -/
def pairTree (first second : Text) : FileTree where
  cwd := "/w"
  root := .dir [("w", .dir [
    ("main.jph", .file 0o644 (Utf8.encode ("import \"" ++ first ++ "\" as x\nimport \"" ++ second ++
      "\" as y\nworkflow default \x7b\n  run x.one\n  run y.two\n\x7d\n"))),
    (first ++ ".jph", .file 0o644 (Utf8.encode "import \"main\" as m\nworkflow one \x7b\n\x7d\n")),
    (second ++ ".jph", .file 0o644 (Utf8.encode "workflow two \x7b\n\x7d\n"))])]

def pairFiles (first second : Text) : List Path :=
  ["/w/main.jph", ⟨"/w/" ++ first ++ ".jph"⟩, ⟨"/w/" ++ second ++ ".jph"⟩]

/-- The build succeeds, the outputs differ, and sourcing ends in a state with the property. -/
def PairEnds (first second : Text) (p : Loading → Prop) : Prop :=
  ∃ outputs t' o files bound st,
    (buildWithImports "main.jph" "out").run (pairTree first second) = (.ok outputs, t') ∧ o ∈ outputs ∧
    DistinctOutputs (pairTree first second) "/w/main.jph" ∧
    (∀ fuel ≥ bound, source (placedScripts (pairTree first second) "/w/main.jph" "out" files) fuel fresh
      [o.output] = some st) ∧ p st

/-- Two imports are both loaded, but not if their names differ only in characters that a guard
replaces. -/
theorem pairTree_ends :
    PairEnds "a" "b" (AllDefined (pairTree "a" "b") "/w/main.jph") ∧
      PairEnds "a-b" "a_b" (fun st => ¬ AllDefined (pairTree "a-b" "a_b") "/w/main.jph" st) := by
  constructor
  · have hentry : Path.resolve "main.jph" (pairTree "a" "b").cwd = "/w/main.jph" := by decide +kernel
    have hc : Closed (pairTree "a" "b") (pairFiles "a" "b") (pairFiles "a" "b") := by decide +kernel
    have hin : ("/w/main.jph" : Path) ∈ pairFiles "a" "b" := by decide
    have hd := distinctOutputs_of_closed hc hin (by decide +kernel)
    have hg := distinctGuards_of_closed hc hin (by decide +kernel)
    obtain ⟨outputs, t', o, hrun, ho⟩ := exists_output (pairTree "a" "b") "main.jph" "out"
      (by decide +kernel)
    have hends := source_buildWithImports hrun ho (by rw [hentry]; exact hd)
    rw [hentry] at hends
    obtain ⟨files, bound, st, -, -, hsource, -, hall, -⟩ := hends
    exact ⟨outputs, t', o, files, bound, st, hrun, ho, hd, hsource, hall hg⟩
  · have hentry : Path.resolve "main.jph" (pairTree "a-b" "a_b").cwd = "/w/main.jph" := by decide +kernel
    have hc : Closed (pairTree "a-b" "a_b") (pairFiles "a-b" "a_b") (pairFiles "a-b" "a_b") := by
      decide +kernel
    have hin : ("/w/main.jph" : Path) ∈ pairFiles "a-b" "a_b" := by decide
    have hd := distinctOutputs_of_closed hc hin (by decide +kernel)
    have hown := hasOwnWrapper_of_closed hc hin .workflow
      (fun f => if f = "/w/main.jph" then "default" else if f = "/w/a-b.jph" then "one" else "two")
      (by decide +kernel) (by decide +kernel)
    obtain ⟨outputs, t', o, hrun, ho⟩ := exists_output (pairTree "a-b" "a_b") "main.jph" "out"
      (by decide +kernel)
    have hends := source_buildWithImports hrun ho (by rw [hentry]; exact hd)
    rw [hentry] at hends
    obtain ⟨files, bound, st, hfiles, -, hsource, -, -, hconv⟩ := hends
    refine ⟨outputs, t', o, files, bound, st, hrun, ho, hd, hsource, fun hall => ?_⟩
    have hguards := hconv (fun f hf => hown f (mem_of_reachable hc hin ((hfiles f).mp hf))) hall
    have hsame := hguards "/w/a-b.jph" "/w/a_b.jph" (reachable_of_import .entry (by decide +kernel))
      (reachable_of_import .entry (by decide +kernel)) (by decide +kernel)
    exact absurd hsame (by decide)

end Loading

end Runbook
