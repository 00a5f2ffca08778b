import Runbook.Proofs.Overwriting

/-!
# Following a path through directories

A path is followed part by part, each looked for in a directory. It is said here without the limits on
names, so that looking a path up and creating what it names can be compared.
-/

open List

namespace Runbook
open Component

theorem Component.ofSegment_cases (s : Text) :
    ofSegment s = none ∨ ofSegment s = some .up ∨ ofSegment s = some (.name s) := by
  simp only [ofSegment]
  split
  · exact .inl rfl
  · split
    · exact .inr (.inl rfl)
    · exact .inr (.inr rfl)

namespace Path

theorem bodyParts_text {p : Path} (h : p.isAbsolute = false) : bodyParts p.text = p.tailParts := by
  rcases lead_cases p.text with ⟨body, hb⟩ | hb | ⟨body, hb⟩ | ⟨h₁, h₂, h₃⟩
  · simp [isAbsolute, hb] at h
  · rw [tailParts, hb]
    rfl
  · rw [tailParts, hb]
    exact bodyParts_append_slash ['.'] body
  · rw [tailParts, split_other h₁ h₂ h₃]

theorem isAbsolute_of_components {p : Path} {cs : List Component} (h : p.components = .root :: cs) :
    p.isAbsolute = true := by
  rcases lead_cases p.text with ⟨body, hb⟩ | hb | ⟨body, hb⟩ | ⟨h₁, h₂, h₃⟩
  · simp [isAbsolute, hb]
  · simp [components_eq, hb, split] at h
  · simp [components_eq, hb, split] at h
  · rw [components_eq, split_other h₁ h₂ h₃] at h
    have hproper : root.Proper := proper_of_mem_bodyParts (h ▸ mem_cons_self)
    exact hproper.elim

theorem push_of_isAbsolute {q : Path} (h : q.isAbsolute = true) (p : Path) : p.push q.text = q := by
  obtain ⟨body, rfl⟩ := isAbsolute_iff.mp h
  rfl

theorem tailParts_anchored {names : List Text} (h : ∀ n ∈ names, IsName n) :
    (anchored false names).tailParts = names.map .name := by
  have habs : (anchored false names).components = anchor false names := components_anchored h
  rw [components_of_isAbsolute (isAbsolute_anchored false names)] at habs
  exact tail_eq_of_cons_eq habs

theorem tailParts_push {p : Path} (h : p.isAbsolute = true) {n : Text} (hn : IsName n) :
    (p.push n).tailParts = p.tailParts ++ [.name n] := by
  have hs : ofSegment n = some (.name n) := ofSegment_text (c := .name n) hn
  have hp := components_push hn.2.2.2 hn.2.1 p
  rw [components_of_isAbsolute (isAbsolute_push h n), components_of_isAbsolute h, hs] at hp
  exact tail_eq_of_cons_eq hp

theorem segments_push {p : Path} (h : p.isAbsolute = true) {n : Text} (hn : IsName n) :
    ∃ body before, (p.push n).text = '/' :: body ∧ segments body = before ++ [n] ∧
      before.filterMap ofSegment = p.tailParts := by
  obtain ⟨body, rfl⟩ := isAbsolute_iff.mp h
  have hhead : n.head? ≠ some '/' := fun he => hn.2.2.2 (mem_of_mem_head? he)
  have hlast : segments n = [n] := splitOn_eq_singleton hn.2.2.2
  have hcut : ∀ a, segments (a ++ '/' :: n) = segments a ++ [n] := fun a => by
    rw [segments, splitOn_append_cons_self]
    exact congrArg (segments a ++ ·) hlast
  by_cases hb : body = []
  · subst hb
    exact ⟨n, [], by simp [push, hhead], hlast, rfl⟩
  by_cases hs : body.getLast? = some '/'
  · -- the slash at the end separates the name, and nothing stands before it
    obtain ⟨shorter, rfl⟩ := getLast?_eq_some_iff.mp hs
    refine ⟨shorter ++ '/' :: n, segments shorter, ?_, hcut shorter, ?_⟩
    · simp [push, hhead, getLast?_cons]
    · have hparts := bodyParts_append_slash shorter []
      rw [bodyParts_nil, append_nil] at hparts
      exact hparts.symm
  · refine ⟨body ++ '/' :: n, segments body, ?_, hcut body, rfl⟩
    simp [push, hhead, getLast?_cons_of_ne_nil hb, hs]

end Path

namespace Node

def DirAt (r : Node) (place : Place) : Prop := ∃ children, r.get? place = some (.dir children)

/-- The parts lead from a directory to the one at the goal, through directories only. -/
inductive Leads (r : Node) (goal : Place) : Place → List Component → Prop
  | done (hd : r.DirAt goal) : Leads r goal goal []
  | up {start : Place} {rest : List Component} (hd : r.DirAt start)
      (h : Leads r goal start.dropLast rest) : Leads r goal start (.up :: rest)
  | down {start : Place} {n : Text} {rest : List Component} (hd : r.DirAt start)
      (h : Leads r goal (start ++ [n]) rest) : Leads r goal start (.name n :: rest)

section

variable {r r' : Node} {start goal place : Place} {cs : List Component}

theorem Leads.dirAt_start (h : Leads r goal start cs) : r.DirAt start := by
  cases h with
  | done hd => exact hd
  | up hd _ => exact hd
  | down hd _ => exact hd

theorem Leads.dirAt_goal (h : Leads r goal start cs) : r.DirAt goal := by
  induction h with
  | done hd => exact hd
  | up _ _ ih => exact ih
  | down _ _ ih => exact ih

theorem Leads.append {middle : Place} {ds : List Component} (h : Leads r middle start cs)
    (h' : Leads r goal middle ds) : Leads r goal start (cs ++ ds) := by
  induction h with
  | done _ => exact h'
  | up hd _ ih => exact .up hd ih
  | down hd _ ih => exact .down hd ih

theorem Leads.mono (h : Leads r goal start cs) (hdirs : ∀ place, r.DirAt place → r'.DirAt place) :
    Leads r' goal start cs := by
  induction h with
  | done hd => exact .done (hdirs _ hd)
  | up hd _ ih => exact .up (hdirs _ hd) ih
  | down hd _ ih => exact .down (hdirs _ hd) ih

/-- Names lead down to a directory, since everything above one is a directory. -/
theorem leads_names {names : List Text} (h : r.DirAt (start ++ names)) :
    Leads r (start ++ names) start (names.map .name) := by
  induction names generalizing start with
  | nil =>
    rw [append_nil] at h ⊢
    exact .done h
  | cons n rest ih =>
    obtain ⟨children, hd⟩ := h
    have hnext : start ++ n :: rest = start ++ [n] ++ rest := by simp
    refine .down (dir_of_get?_append hd) ?_
    rw [hnext]
    exact ih (hnext ▸ ⟨children, hd⟩)

end

end Node

namespace FileTree

open Node

section

variable {segments : List Text}
variable {r : Node} {start goal place : Place}

theorem walkStep_cases {segment : Text} {next : Place} (h : walkStep r place segment = .ok next) :
    r.DirAt place ∧ ((ofSegment segment = none ∧ next = place) ∨
      (ofSegment segment = some .up ∧ next = place.dropLast) ∨
      (ofSegment segment = some (.name segment) ∧ next = place ++ [segment])) := by
  simp only [walkStep] at h
  split at h
  · cases h
  · cases h
  · rename_i children hd
    refine ⟨⟨children, hd⟩, ?_⟩
    rcases ofSegment_cases segment with ho | ho | ho
    · simp only [ho] at h
      cases h
      exact .inl ⟨ho, rfl⟩
    · simp only [ho] at h
      cases h
      exact .inr (.inl ⟨ho, rfl⟩)
    · simp only [ho] at h
      split at h
      · cases h
      · cases h
        exact .inr (.inr ⟨ho, rfl⟩)

theorem leads_of_walk (h : walk r start segments = .ok goal) (hd : r.DirAt goal) :
    Leads r goal start (segments.filterMap ofSegment) := by
  induction segments generalizing start with
  | nil =>
    cases h
    exact .done hd
  | cons s rest ih =>
    obtain ⟨next, hs, hrest⟩ := of_bind_ok h
    have hnext := ih hrest
    obtain ⟨hstart, ⟨ho, rfl⟩ | ⟨ho, rfl⟩ | ⟨ho, rfl⟩⟩ := walkStep_cases hs
    · rwa [filterMap_cons_none ho]
    · rw [filterMap_cons_some ho]
      exact .up hstart hnext
    · rw [filterMap_cons_some ho]
      exact .down hstart hnext

theorem walk_of_leads (h : Leads r goal start (segments.filterMap ofSegment))
    (hw : walk r start segments = .ok place) : place = goal := by
  induction segments generalizing start with
  | nil =>
    cases h
    cases hw
    rfl
  | cons s rest ih =>
    obtain ⟨next, hs, hrest⟩ := of_bind_ok hw
    obtain ⟨-, ⟨ho, rfl⟩ | ⟨ho, rfl⟩ | ⟨ho, rfl⟩⟩ := walkStep_cases hs
    · rw [filterMap_cons_none ho] at h
      exact ih h hrest
    · rw [filterMap_cons_some ho] at h
      cases h with
      | up _ h => exact ih h hrest
    · rw [filterMap_cons_some ho] at h
      cases h with
      | down _ h => exact ih h hrest

theorem createAll_of_leads (h : Leads r goal start (segments.filterMap ofSegment)) (more : List Text)
    (hne : more ≠ []) : createAll r start (segments ++ more) = createAll r goal more := by
  induction segments generalizing start with
  | nil =>
    cases h
    rfl
  | cons s rest ih =>
    have hlast : (rest ++ more).isEmpty = false := by simp [hne]
    rw [cons_append, createAll, hlast]
    rcases ofSegment_cases s with ho | ho | ho
    · rw [filterMap_cons_none ho] at h
      simp only [createStep, ho]
      exact ih h
    · rw [filterMap_cons_some ho] at h
      cases h with
      | up _ h =>
        simp only [createStep, ho]
        exact ih h
    · rw [filterMap_cons_some ho] at h
      cases h with
      | down _ h =>
        obtain ⟨children, hd⟩ := Leads.dirAt_start h
        simp only [createStep, ho, text, hd]
        exact ih h

end

/-- Following the absolute path leads to the directory at the goal. -/
structure LeadsTo (t : FileTree) (p : Path) (goal : Place) : Prop where
  absolute : p.isAbsolute = true
  leads : Leads t.root goal [] p.tailParts

section

variable {t t' : FileTree} {p : Path} {goal place : Place} {n : Text}

theorem LeadsTo.mono (h : LeadsTo t p goal) (hdirs : ∀ place, t.root.DirAt place → t'.root.DirAt place) :
    LeadsTo t' p goal :=
  ⟨h.absolute, h.leads.mono hdirs⟩

theorem LeadsTo.push (h : LeadsTo t p goal) (hn : IsName n) (hd : t.root.DirAt (goal ++ [n])) :
    LeadsTo t (p.push n) (goal ++ [n]) := by
  refine ⟨Path.isAbsolute_push h.absolute n, ?_⟩
  rw [Path.tailParts_push h.absolute hn]
  exact h.leads.append (.down h.leads.dirAt_goal (.done hd))

theorem LeadsTo.locate_push (h : LeadsTo t p goal) (hn : IsName n) (hl : t.locate (p.push n) = .ok place) :
    place = goal ++ [n] := by
  obtain ⟨body, before, htext, hsegs, hparts⟩ := Path.segments_push h.absolute hn
  obtain ⟨-, ⟨body', htext', hw⟩ | ⟨-, hhead, -⟩⟩ := locate_iff.mp hl
  · rw [htext] at htext'
    cases htext'
    rw [hsegs, walk, foldlM_append] at hw
    obtain ⟨middle, hbefore, hlast⟩ := of_bind_ok hw
    obtain rfl : middle = goal := walk_of_leads (hparts ▸ h.leads) hbefore
    obtain ⟨next, hs, hdone⟩ := of_bind_ok hlast
    cases hdone
    exact ((walkStep_name hn).mp hs).2.2
  · simp [htext] at hhead

/-- Only the last segment can be new, so a failure leaves nothing behind. -/
theorem LeadsTo.createDirs_cases (h : LeadsTo t p goal) (hn : IsName n) :
    (∃ e, t.createDirs (p.push n) = .error (e, t)) ∨ ∃ r place, createStep true t.root goal n = .ok (r, place) ∧
      t.createDirs (p.push n) = .ok { t with root := r } := by
  obtain ⟨body, before, htext, hsegs, hparts⟩ := Path.segments_push h.absolute hn
  obtain ⟨e, hrun⟩ | ⟨hnil, -⟩ | ⟨start, body', hstart, hrun⟩ := FileTree.createDirs_cases (p.push n)
  · exact .inl ⟨e, hrun t⟩
  · simp [htext] at hnil
  · replace hrun := (hrun t).2
    rcases hstart with ⟨hbody, rfl⟩ | ⟨rfl, -, hhead, -⟩
    · rw [htext] at hbody
      cases hbody
      rw [hsegs, createAll_of_leads (hparts ▸ h.leads) [n] (by simp)] at hrun
      cases hstep : createStep true t.root goal n with
      | error e => exact .inl ⟨e, by rw [hrun, createAll, isEmpty_nil, hstep]; rfl⟩
      | ok next =>
        obtain ⟨r, place⟩ := next
        exact .inr ⟨r, place, rfl, by rw [hrun, createAll, isEmpty_nil, hstep]; rfl⟩
    · simp [htext] at hhead

theorem LeadsTo.createDirs_push (h : LeadsTo t p goal) (hn : IsName n)
    (hc : t.createDirs (p.push n) = .ok t') :
    (t.root.DirAt (goal ++ [n]) ∧ t' = t) ∨
      (t.root.get? (goal ++ [n]) = none ∧
        t' = { t with root := t.root.set (goal ++ [n]) (.dir []) }) := by
  have hs : ofSegment n = some (.name n) := ofSegment_text (c := .name n) hn
  obtain ⟨e, hrun⟩ | ⟨r, place, hstep, hrun⟩ := h.createDirs_cases hn
  · rw [hrun] at hc
    cases hc
  · rw [hrun] at hc
    cases hc
    simp only [createStep, hs] at hstep
    split at hstep
    · rename_i children hd
      cases hstep
      exact .inl ⟨⟨children, hd⟩, rfl⟩
    · cases hstep
    · rename_i hnone
      split at hstep
      · cases hstep
      · cases hstep
        exact .inr ⟨hnone, rfl⟩

/-- A path to a directory, seen from the root, leads to that directory. The current directory is
given by names only, as a system reports it. -/
theorem leadsTo_absolute {names : List Text} (hn : ∀ n ∈ names, IsName n)
    (hcwd : t.cwd = Path.anchored false names) (hl : t.locate p = .ok goal) (hd : t.root.DirAt goal) :
    LeadsTo t (Path.absolute t.cwd p) goal := by
  obtain ⟨-, ⟨body, htext, hw⟩ | ⟨hne, hhead, hw⟩⟩ := locate_iff.mp hl
  · have habs : p.isAbsolute = true := by simp [Path.isAbsolute, htext]
    have hparts := Path.components_absolute_of_isAbsolute habs t.cwd
    rw [Path.components_of_isAbsolute habs] at hparts
    have habs' := Path.isAbsolute_of_components hparts
    rw [Path.components_of_isAbsolute habs'] at hparts
    refine ⟨habs', ?_⟩
    rw [tail_eq_of_cons_eq hparts, Path.tailParts, htext]
    exact leads_of_walk hw hd
  · have hrel : p.isAbsolute = false := by simp [Path.isAbsolute, hhead]
    have hparts := Path.components_absolute_of_relative hne hrel t.cwd
    have habs' := Path.isAbsolute_of_components hparts
    rw [Path.components_of_isAbsolute habs'] at hparts
    refine ⟨habs', ?_⟩
    have hhere : Leads t.root goal names p.tailParts := by
      rw [hcwd, namesOf_anchored hn] at hw
      rw [← Path.bodyParts_text hrel]
      exact leads_of_walk hw hd
    have hroot : (Path.push "/" t.cwd.text).tailParts = names.map .name := by
      rw [hcwd, Path.push_of_isAbsolute (Path.isAbsolute_anchored false names), Path.tailParts_anchored hn]
    rw [tail_eq_of_cons_eq hparts, hroot]
    have hdown : Leads t.root ([] ++ names) [] (names.map .name) := leads_names hhere.dirAt_start
    exact hdown.append hhere

end

end FileTree

end Runbook
