import Scriptwright.Proofs.Project.Jobs
import Scriptwright.Proofs.Project.Targets
import Scriptwright.Proofs.Project.Work
import Scriptwright.Yaml.Load
import Mathlib.Data.List.Forall2

/-!
# Builds as jobs

A build that returns has done one job for each discovered file, first the documents and then the
others, and its report lists them in that order. The other way round, a build returns if its jobs
can be done. Both are about builds whose lint command, if there is one, leaves the files alone.
-/

namespace Scriptwright.Project

open Scriptwright.Project.Tree (Wrote around)

/-! ## Jobs of a build -/

section Jobs

variable [Loader]

def compileOctets (options : Script.Options) (tidying : Source.TidyOptions) (p : Path)
    (octets : ByteArray) :
    Logged Compiled :=
  (Logged.ofExcept (Tree.textOf octets)).bind (compileText options {} tidying (some p.text))

def compileJob (project : Project) (options : Script.Options) (tidying : Source.TidyOptions)
    (f : Located) : Job where
  source := f.path
  target := outputPath project f
  make octets :=
    (compileOctets options tidying f.path octets).outcome.toOption.map fun c => c.code.toUTF8

def copyJob (project : Project) (f : Located) : Job where
  source := f.path
  target := copyPath project f
  make := some

def jobs (project : Project) (options : Script.Options) (tidying : Source.TidyOptions)
    (found : Found) : List Job :=
  found.inputs.map (compileJob project options tidying) ++ found.others.map (copyJob project)

end Jobs

/-- The options of a build: whether it is strict may be given from outside. -/
def buildOptions (project : Project) (strict : Option Bool) : Script.Options :=
  { project.options with strict := strict.getD project.options.strict }

section Steps

variable [Loader] {project : Project} {options : Script.Options} {tidying : Source.TidyOptions}
  {f : Located} {w v : World} {t t' : Tree} {p : Path} {c : Compiled}

theorem compileFile_of_file {octets : ByteArray} (h : t.get? p = some (.file octets)) :
    compileFile options tidying t p = compileOctets options tidying p octets := by
  rw [compileFile, compileOctets, Tree.readText, Tree.read_eq_ok_iff.mpr h]
  rfl

theorem exists_file_of_compileFile (h : (compileFile options tidying t p).outcome = .ok c) :
    ∃ octets, t.get? p = some (.file octets) := by
  cases hread : t.read p with
  | ok octets => exact ⟨octets, Tree.read_eq_ok_iff.mp hread⟩
  | error e =>
    rw [compileFile, Tree.readText, hread] at h
    cases h

/-- A document that can be compiled after a file was written elsewhere was the same document before.
-/
theorem compileFile_of_wrote {target : Path} {octets : ByteArray}
    (hwrote : Wrote t target octets t') (hne : p ≠ target)
    (h : (compileFile options tidying t' p).outcome = .ok c) :
    (compileFile options tidying t p).outcome = .ok c := by
  obtain ⟨octets, hoctets⟩ := exists_file_of_compileFile h
  rwa [compileFile_of_file hoctets, ← compileFile_of_file (hwrote.file_of_ne hne hoctets)] at h

theorem compileFile_of_ensured {q : Path}
    (h : (compileFile options tidying (t.ensured q) p).outcome = .ok c) :
    (compileFile options tidying t p).outcome = .ok c := by
  obtain ⟨octets, hoctets⟩ := exists_file_of_compileFile h
  rwa [compileFile_of_file hoctets, ← compileFile_of_file (Tree.file_of_ensured hoctets)] at h

theorem make_compileJob_iff {octets made : ByteArray} (h : t.get? f.path = some (.file octets)) :
    (compileJob project options tidying f).make octets = some made ↔
      ∃ c, (compileFile options tidying t f.path).outcome = .ok c ∧ c.code.toUTF8 = made := by
  simp only [compileFile_of_file h, compileJob]
  cases (compileOctets options tidying f.path octets).outcome with
  | error e => exact ⟨nofun, nofun⟩
  | ok c => exact ⟨fun hmade => ⟨c, rfl, Option.some.inj hmade⟩, fun ⟨_, rfl, hmade⟩ =>
      congrArg some hmade⟩

theorem done_compileJob_iff (hne : f.path ≠ outputPath project f) :
    (compileJob project options tidying f).Done t t' ↔
      ∃ c, (compileFile options tidying t f.path).outcome = .ok c ∧
        Wrote t (outputPath project f) c.code.toUTF8 t' := by
  constructor
  · rintro ⟨-, octets, made, hoctets, hmade, hwrote⟩
    obtain ⟨c, hcompile, rfl⟩ := (make_compileJob_iff hoctets).mp hmade
    exact ⟨c, hcompile, hwrote⟩
  · rintro ⟨c, hcompile, hwrote⟩
    obtain ⟨octets, hoctets⟩ := exists_file_of_compileFile hcompile
    exact ⟨hne, octets, _, hoctets, (make_compileJob_iff hoctets).mpr ⟨c, hcompile, rfl⟩, hwrote⟩

/-! ## One document -/

theorem buildInput_returned {r : Path × List Script.Diagnostic × List Path} (hcalm : Calm project w)
    (h : (buildInput project options tidying f).run w = (.ok r, v)) :
    ∃ c, (compileFile options tidying w.tree f.path).outcome = .ok c ∧ r.1 = outputPath project f ∧
      r.2.1 = c.diagnostics ∧ Wrote w.tree (outputPath project f) c.code.toUTF8 v.tree ∧
      Lints project (outputPath project f) ∧ Calm project v := by
  rw [buildInput, Work.run_bind_of_ok (Work.run_get w), Work.run_bind_eq_ok_iff] at h
  obtain ⟨c, w₁, hcompile, h⟩ := h
  rw [Work.run_ofLogged] at hcompile
  obtain ⟨houtcome, hw₁⟩ := Prod.mk.inj hcompile
  obtain ⟨created, w₂, hensure, h⟩ := Work.run_bind_eq_ok_iff.mp h
  obtain ⟨hready, hw₂, hbehaviour₂⟩ := tree_of_run_ensureDirectory hensure
  obtain ⟨_, w₃, hchange, h⟩ := Work.run_bind_eq_ok_iff.mp h
  obtain ⟨t₃, hwrite, hw₃⟩ := Work.run_change_eq_ok_iff.mp hchange
  obtain ⟨_, w₄, hlint, h⟩ := Work.run_bind_eq_ok_iff.mp h
  obtain ⟨hlints, hlinted⟩ := lints_of_run_eq_ok hlint
  rw [Work.run_bind_of_ok (Work.run_say _ _ _ _)] at h
  cases h
  subst hw₁ hw₃
  have hwrote : Wrote w.tree (outputPath project f) c.code.toUTF8 t₃ :=
    Tree.wrote_iff.mpr ⟨hready, hw₂ ▸ hwrite⟩
  have hcalm₃ : Calm project { w₂ with tree := t₃ } := hcalm.kept hbehaviour₂ hwrote.isFile
  have htree : w₄.tree = t₃ := hlinted.tree_eq hcalm₃
  refine ⟨c, houtcome, rfl, rfl, ?_, hlints, ?_⟩
  · rwa [← htree] at hwrote
  · exact hcalm.kept (hlinted.behaviour.trans hbehaviour₂) fun hfile => htree ▸ hwrote.isFile hfile

theorem buildInput_returns (hcalm : Calm project w)
    (hcompile : (compileFile options tidying w.tree f.path).outcome = .ok c)
    (hwrote : Wrote w.tree (outputPath project f) c.code.toUTF8 t')
    (hlint : Lints project (outputPath project f)) :
    ∃ r v, (buildInput project options tidying f).run w = (.ok r, v) ∧ v.tree = t' := by
  obtain ⟨hready, hwrite⟩ := Tree.wrote_iff.mp hwrote
  rw [buildInput, Work.run_bind_of_ok (Work.run_get w),
    Work.run_bind_of_ok ((Work.run_ofLogged _ w).trans (by rw [hcompile]))]
  obtain ⟨created, w₂, hensure, hw₂, hbehaviour₂⟩ := exists_run_ensureDirectory
    (w := { w with log := w.log ++ (compileFile options tidying w.tree f.path).log }) hready
  have hchange : (Work.change fun t => t.write (outputPath project f) c.code.toUTF8).run w₂ =
      (.ok (), { w₂ with tree := t' }) :=
        Work.run_change_eq_ok_iff.mpr ⟨t', by rw [hw₂]; exact hwrite, rfl⟩
  have hcalm₃ : Calm project { w₂ with tree := t' } := hcalm.kept hbehaviour₂ hwrote.isFile
  obtain ⟨b, w₄, hrun, hlinted⟩ := exists_linted hlint { w₂ with tree := t' }
  simp only [Work.run_bind_of_ok hensure, Work.run_bind_of_ok hchange]
  exact ⟨_, _, (Work.run_bind_of_ok hrun).trans (Work.run_bind_of_ok (Work.run_say _ _ _ _)),
    hlinted.tree_eq hcalm₃⟩

end Steps

/-! ## One other file -/

section Others

variable {project : Project} {f : Located} {w v : World} {t' : Tree}

theorem buildOther_returned {r : Path × List Path} (h : (buildOther project f).run w = (.ok r, v)) :
    r.1 = copyPath project f ∧ (copyJob project f).Done w.tree v.tree := by
  obtain ⟨created, w₁, hensure, h⟩ := Work.run_bind_eq_ok_iff.mp h
  obtain ⟨hready, hw₁, -⟩ := tree_of_run_ensureDirectory hensure
  obtain ⟨_, w₂, hchange, h⟩ := Work.run_bind_eq_ok_iff.mp h
  obtain ⟨t₂, hcopy, hw₂⟩ := Work.run_change_eq_ok_iff.mp hchange
  rw [Work.run_bind_of_ok (Work.run_say _ _ _ _)] at h
  cases h
  subst hw₂
  obtain ⟨hapart, octets, hoctets, hwrite⟩ := Tree.copy_eq_ok_iff.mp hcopy
  rw [hw₁] at hoctets hwrite
  exact ⟨rfl, hapart, octets, octets, Tree.file_of_ensured hoctets, rfl,
    Tree.wrote_iff.mpr ⟨hready, hwrite⟩⟩

theorem buildOther_returns (h : (copyJob project f).Done w.tree t') :
    ∃ r v, (buildOther project f).run w = (.ok r, v) ∧ v.tree = t' := by
  obtain ⟨hapart, octets, made, hoctets, hmade, hwrote⟩ := h
  cases hmade
  obtain ⟨hready, hwrite⟩ := Tree.wrote_iff.mp hwrote
  obtain ⟨created, w₁, hensure, hw₁, -⟩ := exists_run_ensureDirectory hready
  have hcopy : w₁.tree.copy f.path (copyPath project f) = .ok t' := by
    rw [hw₁]
    exact Tree.copy_eq_ok_iff.mpr ⟨hapart, octets, Tree.get?_ensured_of_some hoctets, hwrite⟩
  have hchange : (Work.change fun t => t.copy f.path (copyPath project f)).run w₁ =
      (.ok (), { w₁ with tree := t' }) :=
    Work.run_change_eq_ok_iff.mpr ⟨t', hcopy, rfl⟩
  rw [buildOther]
  simp only [copyJob] at hensure
  simp only [Work.run_bind_of_ok hensure, Work.run_bind_of_ok hchange]
  exact ⟨_, _, Work.run_bind_of_ok (Work.run_say _ _ _ _), rfl⟩

end Others

/-! ## All files -/

def Documents (fs : List Located) : Prop :=
  ∀ f ∈ fs, isSource f.path = true ∧ f.path.within f.base = true

theorem Documents.notMem_outputPath {fs : List Located} (h : Documents fs)
    (project : Project) {p : Path} (hp : isSource p = true) : p ∉ fs.map (outputPath project) := by
  intro hmem
  obtain ⟨f, hf, heq⟩ := List.mem_map.mp hmem
  exact ne_outputPath project (h f hf).2 hp heq.symm

section Loops

variable [Loader] {project : Project} {options : Script.Options} {tidying : Source.TidyOptions}
  {fs : List Located} {w v : World} {t' : Tree}

theorem inputs_returned {rs : List (Path × List Script.Diagnostic × List Path)}
    (hcalm : Calm project w) (hfs : Documents fs)
    (h : (fs.mapM (buildInput project options tidying)).run w = (.ok rs, v)) :
    Works (fs.map (compileJob project options tidying)) w.tree v.tree ∧
      rs.map (·.1) = fs.map (outputPath project) ∧
      (∃ cs : List Compiled,
        List.Forall₂ (fun f c => (compileFile options tidying w.tree f.path).outcome =
          .ok c) fs cs ∧
          rs.flatMap (·.2.1) = cs.flatMap Compiled.diagnostics) ∧
      ∀ f ∈ fs, Lints project (outputPath project f) := by
  induction fs generalizing w rs with
  | nil =>
    cases h
    exact ⟨.nil _, rfl, ⟨[], .nil, rfl⟩, List.forall_mem_nil _⟩
  | cons f fs ih =>
    obtain ⟨⟨hsource, hwithin⟩, hrest⟩ := List.forall_mem_cons.mp hfs
    obtain ⟨r, u, rs, hfirst, hlater, rfl⟩ := Work.run_mapM_cons.mp h
    obtain ⟨c, hcompile, htarget, hdiagnostics, hwrote, hlint, hcalm'⟩ :=
      buildInput_returned hcalm hfirst
    obtain ⟨hworks, htargets, ⟨cs, hcs, hall⟩, hlints⟩ := ih hcalm' hrest hlater
    have hne := ne_outputPath project hwithin hsource
    refine ⟨.cons ((done_compileJob_iff hne).mpr ⟨c, hcompile, hwrote⟩) hworks, ?_,
      ⟨c :: cs, .cons hcompile ?_, ?_⟩, List.forall_mem_cons.mpr ⟨hlint, hlints⟩⟩
    · rw [List.map_cons, List.map_cons, htarget, htargets]
    · -- The target is no document, so the documents that follow are those of the beginning.
      refine ((List.forall₂_and_left fs cs).mpr ⟨hrest, hcs⟩).imp fun g c' hg => ?_
      exact compileFile_of_wrote hwrote (ne_outputPath project hwithin hg.1.1) hg.2
    · rw [List.flatMap_cons, List.flatMap_cons, hdiagnostics, hall]

theorem inputs_return (hcalm : Calm project w) (hfs : Documents fs)
    (hworks : Works (fs.map (compileJob project options tidying)) w.tree t')
    (hlint : ∀ f ∈ fs, Lints project (outputPath project f)) :
    ∃ rs v, (fs.mapM (buildInput project options tidying)).run w = (.ok rs, v) ∧ v.tree = t' := by
  induction fs generalizing w with
  | nil =>
    cases hworks
    exact ⟨[], w, rfl, rfl⟩
  | cons f fs ih =>
    obtain ⟨⟨hsource, hwithin⟩, hrest⟩ := List.forall_mem_cons.mp hfs
    obtain ⟨hfirst, hlater⟩ := List.forall_mem_cons.mp hlint
    cases hworks with
    | cons hdone hworks =>
      obtain ⟨c, hcompile, hwrote⟩ :=
        (done_compileJob_iff (ne_outputPath project hwithin hsource)).mp hdone
      obtain ⟨r, u, hrun, rfl⟩ := buildInput_returns hcalm hcompile hwrote hfirst
      obtain ⟨_, _, _, _, _, _, hcalm'⟩ := buildInput_returned hcalm hrun
      obtain ⟨rs, v, hruns, htree⟩ := ih hcalm' hrest hworks hlater
      exact ⟨r :: rs, v, Work.run_mapM_cons.mpr ⟨r, u, rs, hrun, hruns, rfl⟩, htree⟩

end Loops

section OtherLoops

variable {project : Project} {fs : List Located} {w v : World} {t' : Tree}

theorem others_returned {rs : List (Path × List Path)}
    (h : (fs.mapM (buildOther project)).run w = (.ok rs, v)) :
    Works (fs.map (copyJob project)) w.tree v.tree ∧ rs.map (·.1) = fs.map (copyPath project) := by
  induction fs generalizing w rs with
  | nil =>
    cases h
    exact ⟨.nil _, rfl⟩
  | cons f fs ih =>
    obtain ⟨r, u, rs, hfirst, hlater, rfl⟩ := Work.run_mapM_cons.mp h
    obtain ⟨htarget, hdone⟩ := buildOther_returned hfirst
    obtain ⟨hworks, htargets⟩ := ih hlater
    exact ⟨.cons hdone hworks, by rw [List.map_cons, List.map_cons, htarget, htargets]⟩

theorem others_return (hworks : Works (fs.map (copyJob project)) w.tree t') :
    ∃ rs v, (fs.mapM (buildOther project)).run w = (.ok rs, v) ∧ v.tree = t' := by
  induction fs generalizing w with
  | nil =>
    cases hworks
    exact ⟨[], w, rfl, rfl⟩
  | cons f fs ih =>
    cases hworks with
    | cons hdone hworks =>
      obtain ⟨r, u, hrun, rfl⟩ := buildOther_returns hdone
      obtain ⟨rs, v, hruns, htree⟩ := ih hworks
      exact ⟨r :: rs, v, Work.run_mapM_cons.mpr ⟨r, u, rs, hrun, hruns, rfl⟩, htree⟩

end OtherLoops

/-! ## The whole build -/

/-- What a build with documents has done when it returns. -/
structure Built [Loader] (project : Project) (tidying : Source.TidyOptions) (strict : Option Bool)
    (found : Found) (t t' : Tree) (r : BuildReport) : Prop where
  compiled : r.compiled = found.inputs.map fun f => (f.path, outputPath project f)
  copied : r.copied = found.others.map fun f => (f.path, copyPath project f)
  diagnostics : ∃ cs : List Compiled,
    List.Forall₂ (fun f c => (compileFile (buildOptions project strict) tidying t f.path).outcome =
      .ok c)
      found.inputs cs ∧ r.diagnostics = cs.flatMap Compiled.diagnostics
  ready : t.has project.output = true ∨ t.blocked project.output = false
  works : Works (jobs project (buildOptions project strict) tidying found)
    (t.ensured project.output) t'
  linted : ∀ f ∈ found.inputs, Lints project (outputPath project f)

section Whole

variable {project : Project} {tidying : Source.TidyOptions} {strict : Option Bool} {found : Found}
  {w v : World} {t' : Tree} {r : BuildReport}

theorem documents_of_discover {t : Tree} (h : discover project t = .ok found) :
    Documents found.inputs := fun _ hf =>
  ⟨isSource_of_mem_inputs h hf, within_base_of_mem_found h (List.mem_append_left _ hf)⟩

variable [Loader]

theorem build_returned (hcalm : Calm project w)
    (h : (build project tidying strict).run w = (.ok r, v)) :
    ∃ found, discover project w.tree = .ok found ∧
      (found.inputs = [] ∧ v.tree = w.tree ∧ r = ⟨[], [], [], []⟩ ∨
        found.inputs ≠ [] ∧ Built project tidying strict found w.tree v.tree r) := by
  rw [build, Work.run_bind_of_ok (Work.run_get w), Work.run_bind_eq_ok_iff] at h
  obtain ⟨found, w₁, hdiscover, h⟩ := h
  rw [Work.run_ofLogged] at hdiscover
  obtain ⟨hfound, rfl⟩ := Prod.mk.inj hdiscover
  refine ⟨found, hfound, ?_⟩
  by_cases hempty : found.inputs.isEmpty = true
  · rw [if_pos hempty, Work.run_bind_of_ok (Work.run_say _ _ _ _)] at h
    cases h
    exact Or.inl ⟨List.isEmpty_iff.mp hempty, rfl, rfl⟩
  · rw [if_neg hempty] at h
    obtain ⟨made, w₂, hensure, h⟩ := Work.run_bind_eq_ok_iff.mp h
    obtain ⟨hready, hw₂, hbehaviour₂⟩ := tree_of_run_ensureDirectory hensure
    have hcalm₂ : Calm project w₂ :=
      hcalm.kept hbehaviour₂ fun hfile => hw₂ ▸ Tree.isFile_ensured hfile
    obtain ⟨compiled, w₃, hinputs, h⟩ := Work.run_bind_eq_ok_iff.mp h
    obtain ⟨copied, w₄, hothers, h⟩ := Work.run_bind_eq_ok_iff.mp h
    cases h
    obtain ⟨hworks, htargets, ⟨cs, hcs, hdiagnostics⟩, hlint⟩ :=
      inputs_returned hcalm₂ (documents_of_discover hfound) hinputs
    obtain ⟨hworks', htargets'⟩ := others_returned hothers
    rw [hw₂] at hworks hcs
    refine Or.inr ⟨fun hnil => hempty (List.isEmpty_iff.mpr hnil), ?_, ?_,
      ⟨cs, hcs.imp fun _ _ hc => compileFile_of_ensured hc, hdiagnostics⟩, hready,
      hworks.append hworks', hlint⟩
    · simp only [htargets, List.zip_map']
    · simp only [htargets', List.zip_map']

theorem build_returns_of_no_inputs (hfound : discover project w.tree = .ok found)
    (hnil : found.inputs = []) :
    ∃ v, (build project tidying strict).run w = (.ok ⟨[], [], [], []⟩, v) ∧ v.tree = w.tree := by
  rw [build, Work.run_bind_of_ok (Work.run_get w),
    Work.run_bind_of_ok ((Work.run_ofLogged _ w).trans (by rw [Logged.ofExcept, hfound]))]
  simp only [List.isEmpty_iff.mpr hnil, if_true]
  exact ⟨_, Work.run_bind_of_ok (Work.run_say _ _ _ _), rfl⟩

theorem build_returns (hcalm : Calm project w) (hfound : discover project w.tree = .ok found)
    (hinputs : found.inputs ≠ [])
    (hready : w.tree.has project.output = true ∨ w.tree.blocked project.output = false)
    (hworks : Works (jobs project (buildOptions project strict) tidying found)
    (w.tree.ensured project.output) t') (hlint :
    ∀ f ∈ found.inputs, Lints project (outputPath project f)) :
    ∃ r v, (build project tidying strict).run w = (.ok r, v) ∧ v.tree = t' := by
  obtain ⟨t₁, hcompile, hcopy⟩ := hworks.exists_of_append
  rw [build, Work.run_bind_of_ok (Work.run_get w),
    Work.run_bind_of_ok ((Work.run_ofLogged _ w).trans (by rw [Logged.ofExcept, hfound]))]
  obtain ⟨made, w₂, hensure, hw₂, hbehaviour₂⟩ :=
    exists_run_ensureDirectory (w := { w with log := w.log ++ [] }) hready
  have hcalm₂ : Calm project w₂ :=
    hcalm.kept hbehaviour₂ fun hfile => hw₂ ▸ Tree.isFile_ensured hfile
  rw [← hw₂] at hcompile
  obtain ⟨rs, w₃, hinputsRun, rfl⟩ :=
    inputs_return hcalm₂ (documents_of_discover hfound) hcompile hlint
  obtain ⟨rs', w₄, hothersRun, rfl⟩ := others_return hcopy
  rw [if_neg (by simpa using hinputs)]
  exact ⟨_, w₄, (Work.run_bind_of_ok hensure).trans ((Work.run_bind_of_ok hinputsRun).trans
    ((Work.run_bind_of_ok hothersRun).trans rfl)), rfl⟩

end Whole

/-! ## Projects in `/app` -/

def inApp (names : List String) : Path := ⟨1, "app" :: names⟩

def appProject (entry : List Path) (output : Path) : Project where
  root := inApp []
  manifest := inApp [manifestName]
  entry
  output
  dependencies := []
  lint := .null
  install := .null
  options := {}
  raw := .null

/-- A world that holds `/app` and the given items. -/
def appWorld (items : Tree) : World where
  tree := (⟨1, []⟩, .directory) :: (inApp [], .directory) :: items
  log := []
  runs := []
  behaviour := .missing

end Scriptwright.Project
