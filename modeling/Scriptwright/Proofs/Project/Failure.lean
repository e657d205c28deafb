import Scriptwright.Proofs.Project.Contents

/-!
# Builds that fail

A document that cannot be compiled stops a build. What was compiled before it stays, nothing is
copied, and apart from the targets of the documents before it the tree has only new directories. A
new directory can lie at the target of a document that was not reached: the target of an earlier
document may lie below it.
-/

namespace Scriptwright.Project

open Scriptwright.Project.Tree (around)

section Steps

variable {project : Project} {options : Script.Options} {tidying : Source.TidyOptions} {f : Located}
  {w v : World} {e : Failure}

/-! ## One file -/

theorem failsOnFiles_runLint (hlint : project.lint.truthy = false) (target : Path) :
    Work.FailsOnFiles (runLint project target) := by
  intro w e v h
  have hlints : Lints project target :=
    ⟨none, lintCommand_of_not_truthy hlint target, fun _ hargv => by cases hargv⟩
  obtain ⟨b, u, hrun, -⟩ := exists_linted hlints w
  rw [h] at hrun
  cases hrun

theorem failsOnFiles_buildOther (project : Project) (f : Located) :
    Work.FailsOnFiles (buildOther project f) :=
  (failsOnFiles_ensureDirectory _).bind fun _ => (Work.failsOnFiles_change _).bind fun _ =>
    (Work.failsOnFiles_say _ _ _).bind fun _ => Work.failsOnFiles_pure _

variable [Loader]

/-- A document fails because it cannot be compiled, before anything is made for it, or because of an
operation on files. -/
theorem buildInput_failed (hlint : project.lint.truthy = false)
    (h : (buildInput project options tidying f).run w = (.error e, v)) (he : ∀ s, e ≠ .system s) :
    (compileFile options tidying w.tree f.path).outcome = .error e ∧ v.tree = w.tree := by
  rw [buildInput, Work.run_bind_of_ok (Work.run_get w), Work.run_bind_eq_error_iff,
    Work.run_ofLogged] at h
  rcases h with h | ⟨c, u, -, h⟩
  · obtain ⟨houtcome, rfl⟩ := Prod.mk.inj h
    exact ⟨houtcome, rfl⟩
  · have hfiles : ∃ s, e = .system s :=
      ((failsOnFiles_ensureDirectory _).bind fun _ => (Work.failsOnFiles_change _).bind fun _ =>
        (failsOnFiles_runLint hlint _).bind fun _ => (Work.failsOnFiles_say _ _ _).bind fun _ =>
          Work.failsOnFiles_pure _) u e v h
    obtain ⟨s, hs⟩ := hfiles
    exact absurd hs (he s)

/-! ## All documents -/

/-- Documents that fail have been compiled up to one that cannot be. -/
theorem inputs_failed {fs : List Located} (hlint : project.lint.truthy = false) (hfs : Documents fs)
    (h : (fs.mapM (buildInput project options tidying)).run w = (.error e, v))
    (he : ∀ s, e ≠ .system s) :
    ∃ before input after, fs = before ++ input :: after ∧
      Works (before.map (compileJob project options tidying)) w.tree v.tree ∧
      (compileFile options tidying v.tree input.path).outcome = .error e := by
  induction fs generalizing w with
  | nil => cases h
  | cons f fs ih =>
    obtain ⟨⟨hsource, hwithin⟩, hrest⟩ := List.forall_mem_cons.mp hfs
    rw [List.mapM_cons, Work.run_bind_eq_error_iff] at h
    rcases h with h | ⟨r, u, hfirst, h⟩
    · obtain ⟨hcompile, htree⟩ := buildInput_failed hlint h he
      rw [← htree] at hcompile
      exact ⟨[], f, fs, rfl, htree ▸ .nil _, hcompile⟩
    · obtain ⟨c, hcompile, -, -, hwrote, -⟩ := buildInput_returned (.inl hlint) hfirst
      have hlater : (fs.mapM (buildInput project options tidying)).run u = (.error e, v) := by
        rcases Work.run_bind_eq_error_iff.mp h with h | ⟨rs, s, -, h⟩
        · exact h
        · cases h
      obtain ⟨before, input, after, rfl, hworks, hfailed⟩ := ih hrest hlater
      have hdone := (done_compileJob_iff (ne_outputPath project hwithin hsource)).mpr
        ⟨c, hcompile, hwrote⟩
      exact ⟨f :: before, input, after, rfl, .cons hdone hworks, hfailed⟩

end Steps

/-! ## The whole build -/

section Whole

variable {project : Project} {tidying : Source.TidyOptions} {strict : Option Bool} {found : Found}
  {w v : World} {e : Failure}

theorem exists_missing_of_discover {t : Tree} (h : discover project t = .error e) :
    ∃ entry ∈ project.entry, t.has entry = false ∧ e = .error (entryNotFound entry) := by
  rw [discover] at h
  cases hmissing : project.entry.find? fun entry => !t.has entry with
  | none =>
    rw [hmissing] at h
    cases h
  | some entry =>
    rw [hmissing] at h
    cases h
    exact ⟨entry, List.mem_of_find?_eq_some hmissing, by simpa using List.find?_some hmissing, rfl⟩

variable [Loader]

theorem run_build_of_discover_error (h : discover project w.tree = .error e) :
    ∃ u, (build project tidying strict).run w = (.error e, u) ∧ u.tree = w.tree := by
  rw [build, Work.run_bind_of_ok (Work.run_get w), Work.run_bind, Work.run_ofLogged,
    Logged.ofExcept, h]
  exact ⟨_, rfl, rfl⟩

theorem build_failed (hlint : project.lint.truthy = false)
    (hfound : discover project w.tree = .ok found)
    (h : (build project tidying strict).run w = (.error e, v)) (he : ∀ s, e ≠ .system s) :
    ∃ before input after, found.inputs = before ++ input :: after ∧
      Works (before.map (compileJob project (buildOptions project strict) tidying))
        (w.tree.ensured project.output)
        v.tree ∧
      (compileFile (buildOptions project strict) tidying v.tree input.path).outcome = .error e := by
  rw [build, Work.run_bind_of_ok (Work.run_get w),
    Work.run_bind_of_ok ((Work.run_ofLogged _ w).trans (by rw [Logged.ofExcept, hfound]))] at h
  by_cases hempty : found.inputs.isEmpty = true
  · rw [if_pos hempty, Work.run_bind_of_ok (Work.run_say _ _ _ _)] at h
    cases h
  · rw [if_neg hempty] at h
    rcases Work.run_bind_eq_error_iff.mp h with h | ⟨made, u, hensure, h⟩
    · obtain ⟨s, hs⟩ := failsOnFiles_ensureDirectory _ _ _ _ h
      exact absurd hs (he s)
    · rw [← (tree_of_run_ensureDirectory hensure).2.1]
      rcases Work.run_bind_eq_error_iff.mp h with h | ⟨rs, s, -, h⟩
      · exact inputs_failed hlint (documents_of_discover hfound) h he
      · -- Once every document is compiled only copying is left.
        have hcopy : Work.FailsOnFiles (found.others.mapM (buildOther project)) :=
          Work.failsOnFiles_mapM fun g _ => failsOnFiles_buildOther project g
        obtain ⟨n, hn⟩ := (hcopy.bind fun _ => Work.failsOnFiles_pure _) _ _ _ h
        exact absurd hn (he n)

/-- What a build has done that was stopped after some documents: each of them is compiled, and
elsewhere there are at most new directories, for the output or around a target. -/
structure Stopped (project : Project) (options : Script.Options) (tidying : Source.TidyOptions)
    (before : List Located) (t t' : Tree) : Prop where
  compiled : ∀ f ∈ before, ∃ c, (compileFile options tidying t f.path).outcome = .ok c ∧
    t'.get? (outputPath project f) = some (.file c.code.toUTF8)
  elsewhere : ∀ p ∉ before.map (outputPath project), t'.get? p = t.get? p ∨
    t.get? p = none ∧ t'.get? p = some .directory ∧
      (project.output.within p = true ∨ ∃ f ∈ before, (outputPath project f).below p = true)

theorem Stopped.of_works {options : Script.Options} {before : List Located} {t t' : Tree}
    (hbefore : Documents before) (hdistinct : (before.map (outputPath project)).Nodup)
    (h : Works (before.map (compileJob project options tidying)) (t.ensured project.output) t') :
    Stopped project options tidying before t t' := by
  refine ⟨fun f hf => ?_, fun p hp => ?_⟩
  · obtain ⟨earlier, later, rfl⟩ := List.append_of_mem hf
    rw [List.map_append, List.map_cons] at h hdistinct
    have hlast : outputPath project f ∉ later.map (outputPath project) :=
      (List.nodup_cons.mp (List.nodup_append.mp hdistinct).2.1).1
    have hearlier : Documents earlier := fun g hg => hbefore g (by simp [hg])
    have hsource : f.path ∉ earlier.map (outputPath project) :=
      hearlier.notMem_outputPath project (hbefore f hf).1
    obtain ⟨octets, made, hoctets, hmade, htarget⟩ :=
      h.get?_target (by rwa [targets_compileJob]) (by rwa [targets_compileJob])
    obtain ⟨c, hcompile, rfl⟩ := (make_compileJob_iff (Tree.file_of_ensured hoctets)).mp hmade
    exact ⟨c, hcompile, htarget⟩
  · have hnot : p ∉ targets (before.map (compileJob project options tidying)) :=
      by rwa [targets_compileJob]
    rcases Tree.get?_ensured t project.output p with hsame | ⟨hnone, hmade, hmem⟩
    · rw [← hsame]
      rcases h.get?_of_notMem hnot with hkept | ⟨hnone, hmade, q, hq, haround⟩
      · exact Or.inl hkept
      · rw [targets_compileJob] at hq
        obtain ⟨f, hf, rfl⟩ := List.mem_map.mp hq
        exact Or.inr ⟨hnone, hmade, Or.inr ⟨f, hf, Path.mem_around_iff_below.mp haround⟩⟩
    · refine Or.inr ⟨hnone, h.kept hnot hmade, Or.inl ?_⟩
      rcases List.mem_append.mp hmem with haround | hself
      · exact (Path.below_iff.mp (Path.mem_around_iff_below.mp haround)).1
      · rw [List.mem_singleton.mp hself]
        exact Path.within_refl _

/-- The target of a document that was not reached is as it was, unless an earlier target lies below
it. -/
theorem Stopped.target {options : Script.Options} {before : List Located} {f : Located}
    {t t' : Tree} (h : Stopped project options tidying before t t')
    (hf : f.path.within f.base = true)
    (hnot : outputPath project f ∉ before.map (outputPath project)) :
    t'.get? (outputPath project f) = t.get? (outputPath project f) ∨
      t.get? (outputPath project f) = none ∧ t'.get? (outputPath project f) = some .directory ∧
        ∃ g ∈ before, (outputPath project g).below (outputPath project f) = true := by
  rcases h.elsewhere _ hnot with hsame | ⟨hnone, hmade, hwithin | hbelow⟩
  · exact Or.inl hsame
  · have hlonger := (Path.below_iff.mp (below_outputPath project hf)).2
    have hshorter := (Path.within_iff.mp hwithin).2.length_le
    omega
  · exact Or.inr ⟨hnone, hmade, hbelow⟩

/-- A document is read as it was before the build, also when others have been compiled. -/
theorem compileFile_of_works {options : Script.Options} {before : List Located} {f : Located}
    {t t' : Tree} (h : Works (before.map (compileJob project options tidying))
      (t.ensured project.output) t')
    (hbefore : Documents before) (hsource : isSource f.path = true)
    (hfile : t.isFile f.path = true) :
    compileFile options tidying t' f.path = compileFile options tidying t f.path := by
  obtain ⟨octets, hoctets⟩ := Tree.isFile_iff.mp hfile
  have hnot : f.path ∉ targets (before.map (compileJob project options tidying)) := by
    rw [targets_compileJob]
    exact hbefore.notMem_outputPath project hsource
  rw [compileFile_of_file hoctets,
    compileFile_of_file (h.kept hnot (Tree.get?_ensured_of_some hoctets))]

/-- A build whose discovery fails leaves the tree as it was. A build without a lint command and with
distinct targets that fails otherwise than on files stops at the first document that cannot be
compiled. -/
theorem stopped_of_build_eq_error (project : Project) (tidying : Source.TidyOptions)
    (strict : Option Bool) (w : World) :
    (∀ e, discover project w.tree = .error e →
      (∃ entry ∈ project.entry, w.tree.has entry = false ∧ e = .error (entryNotFound entry)) ∧
      ∃ v, (build project tidying strict).run w = (.error e, v) ∧ v.tree = w.tree) ∧
    ∀ found e v, discover project w.tree = .ok found → project.lint.truthy = false →
      (found.inputs.map (outputPath project)).Nodup → (∀ s, e ≠ .system s) →
      (build project tidying strict).run w = (.error e, v) →
      ∃ before input after, found.inputs = before ++ input :: after ∧
        (compileFile (buildOptions project strict) tidying w.tree input.path).outcome = .error e ∧
        Stopped project (buildOptions project strict) tidying before w.tree v.tree ∧
        ∀ f ∈ input :: after, v.tree.get? (outputPath project f) = w.tree.get?
          (outputPath project f) ∨
          w.tree.get? (outputPath project f) = none ∧
            v.tree.get? (outputPath project f) = some .directory ∧
            ∃ g ∈ before, (outputPath project g).below (outputPath project f) = true := by
  refine ⟨fun e h => ⟨exists_missing_of_discover h, run_build_of_discover_error h⟩, ?_⟩
  intro found e v hfound hlint hdistinct he hbuild
  obtain ⟨before, input, after, hinputs, hworks, hfailed⟩ := build_failed hlint hfound hbuild he
  have hdocuments : Documents (before ++ input :: after) := hinputs ▸ documents_of_discover hfound
  have hbefore : Documents before := fun f hf => hdocuments f (List.mem_append_left _ hf)
  rw [hinputs, List.map_append] at hdistinct
  obtain ⟨hnodup, -, hapart⟩ := List.nodup_append.mp hdistinct
  have hstopped := Stopped.of_works hbefore hnodup hworks
  refine ⟨before, input, after, hinputs, ?_, hstopped, fun f hf =>
    hstopped.target ?_ fun hmem => ?_⟩
  · have hfile : w.tree.isFile input.path = true := isFile_of_mem_found hfound (by simp [hinputs])
    rwa [compileFile_of_works hworks hbefore (hdocuments input (by simp)).1 hfile] at hfailed
  · exact (hdocuments f (List.mem_append_right _ hf)).2
  · exact hapart _ hmem _ (List.mem_map_of_mem hf) rfl

end Whole

/-! ## A project in `/app` -/

/-- A project with a document that is not text, after one whose target lies below the place of its
own target. -/
def nested : Project := appProject [inApp ["lib"], inApp ["a.yml"]] (inApp ["dist"])

def nestedWorld : World :=
  appWorld [(inApp ["lib"], .directory), (inApp ["lib", "a.js"], .directory),
    (inApp ["lib", "a.js", "x.yml"], .file .empty), (inApp ["a.yml"], .file ⟨#[0xff]⟩)]

theorem discover_nested : discover nested nestedWorld.tree =
    .ok ⟨[⟨inApp ["lib", "a.js", "x.yml"], inApp ["lib"]⟩, ⟨inApp ["a.yml"], inApp []⟩], []⟩ :=
  discover_eq_ok_iff.mpr (by decide +kernel)

theorem nodup_targets_nested :
    (List.map (outputPath nested)
      [⟨inApp ["lib", "a.js", "x.yml"], inApp ["lib"]⟩, ⟨inApp ["a.yml"], inApp []⟩]).Nodup := by
  decide +kernel

theorem run_nested :
    (build nested {} none).run nestedWorld =
      (.error .notText, ((build nested {} none).run nestedWorld).2) := by
  have hfails : ((build nested {} none).run nestedWorld).1 = .error .notText := by
    with_unfolding_all rfl
  exact Prod.ext hfails rfl

theorem stopped_of_build_eq_error_nested :
    (∃ e v, discover (appProject [inApp ["src"]] (inApp ["dist"])) (appWorld []).tree = .error e ∧
      (build (appProject [inApp ["src"]] (inApp ["dist"])) {} none).run (appWorld []) =
        (.error e, v) ∧
      v.tree = (appWorld []).tree) ∧
    ∃ found v before input after, discover nested nestedWorld.tree = .ok found ∧
      (build nested {} none).run nestedWorld = (.error .notText, v) ∧
        found.inputs = before ++ input :: after ∧
      (compileFile (buildOptions nested none) {} nestedWorld.tree input.path).outcome =
        .error .notText ∧
      Stopped nested (buildOptions nested none) {} before nestedWorld.tree v.tree := by
  refine ⟨?_, ?_⟩
  · have hmissing : discover (appProject [inApp ["src"]] (inApp ["dist"])) (appWorld []).tree =
        .error (.error (entryNotFound (inApp ["src"]))) := rfl
    obtain ⟨-, v, hrun, htree⟩ := (stopped_of_build_eq_error _ {} none _).1 _ hmissing
    exact ⟨_, v, hmissing, hrun, htree⟩
  · obtain ⟨before, input, after, hinputs, hfails, hstopped, -⟩ :=
      (stopped_of_build_eq_error nested {} none nestedWorld).2 _
        .notText _ discover_nested rfl nodup_targets_nested
        nofun run_nested
    exact ⟨_, _, before, input, after, discover_nested, run_nested, hinputs, hfails, hstopped⟩

/-- The target of the document that fails is not as it was: a directory has been made there. -/
theorem build_makes_directory_at_target :
    ∃ found v before input, discover nested nestedWorld.tree = .ok found ∧
      (found.inputs.map (outputPath nested)).Nodup ∧ found.inputs = before ++ [input] ∧
      (build nested {} none).run nestedWorld = (.error .notText, v) ∧
      (compileFile (buildOptions nested none)
        {} nestedWorld.tree input.path).outcome.toOption.isNone = true ∧
      nestedWorld.tree.get? (outputPath nested input) = none ∧
      v.tree.get? (outputPath nested input) = some .directory := by
  refine ⟨_, _, [⟨inApp ["lib", "a.js", "x.yml"], inApp ["lib"]⟩], ⟨inApp ["a.yml"], inApp []⟩,
    discover_nested, nodup_targets_nested, rfl, run_nested, ?_⟩
  decide +kernel

end Scriptwright.Project
