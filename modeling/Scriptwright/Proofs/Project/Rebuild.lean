import Scriptwright.Proofs.Project.Confined
import Scriptwright.Proofs.Project.Contents

/-!
# Building again

A second build sees what the first one wrote. It finds the same files if no new file lies below an
entry, and then it has the same jobs. They change nothing if every copied file was as it is now when
it was copied.
-/

namespace Scriptwright.Project

/-! ## The second discovery -/

theorem filesBelow_eq {t t' : Tree} {e : Path} (hpaths : t.paths <+: t'.paths)
    (hnodup : t'.paths.Nodup) (hkept : ∀ p, t.has p = true → t'.isFile p = t.isFile p)
    (hnew : ∀ p, t.has p = false → t'.isFile p = true → p.below e = false) :
    t'.filesBelow e = t.filesBelow e := by
  obtain ⟨new, happend⟩ := hpaths
  rw [Tree.filesBelow, Tree.filesBelow, ← Tree.paths, ← Tree.paths, ← happend, List.filter_append]
  rw [← happend] at hnodup
  have hold : t.paths.filter (fun p => p.below e && t'.isFile p) = t.paths.filter fun p =>
      p.below e && t.isFile p := by
    apply List.filter_congr
    intro p hp
    rw [hkept p (Tree.has_iff_mem_paths.mpr hp)]
  have hnone : new.filter (fun p => p.below e && t'.isFile p) = [] := by
    rw [List.filter_eq_nil_iff]
    intro p hp hboth
    obtain ⟨hbelow, hfile⟩ := Bool.and_eq_true_iff.mp hboth
    have habsent : t.has p = false := Bool.eq_false_iff.mpr fun hhas =>
      (List.nodup_append.mp hnodup).2.2 p (Tree.has_iff_mem_paths.mp hhas) p hp rfl
    rw [hnew p habsent hfile] at hbelow
    cases hbelow
  rw [hold, hnone, List.append_nil]

theorem discover_eq {project : Project} {t t' : Tree} {found : Found}
    (h : discover project t = .ok found) (hpaths : t.paths <+: t'.paths) (hnodup : t'.paths.Nodup)
    (hkept : ∀ p, t.has p = true → t'.isDirectory p = t.isDirectory p ∧ t'.isFile p = t.isFile p)
    (hnew : ∀ p, t.has p = false → t'.isFile p = true →
      ∀ e ∈ project.entry, t.isDirectory e = true → p.below e = false) :
    discover project t' = .ok found := by
  obtain ⟨hentries, hinputs, hothers⟩ := discover_eq_ok_iff.mp h
  have hcandidates : project.entry.flatMap (candidates t') =
      project.entry.flatMap (candidates t) := by
    rw [List.flatMap_def, List.flatMap_def]
    congr 1
    apply List.map_congr_left
    intro e he
    rw [candidates, candidates, (hkept e (hentries e he)).1]
    by_cases hdirectory : t.isDirectory e = true
    · rw [if_pos hdirectory, if_pos hdirectory,
        filesBelow_eq hpaths hnodup (fun p hp => (hkept p hp).2) fun p hp hfile =>
          hnew p hp hfile e he hdirectory]
    · rw [if_neg hdirectory, if_neg hdirectory]
  rw [discover_eq_ok_iff, hcandidates]
  refine ⟨fun e he => ?_, hinputs, hothers⟩
  exact Tree.has_iff_mem_paths.mpr (hpaths.subset (Tree.has_iff_mem_paths.mp (hentries e he)))

/-! ## The second build -/

theorem exists_append_of_notMem {α : Type} {as bs cs ds : List α} {a : α}
    (h : as ++ bs = cs ++ a :: ds) (ha : a ∉ as) :
    ∃ ms, cs = as ++ ms ∧ bs = ms ++ a :: ds := by
  rcases List.append_eq_append_iff.mp h with hlate | ⟨ms, has, hrest⟩
  · exact hlate
  · cases ms with
    | nil => exact ⟨[], by simpa using has.symm, by simpa using hrest.symm⟩
    | cons b ms =>
      rw [has, (List.cons.inj hrest).1] at ha
      simp at ha

section Builds

variable {project : Project} {tidying : Source.TidyOptions} {strict : Option Bool} {found : Found}
  {w v : World} {t t' : Tree} {r : BuildReport}

theorem Confined.get?_document (h : Confined project.output t t')
    (hfound : discover project t = .ok found) {f : Located} (hf : f ∈ found.inputs) :
    t'.get? f.path = (t.ensured project.output).get? f.path := by
  have hfile := isFile_of_mem_found hfound (List.mem_append_left _ hf)
  obtain ⟨octets, hoctets⟩ := Tree.isFile_iff.mp hfile
  rw [h.source (isSource_of_mem_inputs hfound hf) hfile, hoctets, Tree.get?_ensured_of_some hoctets]

variable [Loader]

/-- Documents never change, and a copied file is settled if it is not written after it was copied.
-/
theorem Built.settled (h : Built project tidying strict found t t' r)
    (hfound : discover project t = .ok found) (hconfined : Confined project.output t t')
    (hcopied : ∀ pre source target post, r.copied = pre ++ (source, target) :: post →
      source ∈ post.map Prod.snd →
      source ∈ (r.compiled ++ pre).map Prod.snd) :
    Works.Settled (jobs project (buildOptions project strict) tidying found)
      (t.ensured project.output) t' := by
  intro before j after hsplit
  by_cases hj : j ∈ found.inputs.map (compileJob project (buildOptions project strict) tidying)
  · obtain ⟨f, hf, rfl⟩ := List.mem_map.mp hj
    exact Or.inr (hconfined.get?_document hfound hf)
  -- The job of a copy comes after those of all documents.
  obtain ⟨middle, rfl, hothers⟩ := exists_append_of_notMem hsplit hj
  obtain ⟨fs, rest, hfs, rfl, hrest⟩ := List.map_eq_append_iff.mp hothers
  obtain ⟨f, gs, rfl, rfl, rfl⟩ := List.map_eq_cons_iff.mp hrest
  apply (hsplit ▸ h.works).settled_of_notMem
  intro hmem
  rw [targets_append, targets_compileJob, targets_copyJob, ← h.snd_compiled]
  rw [targets_copyJob] at hmem
  have hsplit' : r.copied = fs.map (fun f => (f.path, copyPath project f)) ++
      (f.path, copyPath project f) :: gs.map fun f => (f.path, copyPath project f) := by
    rw [h.copied, hfs, List.map_append, List.map_cons]
  have hearlier := hcopied _ _ _ _ hsplit' (by rwa [List.map_map])
  rwa [List.map_append, List.map_map] at hearlier

theorem Built.has_output (h : Built project tidying strict found t t' r) :
    t'.has project.output = true := by
  have hensured := Tree.has_iff_mem_paths.mp (Tree.has_ensured t project.output)
  exact Tree.has_iff_mem_paths.mpr (h.works.prefix_paths.subset hensured)

theorem Built.nodup_paths (h : Built project tidying strict found t t' r) (ht : t.WellFormed) :
    t'.paths.Nodup :=
  (h.works.wellFormed (ht.ensured h.ready)).nodup

theorem Built.prefix_paths (h : Built project tidying strict found t t' r) : t.paths <+: t'.paths :=
  (Tree.prefix_paths_ensured t project.output).trans h.works.prefix_paths

/-- What a second discovery would find in addition is a target, since it was not there. -/
theorem Built.discover_again (h : Built project tidying strict found t t' r)
    (hfound : discover project t = .ok found) (ht : t.WellFormed)
    (hconfined : Confined project.output t t')
    (hnew : ∀ p ∈ (r.compiled ++ r.copied).map Prod.snd, t.isFile p = false →
      ∀ e ∈ project.entry, t.isDirectory e = true → p.below e = false) :
    discover project t' = .ok found := by
  refine discover_eq hfound h.prefix_paths (h.nodup_paths ht) (fun p => hconfined.kind_eq)
    fun p habsent hfile => ?_
  obtain ⟨octets, hoctets⟩ := Tree.isFile_iff.mp hfile
  have hnone := Tree.has_eq_false_iff.mp habsent
  apply hnew p
  · by_contra hnot
    rw [h.file_iff hnot, hnone] at hoctets
    cases hoctets
  · rw [Tree.isFile, hnone]

end Builds

/-- A build that returns can be done again, and then changes nothing, if no file that it has newly
made lies below an entry, and none that it has copied was written for the first time after that.
Programs for linting, if there are any, leave files as they are. -/
theorem rebuild_eq_self [Loader] {project : Project} {tidying : Source.TidyOptions}
    {strict : Option Bool} {w v : World} {r : BuildReport} (hw : w.tree.WellFormed)
    (hlint : project.lint.truthy = false ∨ w.behaviour.Quiet)
    (hbuild : (build project tidying strict).run w = (.ok r, v))
    (hnew : ∀ p ∈ (r.compiled ++ r.copied).map Prod.snd, w.tree.isFile p = false →
      ∀ e ∈ project.entry, w.tree.isDirectory e = true → p.below e = false)
    (hcopied : ∀ pre source target post, r.copied = pre ++ (source, target) :: post →
      source ∈ post.map Prod.snd → source ∈ (r.compiled ++ pre).map Prod.snd)
    (u : World) (hu : u.tree = v.tree) (hlint' : project.lint.truthy = false ∨ u.behaviour.Quiet) :
    ∃ r' u', (build project tidying strict).run u = (.ok r', u') ∧ u'.tree = u.tree := by
  obtain ⟨found, hfound, ⟨hnil, htree, -⟩ | ⟨hinputs, h⟩⟩ :=
    build_returned (hlint.imp_right .inl) hbuild
  · rw [← htree, ← hu] at hfound
    exact ⟨_, build_returns_of_no_inputs hfound hnil⟩
  have hconfined : Confined project.output w.tree v.tree := by
    have hrun : Confined project.output w.tree ((build project tidying strict).run w).2.tree :=
      confined_of_run strict hw hlint
    rwa [hbuild] at hrun
  have hagain : discover project u.tree = .ok found :=
    hu ▸ h.discover_again hfound hw hconfined hnew
  have hworks : Works (jobs project (buildOptions project strict) tidying found)
      (u.tree.ensured project.output) v.tree := by
    rw [hu, Tree.ensured, if_pos h.has_output]
    exact h.works.again (h.settled hfound hconfined hcopied) (h.nodup_paths hw)
  obtain ⟨r', u', hrun, hu'⟩ := build_returns (hlint'.imp_right .inl) hagain hinputs
    (Or.inl (hu ▸ h.has_output)) hworks h.linted
  exact ⟨r', u', hrun, hu'.trans hu.symm⟩

theorem rebuild_eq_self_crowded :
    let v := ((build crowded {} none).run crowdedWorld).2
    crowdedWorld.tree.WellFormed ∧ v.tree.get? (inApp ["dist", "dist", "a.js"]) =
      some (.file "mine\n".toUTF8) ∧
      ∃ r' u', (build crowded {} none).run v = (.ok r', u') ∧ u'.tree = v.tree := by
  have hw : crowdedWorld.tree.WellFormed := by decide
  obtain ⟨r, hbuild, hr, hr'⟩ := exists_run_crowded
  -- The one copied file that is written is written by a document, before all copies.
  have hcompiled : ∀ p ∈ r.copied.map Prod.fst, p ∈ r.copied.map Prod.snd →
      p ∈ r.compiled.map Prod.snd := by
    rw [hr, hr']
    decide
  refine ⟨hw, run_crowded.2.2.2, rebuild_eq_self hw (.inl rfl) hbuild ?_ ?_ _ rfl (.inl rfl)⟩
  · rw [hr, hr']
    decide
  · intro pre source target post hsplit hmem
    have hsource : source ∈ r.copied.map Prod.fst := by simp [hsplit]
    have htarget : source ∈ r.copied.map Prod.snd := by
      rw [hsplit, List.map_append, List.map_cons]
      exact List.mem_append_right _ (List.mem_cons_of_mem _ hmem)
    rw [List.map_append]
    exact List.mem_append_left _ (hcompiled source hsource htarget)

/-- With the output directory among the entries, the second build copies what the first one has
written; and a file that was copied before it was written is copied anew. -/
theorem rebuild_changes_tree :
    (let project := appProject [inApp ["a.yml"], inApp ["dist"]] (inApp ["dist"])
      let w := appWorld [(inApp ["a.yml"], .file .empty), (inApp ["dist"], .directory)]
      let first := (build project {} none).run w
      let second := (build project {} none).run first.2
      first.1.isOk = true ∧ second.1.isOk = true ∧
        first.2.tree.get? (inApp ["dist", "dist", "a.js"]) = none ∧
        second.2.tree.get? (inApp ["dist", "dist", "a.js"]) = some (.file .empty)) ∧
      let project := appProject [inApp ["a.yml"], inApp ["dist", "x"], inApp ["x"]] (inApp ["dist"])
      let w := appWorld [(inApp ["a.yml"], .file .empty), (inApp ["x"], .file "new\n".toUTF8),
        (inApp ["dist"], .directory), (inApp ["dist", "x"], .file "old\n".toUTF8)]
      let first := (build project {} none).run w
      let second := (build project {} none).run first.2
      first.1.isOk = true ∧ second.1.isOk = true ∧
        first.2.tree.get? (inApp ["dist", "dist", "x"]) = some (.file "old\n".toUTF8) ∧
        second.2.tree.get? (inApp ["dist", "dist", "x"]) = some (.file "new\n".toUTF8) := by
  decide +kernel

end Scriptwright.Project
