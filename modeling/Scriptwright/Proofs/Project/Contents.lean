import Scriptwright.Proofs.Project.Build

/-!
# What a build leaves behind

A report lists pairs of a source and a target in the order in which they were written. The target of
a compiled document holds its source text unless a later pair has the same target. The same goes for
a copied file whose source was not written before it was copied. If targets are distinct and no
copied file is among them, every pair holds what it says. A lint command, if there is one, is
supposed to leave files as they are.
-/

namespace Scriptwright.Project

theorem targets_copyJob {project : Project} (fs : List Located) :
    targets (fs.map (copyJob project)) = fs.map (copyPath project) := List.map_map

/-- A pair of a report comes from a discovered file, in the same place. -/
theorem exists_located_of_eq_append {fs : List Located} {place : Located → Path}
    {pairs pre post : List (Path × Path)} {source target : Path}
    (hpairs : pairs = fs.map fun f => (f.path, place f))
    (hsplit : pairs = pre ++ (source, target) :: post) :
    ∃ before f after, fs = before ++ f :: after ∧ f.path = source ∧ place f = target ∧
      pre.map Prod.snd = before.map place ∧ post.map Prod.snd = after.map place := by
  rw [hsplit] at hpairs
  obtain ⟨before, rest, rfl, rfl, hrest⟩ := List.map_eq_append_iff.mp hpairs.symm
  obtain ⟨f, after, rfl, hf, rfl⟩ := List.map_eq_cons_iff.mp hrest
  obtain ⟨hsource, htarget⟩ := Prod.mk.inj hf
  exact ⟨before, f, after, rfl, hsource, htarget, List.map_map, List.map_map⟩

section Report

variable [Loader] {project : Project} {options : Script.Options} {tidying : Source.TidyOptions}
  {strict : Option Bool} {found : Found} {t t' : Tree} {r : BuildReport}

theorem targets_compileJob (fs : List Located) :
    targets (fs.map (compileJob project options tidying)) = fs.map (outputPath project) :=
  List.map_map

namespace Built

variable (h : Built project tidying strict found t t' r)
include h

theorem snd_compiled : r.compiled.map Prod.snd = found.inputs.map (outputPath project) := by
  rw [h.compiled]
  exact List.map_map

theorem snd_copied : r.copied.map Prod.snd = found.others.map (copyPath project) := by
  rw [h.copied]
  exact List.map_map

theorem file_iff {p : Path} {octets : ByteArray} (hp : p ∉ (r.compiled ++ r.copied).map Prod.snd) :
    t'.get? p = some (.file octets) ↔ t.get? p = some (.file octets) := by
  have hnot : p ∉ targets (jobs project (buildOptions project strict) tidying found) := by
    rwa [jobs, targets_append, targets_compileJob,
      targets_copyJob, ← h.snd_compiled, ← h.snd_copied, ← List.map_append]
  exact ⟨fun hfile => Tree.file_of_ensured (h.works.file_of_notMem hnot hfile),
    fun hfile => h.works.kept hnot (Tree.get?_ensured_of_some hfile)⟩

variable {pre post : List (Path × Path)} {source target : Path}

/-- No document is a target, so what is compiled is what was there at the beginning. -/
theorem get?_compiled (hfs : Documents found.inputs)
    (hsplit : r.compiled = pre ++ (source, target) :: post)
    (hlast : target ∉ (post ++ r.copied).map Prod.snd) :
    ∃ c, (compileFile (buildOptions project strict) tidying t source).outcome = .ok c ∧
      t'.get? target = some (.file c.code.toUTF8) := by
  obtain ⟨before, f, after, hinputs, rfl, rfl, -, hpost⟩ :=
    exists_located_of_eq_append h.compiled hsplit
  have hworks := h.works
  rw [jobs, hinputs, List.map_append, List.map_cons, List.append_assoc, List.cons_append] at hworks
  have hbefore : Documents before := fun g hg => hfs g (by simp [hinputs, hg])
  have hsource : f.path ∉ before.map (outputPath project) :=
    hbefore.notMem_outputPath project (hfs f (by simp [hinputs])).1
  obtain ⟨octets, made, hoctets, hmade, htarget⟩ := hworks.get?_target
    (by rwa [targets_append, targets_compileJob, targets_copyJob, ← hpost, ← h.snd_copied,
      ← List.map_append])
    (by rwa [targets_compileJob])
  obtain ⟨c, hcompile, rfl⟩ := (make_compileJob_iff (Tree.file_of_ensured hoctets)).mp hmade
  exact ⟨c, hcompile, htarget⟩

theorem get?_copied (hsplit : r.copied = pre ++ (source, target) :: post)
    (hlast : target ∉ post.map Prod.snd) (hsource : source ∉ (r.compiled ++ pre).map Prod.snd) :
    ∃ octets, t.get? source = some (.file octets) ∧ t'.get? target = some (.file octets) := by
  obtain ⟨before, f, after, hothers, rfl, rfl, hpre, hpost⟩ :=
    exists_located_of_eq_append h.copied hsplit
  have hworks := h.works
  rw [jobs, hothers, List.map_append, List.map_cons, ← List.append_assoc] at hworks
  obtain ⟨octets, made, hoctets, hmade, htarget⟩ :=
    hworks.get?_target (by rwa [targets_copyJob, ← hpost])
    (by rwa [targets_append, targets_compileJob, targets_copyJob, ← hpre, ← h.snd_compiled,
      ← List.map_append])
  cases hmade
  exact ⟨octets, Tree.file_of_ensured hoctets, htarget⟩

end Built

end Report

section Builds

variable {project : Project} {tidying : Source.TidyOptions} {strict : Option Bool} {found : Found}
  {w v : World} {r : BuildReport}

/-- If targets are distinct and no file that is copied is among them, then every reported target
holds what its source gives, no other file has changed, and the report lists the discovered files
and the diagnostics of the documents. -/
theorem faithful_of_build_eq_ok [Loader] (hlint : project.lint.truthy = false ∨ w.behaviour.Quiet)
    (hfound : discover project w.tree = .ok found)
    (hdistinct : (found.inputs.map (outputPath project) ++
      found.others.map (copyPath project)).Nodup)
    (hapart : ∀ f ∈ found.others,
      f.path ∉ found.inputs.map (outputPath project) ++ found.others.map (copyPath project))
    (hbuild : (build project tidying strict).run w = (.ok r, v)) :
    (∀ pair ∈ r.compiled, ∃ c, (compileFile (buildOptions project strict) tidying w.tree
      pair.1).outcome = .ok c ∧
        v.tree.get? pair.2 = some (.file c.code.toUTF8)) ∧
      (∀ pair ∈ r.copied, ∃ octets, w.tree.get? pair.1 = some (.file octets) ∧
        v.tree.get? pair.2 = some (.file octets)) ∧
      (∀ p octets, p ∉ (r.compiled ++ r.copied).map Prod.snd →
        (v.tree.get? p = some (.file octets) ↔ w.tree.get? p = some (.file octets))) ∧
      (found.inputs ≠ [] → r.compiled = found.inputs.map (fun f => (f.path, outputPath project f)) ∧
        r.copied = found.others.map fun f => (f.path, copyPath project f)) ∧
      ∃ cs : List Compiled,
        List.Forall₂
          (fun f c => (compileFile (buildOptions project strict) tidying w.tree f.path).outcome =
          .ok c)
          found.inputs cs ∧ r.diagnostics = cs.flatMap Compiled.diagnostics := by
  obtain ⟨found', hfound', hcases⟩ := build_returned (hlint.imp_right .inl) hbuild
  obtain rfl : found = found' := Except.ok.inj (hfound.symm.trans hfound')
  rcases hcases with ⟨hnil, htree, rfl⟩ | ⟨-, h⟩
  · rw [htree, hnil]
    exact ⟨nofun, nofun, fun _ _ _ => Iff.rfl, fun hne => absurd rfl hne, [], .nil, rfl⟩
  rw [← h.snd_compiled, ← h.snd_copied, ← List.map_append] at hdistinct hapart
  refine ⟨fun pair hpair => ?_, fun pair hpair => ?_, fun p octets => h.file_iff, fun _ =>
    ⟨h.compiled, h.copied⟩, h.diagnostics⟩
  · obtain ⟨pre, post, hsplit⟩ := List.append_of_mem hpair
    refine h.get?_compiled (documents_of_discover hfound) hsplit ?_
    rw [hsplit, List.append_assoc, List.map_append, List.cons_append, List.map_cons] at hdistinct
    exact (List.nodup_cons.mp (List.nodup_append.mp hdistinct).2.1).1
  · obtain ⟨pre, post, hsplit⟩ := List.append_of_mem hpair
    rw [hsplit, ← List.append_assoc, List.map_append, List.map_cons] at hdistinct hapart
    refine h.get?_copied hsplit (List.nodup_cons.mp (List.nodup_append.mp hdistinct).2.1).1
      fun hmem => ?_
    rw [h.copied, List.mem_map] at hpair
    obtain ⟨f, hf, rfl⟩ := hpair
    exact hapart f hf (List.mem_append_left _ hmem)

theorem faithful_of_build_eq_ok_two_entries :
    let project := appProject [inApp ["src"], inApp ["img"]] (inApp ["dist"])
    let w := appWorld [(inApp ["src"], .directory), (inApp ["src", "a.yml"], .file .empty),
      (inApp ["img"], .directory), (inApp ["img", "x.svg"], .file "<svg/>".toUTF8)]
    ∃ r v, (build project {} none).run w = (.ok r, v) ∧
      r.compiled = [(inApp ["src", "a.yml"], inApp ["dist", "a.js"])] ∧
      r.copied = [(inApp ["img", "x.svg"], inApp ["dist", "img", "x.svg"])] ∧
      (∃ c, (compileFile (buildOptions project none) {} w.tree (inApp ["src", "a.yml"])).outcome =
        .ok c ∧
        v.tree.get? (inApp ["dist", "a.js"]) = some (.file c.code.toUTF8)) ∧
      ∃ octets, w.tree.get? (inApp ["img", "x.svg"]) = some (.file octets) ∧
        v.tree.get? (inApp ["dist", "img", "x.svg"]) = some (.file octets) := by
  intro project w
  have hfound : discover project w.tree =
      .ok ⟨[⟨inApp ["src", "a.yml"], inApp ["src"]⟩], [⟨inApp ["img", "x.svg"], inApp ["img"]⟩]⟩ :=
    discover_eq_ok_iff.mpr (by decide +kernel)
  have houtput : outputPath project ⟨inApp ["src", "a.yml"], inApp ["src"]⟩ =
      inApp ["dist", "a.js"] := by
    decide +kernel
  have hcopy : copyPath project ⟨inApp ["img", "x.svg"], inApp ["img"]⟩ =
      inApp ["dist", "img", "x.svg"] := by decide
  obtain ⟨r, hbuild, -⟩ := Work.exists_run_eq_ok (x := build project {} none) (w := w)
    (g := BuildReport.compiled)
    (b := [(inApp ["src", "a.yml"], inApp ["dist", "a.js"])]) (by decide +kernel)
  obtain ⟨hcompiled, hcopied, -, hreport, -⟩ := faithful_of_build_eq_ok (.inl rfl) hfound
    (by simp only [List.map_cons, List.map_nil, houtput, hcopy]; decide)
    (by simp only [List.map_cons, List.map_nil, houtput, hcopy]; decide) hbuild
  obtain ⟨hr, hr'⟩ := hreport (by simp)
  simp only [List.map_cons, List.map_nil, houtput, hcopy] at hr hr'
  exact ⟨r, _, hbuild, hr, hr', hcompiled _ (hr ▸ List.mem_singleton_self _),
    hcopied _ (hr' ▸ List.mem_singleton_self _)⟩

/-- The last pair for a target decides what it holds. A compiled target holds the source text of its
document, as that was before the build; a copied one holds what its source held then, if no pair
before has written that source. -/
theorem lastWriter_of_build_eq_ok [Loader] (hlint : project.lint.truthy = false ∨ w.behaviour.Quiet)
    (hbuild : (build project tidying strict).run w = (.ok r, v)) :
    (∀ pre source target post, r.compiled = pre ++ (source, target) :: post →
        target ∉ (post ++ r.copied).map Prod.snd →
        ∃ c, (compileFile (buildOptions project strict) tidying w.tree source).outcome = .ok c ∧
          v.tree.get? target = some (.file c.code.toUTF8)) ∧
      ∀ pre source target post, r.copied = pre ++ (source, target) :: post →
        target ∉ post.map Prod.snd →
        source ∉ (r.compiled ++ pre).map Prod.snd →
        ∃ octets, w.tree.get? source = some (.file octets) ∧
          v.tree.get? target = some (.file octets) := by
  obtain ⟨found, hfound, hcases⟩ := build_returned (hlint.imp_right .inl) hbuild
  rcases hcases with ⟨-, -, rfl⟩ | ⟨-, h⟩
  · constructor <;> intro pre source target post hsplit <;> simp at hsplit
  · exact ⟨fun _ _ _ _ => h.get?_compiled (documents_of_discover hfound), fun _ _ _ _ =>
      h.get?_copied⟩

/-- A project with a file that is copied to where a document is compiled to, with that target as a
third file, and with a directory of other files. -/
def crowded : Project :=
  appProject
    [inApp ["a.yml"], inApp ["b.yml"], inApp ["a.js"], inApp ["dist", "a.js"], inApp ["assets"]]
    (inApp ["dist"])

def crowdedWorld : World :=
  appWorld [(inApp ["a.yml"], .file .empty), (inApp ["b.yml"], .file .empty),
    (inApp ["a.js"], .file "mine\n".toUTF8), (inApp ["dist"], .directory),
    (inApp ["dist", "a.js"], .file "old\n".toUTF8), (inApp ["assets"], .directory),
    (inApp ["assets", "logo"], .file "logo\n".toUTF8)]

theorem run_crowded :
    let run := (build crowded {} none).run crowdedWorld
    run.1.toOption.map (fun r => (r.compiled, r.copied)) =
        some ([(inApp ["a.yml"], inApp ["dist", "a.js"]),
          (inApp ["b.yml"], inApp ["dist", "b.js"])], [(inApp ["a.js"], inApp ["dist", "a.js"]),
          (inApp ["dist", "a.js"], inApp ["dist", "dist", "a.js"]),
            (inApp ["assets", "logo"], inApp ["dist", "assets", "logo"])]) ∧
      (compileFile (buildOptions crowded none) {} crowdedWorld.tree
        (inApp ["a.yml"])).outcome.toOption.map
        Compiled.code = some "" ∧
      run.2.tree.get? (inApp ["dist", "a.js"]) = some (.file "mine\n".toUTF8) ∧
      run.2.tree.get? (inApp ["dist", "dist", "a.js"]) = some (.file "mine\n".toUTF8) := by
  decide +kernel

theorem exists_run_crowded :
    ∃ r, (build crowded {} none).run crowdedWorld =
      (.ok r, ((build crowded {} none).run crowdedWorld).2) ∧
      r.compiled = [(inApp ["a.yml"], inApp ["dist", "a.js"]),
        (inApp ["b.yml"], inApp ["dist", "b.js"])] ∧
      r.copied =
        [(inApp ["a.js"], inApp ["dist", "a.js"]),
          (inApp ["dist", "a.js"], inApp ["dist", "dist", "a.js"]),
          (inApp ["assets", "logo"], inApp ["dist", "assets", "logo"])] := by
  obtain ⟨r, hrun, hreport⟩ := Work.exists_run_eq_ok run_crowded.1
  exact ⟨r, hrun, (Prod.mk.inj hreport).1, (Prod.mk.inj hreport).2⟩

theorem lastWriter_of_build_eq_ok_crowded :
    ∃ r v, (build crowded {} none).run crowdedWorld = (.ok r, v) ∧
      (∃ c, (compileFile (buildOptions crowded none) {} crowdedWorld.tree
        (inApp ["b.yml"])).outcome = .ok c ∧
        v.tree.get? (inApp ["dist", "b.js"]) = some (.file c.code.toUTF8)) ∧
      ∃ octets, crowdedWorld.tree.get? (inApp ["a.js"]) = some (.file octets) ∧
        v.tree.get? (inApp ["dist", "a.js"]) = some (.file octets) := by
  obtain ⟨r, hbuild, hr, hr'⟩ := exists_run_crowded
  obtain ⟨hcompiled, hcopied⟩ := lastWriter_of_build_eq_ok (.inl rfl) hbuild
  refine ⟨r, _, hbuild, hcompiled [(inApp ["a.yml"], inApp ["dist", "a.js"])] _ _ [] hr ?_,
    hcopied [] _ _ _ hr' ?_ ?_⟩
  · rw [hr']
    decide
  · decide
  · rw [hr]
    decide

/-- The copy takes the place of the compiled document, and goes on to be copied instead of the file
that stood there. -/
theorem build_overwrites_targets :
    ∃ r v, (build crowded {} none).run crowdedWorld = (.ok r, v) ∧
      (¬∀ pair ∈ r.compiled, ∀ c,
        (compileFile (buildOptions crowded none) {} crowdedWorld.tree pair.1).outcome = .ok c →
          v.tree.get? pair.2 = some (.file c.code.toUTF8)) ∧
      (¬∀ pair ∈ r.copied, ∀ octets, crowdedWorld.tree.get? pair.1 = some (.file octets) →
        v.tree.get? pair.2 = some (.file octets)) ∧
      ∃ pair ∈ r.compiled, ∃ other ∈ r.copied, pair.1 ≠ other.1 ∧ pair.2 = other.2 := by
  obtain ⟨r, hbuild, hr, hr'⟩ := exists_run_crowded
  obtain ⟨-, hcode, htarget, hcopy⟩ := run_crowded
  refine ⟨r, _, hbuild, fun hall => ?_, fun hall => ?_, ?_⟩
  · cases hcompile : (compileFile (buildOptions crowded none) {} crowdedWorld.tree
      (inApp ["a.yml"])).outcome with
    | error e =>
      rw [hcompile] at hcode
      cases hcode
    | ok c =>
      have hheld := hall (inApp ["a.yml"], inApp ["dist", "a.js"]) (by simp [hr]) c hcompile
      rw [hcompile] at hcode
      rw [htarget, Option.some.inj hcode] at hheld
      revert hheld
      decide
  · have hheld := hall (inApp ["dist", "a.js"], inApp ["dist", "dist", "a.js"])
      (by simp [hr']) "old\n".toUTF8 rfl
    rw [hcopy] at hheld
    revert hheld
    decide
  · rw [hr, hr']
    exact ⟨_, List.mem_cons_self, _, List.mem_cons_self, by decide, rfl⟩

end Builds

end Scriptwright.Project
