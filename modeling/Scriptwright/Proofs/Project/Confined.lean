import Scriptwright.Proofs.Project.Build

/-!
# Builds keep to their output directory

Whether a build returns or fails, what it changes are files below the output directory that are not
documents, and what it makes besides are directories in the output directory or around it. The lint
command may change whatever it likes, so this is about what the build does up to a program that it
starts, between two of them, and behind the last one.

The one way out would be a copy onto the output directory itself, of a root that is a file. It is
closed since no program runs in a root that is a file, and since a document was compiled before: the
output is a directory then, and stays one.
-/

namespace Scriptwright.Project

open Scriptwright.Project.Tree (around)

/-- Every path that changed holds a new file below the output, which is not a document, or a new
directory within the output or around it. -/
def Confined (output : Path) (t t' : Tree) : Prop :=
  ∀ q, t'.get? q ≠ t.get? q →
    (∃ octets, t'.get? q = some (.file octets)) ∧ t.get? q ≠ some .directory ∧
      q.below output = true ∧
        isSource q = false ∨
      t.get? q = none ∧ t'.get? q = some .directory ∧
        (q.within output = true ∨ output.within q = true)

namespace Confined

variable {output : Path} {t u t' : Tree}

theorem refl (output : Path) (t : Tree) : Confined output t t := fun _ h => absurd rfl h

theorem trans (h : Confined output t u) (h' : Confined output u t') : Confined output t t' := by
  intro q hq
  by_cases hlater : t'.get? q = u.get? q
  · rw [hlater] at hq ⊢
    exact h q hq
  · by_cases hearlier : u.get? q = t.get? q
    · have := h' q hlater
      rwa [hearlier] at this
    · rcases h' q hlater with ⟨hfile, hno, hplace⟩ | ⟨hnone, -⟩
      · rcases h q hearlier with ⟨-, hdirectory, -⟩ | ⟨-, hmade, -⟩
        · exact Or.inl ⟨hfile, hdirectory, hplace⟩
        · exact absurd hmade hno
      · -- What was changed before is there, so no directory is made in its place.
        rcases h q hearlier with ⟨⟨_, hfile⟩, -⟩ | ⟨-, hmade, -⟩
        · rw [hfile] at hnone
          cases hnone
        · rw [hmade] at hnone
          cases hnone

instance (output : Path) : IsPreorder Tree (Confined output) where
  refl := refl output
  trans _ _ _ := trans

theorem isDirectory (h : Confined output t t') {q : Path} (hq : t.isDirectory q = true) :
    t'.isDirectory q = true := by
  rw [Tree.isDirectory_iff] at hq ⊢
  by_contra hne
  rcases h q (fun heq => hne (heq.trans hq)) with ⟨-, hno, -⟩ | ⟨hnone, -⟩
  · exact hno hq
  · rw [hq] at hnone
    cases hnone

theorem isFile (h : Confined output t t') {q : Path} (hq : t.isFile q = true) :
    t'.isFile q = true := by
  by_cases heq : t'.get? q = t.get? q
  · rwa [Tree.isFile, heq]
  · rcases h q heq with ⟨hfile, -⟩ | ⟨hnone, -⟩
    · exact Tree.isFile_iff.mpr hfile
    · obtain ⟨octets, hoctets⟩ := Tree.isFile_iff.mp hq
      rw [hoctets] at hnone
      cases hnone

/-- What is there stays what it is, a directory or a file. -/
theorem kind_eq (h : Confined output t t') {q : Path} (hq : t.has q = true) :
    t'.isDirectory q = t.isDirectory q ∧ t'.isFile q = t.isFile q := by
  obtain ⟨i, hi⟩ := Tree.has_iff.mp hq
  cases i with
  | directory =>
    have ht := Tree.isDirectory_iff.mpr hi
    have ht' := h.isDirectory ht
    exact ⟨ht'.trans ht.symm, by rw [Tree.isFile, Tree.isFile, Tree.isDirectory_iff.mp ht', hi]⟩
  | file octets =>
    have ht := Tree.isFile_iff.mpr ⟨octets, hi⟩
    have ht' := h.isFile ht
    obtain ⟨octets', hi'⟩ := Tree.isFile_iff.mp ht'
    exact ⟨by rw [Tree.isDirectory, Tree.isDirectory, hi', hi], ht'.trans ht.symm⟩

theorem source (h : Confined output t t') {q : Path} (hsource : isSource q = true)
    (hq : t.isFile q = true) :
    t'.get? q = t.get? q := by
  by_contra hne
  rcases h q hne with ⟨-, -, -, hno⟩ | ⟨hnone, -⟩
  · rw [hsource] at hno
    cases hno
  · obtain ⟨octets, hoctets⟩ := Tree.isFile_iff.mp hq
    rw [hoctets] at hnone
    cases hnone

theorem file_changed (h : Confined output t t') {p : Path}
    (hp : t.isFile p = true ∨ t'.isFile p = true) (hchanged : t'.get? p ≠ t.get? p) :
    p.below output = true ∧ isSource p = false := by
  rcases h p hchanged with ⟨-, -, hplace⟩ | ⟨hnone, hdirectory, -⟩
  · exact hplace
  · rw [Tree.isFile_iff, Tree.isFile_iff, hnone, hdirectory] at hp
    simp at hp

theorem made (h : Confined output t t') {p : Path} (hp : t.get? p = none)
    (hmade : t'.get? p ≠ none) :
    p.within output = true ∨ t'.get? p = some .directory ∧ output.below p = true := by
  by_cases hwithin : p.within output = true
  · exact Or.inl hwithin
  rcases h p (hp ▸ hmade) with ⟨-, -, hbelow, -⟩ | ⟨-, hdirectory, hplace⟩
  · exact absurd (Path.below_iff.mp hbelow).1 hwithin
  · exact Or.inr ⟨hdirectory, Path.below_of_not_within (hplace.resolve_left hwithin) hwithin⟩

theorem put {p : Path} {octets : ByteArray} (hbelow : p.below output = true)
    (hsource : isSource p = false) (htarget : t.isDirectory p = false) :
    Confined output t (t.put p (.file octets)) := by
  intro q hq
  by_cases heq : q = p
  · subst heq
    refine Or.inl ⟨⟨octets, by rw [Tree.get?_put, if_pos rfl]⟩, fun hdirectory => ?_,
      hbelow, hsource⟩
    simp [Tree.isDirectory_iff.mpr hdirectory] at htarget
  · exact absurd (by rw [Tree.get?_put, if_neg heq]) hq

/-- Paths around a path that lies within another one, or around it, do so as well. -/
theorem within_or_within_of_mem_around {p q : Path}
    (hp : p.within output = true ∨ output.within p = true) (hq : q ∈ around p ++ [p]) :
    q.within output = true ∨ output.within q = true := by
  have hstart : q.slashes = p.slashes ∧ q.names <+: p.names := by
    rcases List.mem_append.mp hq with hq | hq
    · exact ⟨(Path.mem_around.mp hq).1, (Path.mem_around.mp hq).2.1⟩
    · rw [List.mem_singleton.mp hq]
      exact ⟨rfl, List.prefix_rfl⟩
  rw [Path.within_iff, Path.within_iff] at hp ⊢
  rcases hp with ⟨hslashes, hnames⟩ | ⟨hslashes, hnames⟩
  · rcases List.prefix_or_prefix_of_prefix hnames hstart.2 with hle | hle
    · exact Or.inl ⟨hstart.1.trans hslashes, hle⟩
    · exact Or.inr ⟨hslashes.symm.trans hstart.1.symm, hle⟩
  · exact Or.inr ⟨hslashes.trans hstart.1.symm, hstart.2.trans hnames⟩

theorem furnished {p : Path} (hp : p.within output = true ∨ output.within p = true) :
    Confined output t (t.furnished (around p ++ [p])) := by
  intro q hq
  rw [Tree.get?_furnished] at hq ⊢
  cases hget : t.get? q with
  | some i =>
    rw [hget] at hq
    exact absurd rfl hq
  | none =>
    rw [hget, Option.none_or] at hq
    by_cases hmem : q ∈ around p ++ [p]
    · exact Or.inr ⟨rfl, by rw [if_pos hmem]; rfl, within_or_within_of_mem_around hp hmem⟩
    · exact absurd (if_neg hmem) hq

end Confined

/-! ## Each piece of work -/

section Steps

variable {project : Project} {options : Script.Options} {tidying : Source.TidyOptions}
  {f : Located} {w : World} {output p : Path} {S : Run → Prop}

theorem obeys_ensureDirectory (hp : p.within output = true ∨ output.within p = true) :
    Work.Obeys (Confined output) S (ensureDirectory p) w := by
  refine Work.Obeys.bind (.of_idle rfl) fun _ _ hget => ?_
  cases hget
  by_cases hhas : w.tree.has p = true
  · rw [if_pos hhas]
    exact .of_idle rfl
  · rw [if_neg hhas]
    refine .bind (Work.obeys_change fun t ht => ?_) fun _ _ _ => .bind (.of_idle rfl) fun _ _ _ =>
      .of_idle rfl
    rw [Tree.makeDirectory] at ht
    split at ht
    · cases ht
    · cases ht
      exact .furnished hp

theorem obeys_buildInput [Loader] (hwithin : f.path.within f.base = true) :
    Work.Obeys (Confined project.output) (IsLint project)
      (buildInput project options tidying f) w := by
  have hbelow := below_outputPath project hwithin
  refine Work.Obeys.bind (.of_idle rfl) fun _ _ _ => .bind (.of_idle ?_) fun c _ _ => ?_
  · rw [Work.run_ofLogged]
  refine (obeys_ensureDirectory (Or.inl (Path.parent_within_of_below hbelow))).bind fun _ _ _ => ?_
  refine Work.Obeys.bind (Work.obeys_change fun t ht => ?_) fun _ _ _ => ?_
  · obtain ⟨htarget, -, rfl⟩ := Tree.write_eq_ok_iff.mp ht
    exact .put hbelow (isSource_outputPath project hwithin) htarget
  · exact (obeys_runLint project _ _).bind fun _ _ _ => .bind (.of_idle rfl) fun _ _ _ =>
      .of_idle rfl

/-- A file is copied to a place below the output, or onto it, which fails if it is a directory. -/
theorem obeys_buildOther (hwithin : f.path.within f.base = true) (hsource : isSource f.path = false)
    (hplace : (copyPath project f).below project.output = true ∨
      w.tree.isDirectory project.output = true) :
    Work.Obeys (Confined project.output) S (buildOther project f) w := by
  have hparent : (copyPath project f).parent.within project.output = true ∨
      project.output.within (copyPath project f).parent = true := by
    rcases copyPath_cases project hwithin with ⟨heq, -⟩ | ⟨hbelow, -⟩
    · rw [heq]
      exact Or.inr (Path.within_parent project.output)
    · exact Or.inl (Path.parent_within_of_below hbelow)
  refine (obeys_ensureDirectory hparent).bind fun made v hrun => ?_
  refine .bind (Work.obeys_change fun t ht => ?_) fun _ _ _ => .bind (.of_idle rfl) fun _ _ _ =>
    .of_idle rfl
  obtain ⟨-, octets, -, hwrite⟩ := Tree.copy_eq_ok_iff.mp ht
  obtain ⟨htarget, -, rfl⟩ := Tree.write_eq_ok_iff.mp hwrite
  rcases copyPath_cases project hwithin with ⟨heq, -⟩ | ⟨hbelow, hname⟩
  · have houtput : v.tree.isDirectory project.output = true := by
      rw [(tree_of_run_ensureDirectory hrun).2.1]
      rcases hplace with hbelow | hdirectory
      · rw [heq] at hbelow
        exact absurd (Path.below_iff.mp hbelow).2 (Nat.lt_irrefl _)
      · exact Tree.isDirectory_ensured hdirectory
    rw [heq, houtput] at htarget
    cases htarget
  · exact .put hbelow (hname.trans hsource) htarget

end Steps

/-! ## Whole builds -/

section Builds

variable {project : Project} {options : Script.Options} {tidying : Source.TidyOptions}
  {fs : List Located} {w v : World}

/-- The copies of a build whose output is a directory, or that copies to places below it only. -/
theorem obeys_others {S : Run → Prop}
    (hfs : ∀ f ∈ fs, f.path.within f.base = true ∧ isSource f.path = false)
    (hplaces : (∀ f ∈ fs, (copyPath project f).below project.output = true) ∨
      w.tree.isDirectory project.output = true) :
    Work.Obeys (Confined project.output) S (fs.mapM (buildOther project)) w := by
  rcases hplaces with hbelow | houtput
  · refine Work.obeys_mapM (I := fun _ => True) (fun f hf v _ => ⟨?_, fun _ _ _ => trivial⟩) trivial
    exact obeys_buildOther (hfs f hf).1 (hfs f hf).2 (.inl (hbelow f hf))
  · refine Work.obeys_mapM (I := fun v => v.tree.isDirectory project.output = true)
      (fun f hf v hv => ⟨?_, ?_⟩) houtput
    · exact obeys_buildOther (hfs f hf).1 (hfs f hf).2 (.inr hv)
    · intro r u hrun
      have hworks : Works [copyJob project f] v.tree u.tree :=
        .cons (buildOther_returned hrun).2 (.nil _)
      exact hworks.directory hv

variable [Loader]

theorem isDirectory_of_inputs_returned {rs : List (Path × List Script.Diagnostic × List Path)}
    (hcalm : Calm project w) (hw : w.tree.WellFormed) (hfs : Documents fs) (hne : fs ≠ [])
    (h : (fs.mapM (buildInput project options tidying)).run w = (.ok rs, v)) :
    v.tree.isDirectory project.output = true := by
  obtain ⟨f, hf⟩ := List.exists_mem_of_ne_nil fs hne
  obtain ⟨hworks, -⟩ := inputs_returned hcalm hfs h
  obtain ⟨octets, hfile⟩ := hworks.exists_file (List.mem_map_of_mem (List.mem_map_of_mem hf))
  apply (hworks.wellFormed hw).inside _ (Tree.has_iff.mpr ⟨_, hfile⟩)
  obtain ⟨hwithin, hlength⟩ := Path.below_iff.mp (below_outputPath project (hfs f hf).2)
  obtain ⟨hslashes, hstart⟩ := Path.within_iff.mp hwithin
  refine Path.mem_around.mpr ⟨hslashes.symm, hstart, fun heq => ?_⟩
  simp only [compileJob] at heq
  rw [heq] at hlength
  omega

theorem obeys_build (strict : Option Bool) (hw : w.tree.WellFormed)
    (hrooted : Calm project w ∨ w.tree.Rooted) :
    Work.Obeys (Confined project.output) (IsLint project) (build project tidying strict) w := by
  refine Work.Obeys.bind (.of_idle rfl) fun w₀ w₁ hget => ?_
  cases hget
  refine .bind (.of_idle ?_) fun found w₁ hdiscover => ?_
  · rw [Work.run_ofLogged]
  rw [Work.run_ofLogged] at hdiscover
  obtain ⟨hfound, rfl⟩ := Prod.mk.inj hdiscover
  have hdocuments := documents_of_discover hfound
  by_cases hempty : found.inputs.isEmpty = true
  · rw [if_pos hempty]
    exact .bind (.of_idle rfl) fun _ _ _ => .of_idle rfl
  rw [if_neg hempty]
  refine (obeys_ensureDirectory (Or.inl (Path.within_refl _))).bind fun made w₂ hensure => ?_
  obtain ⟨hready, hw₂, hbehaviour₂⟩ := tree_of_run_ensureDirectory hensure
  have hinputs : Work.Obeys (Confined project.output) (IsLint project)
      (found.inputs.mapM (buildInput project (buildOptions project strict) tidying)) w₂ :=
    Work.obeys_mapM (I := fun _ => True)
      (fun f hf v _ => ⟨obeys_buildInput (hdocuments f hf).2, fun _ _ _ => trivial⟩) trivial
  refine hinputs.bind fun rs w₃ hrun => ?_
  refine Work.Obeys.bind (obeys_others ?_ ?_) fun _ _ _ => .of_idle rfl
  · exact fun f hf => ⟨within_base_of_mem_found hfound (List.mem_append_right _ hf),
      isSource_of_mem_others hfound hf⟩
  by_cases hcalm : Calm project w
  · -- No program has touched the output, and the first document was compiled to a place below it.
    right
    have hcalm₂ : Calm project w₂ :=
      hcalm.kept hbehaviour₂ fun hfile => hw₂ ▸ Tree.isFile_ensured hfile
    exact isDirectory_of_inputs_returned hcalm₂ (hw₂ ▸ hw.ensured hready) hdocuments
      (by simpa using hempty) hrun
  · left
    intro f hf
    have hmem := List.mem_append_right found.inputs hf
    rcases copyPath_cases project (within_base_of_mem_found hfound hmem) with
      ⟨-, hroot | hbase⟩ | ⟨hbelow, -⟩
    · exact absurd (.inr (.inr (hroot ▸ isFile_of_mem_found hfound hmem))) hcalm
    · exact absurd hbase (path_ne_base_of_mem_found hfound hmem (hrooted.resolve_left hcalm))
    · exact hbelow

/-- Without a lint command, or with one that leaves files alone, a build as a whole is confined. -/
theorem confined_of_run (strict : Option Bool) (hw : w.tree.WellFormed)
    (hlint : project.lint.truthy = false ∨ w.behaviour.Quiet) :
    Confined project.output w.tree ((build project tidying strict).run w).2.tree := by
  have hobeys : Work.Obeys (Confined project.output) (IsLint project)
      (build project tidying strict) w :=
    obeys_build strict hw (.inl (hlint.imp_right .inl))
  obtain ⟨runs, -, -, hown⟩ := hobeys
  apply hown.whole
  rcases hlint with hlint | hquiet
  · intro run hrun
    obtain ⟨-, target, hcommand⟩ := hown.forall_mem run hrun
    rw [lintCommand_of_not_truthy hlint] at hcommand
    cases hcommand
  · exact hown.after_eq_before hquiet

end Builds

/-- What a build may do to a tree: it changes and makes files only below its output directory, and
none of them is a document or a manifest; it makes nothing else but directories, in the output
directory or around it; and it removes none. -/
structure KeepsTo (output : Path) (t t' : Tree) : Prop where
  files : ∀ p, t.isFile p = true ∨ t'.isFile p = true → t'.get? p ≠ t.get? p →
    p.below output = true ∧ p.suffix.map Char.toLower ∉ sourceSuffixes
  documents : ∀ p, t.isFile p = true → p.suffix.map Char.toLower ∈ sourceSuffixes ∨
    p.name = manifestName →
    t'.get? p = t.get? p
  made : ∀ p, t.get? p = none → t'.get? p ≠ none →
    p.within output = true ∨ t'.get? p = some .directory ∧ output.below p = true
  directories : ∀ p, t.isDirectory p = true → t'.isDirectory p = true

theorem Confined.keepsTo {output : Path} {t t' : Tree} (h : Confined output t t') :
    KeepsTo output t t' := by
  refine ⟨fun p hfile hchanged => ?_, fun p hfile hname => h.source ?_ hfile, fun p => h.made,
    fun p => h.isDirectory⟩
  · obtain ⟨hbelow, hsource⟩ := h.file_changed hfile hchanged
    refine ⟨hbelow, fun hmem => ?_⟩
    rw [isSource, List.contains_iff_mem.mpr hmem] at hsource
    cases hsource
  · rcases hname with hmem | hname
    · exact List.contains_iff_mem.mpr hmem
    · exact isSource_of_name_eq_manifestName hname

/-- Whether it returns or fails, a build keeps to its output directory in all that it does itself:
up to the first lint command, between two of them, and behind the last. It starts no other programs
than lint commands. Where these leave files alone, the build as a whole keeps to its output
directory. -/
theorem build_changes_only_output [Loader] (project : Project) (tidying : Source.TidyOptions)
    (strict : Option Bool) {w : World} (hw : w.tree.WellFormed) :
    let v := ((build project tidying strict).run w).2
    (w.tree.Rooted → ∃ runs, v.runs = w.runs ++ runs ∧
      Own (KeepsTo project.output) (IsLint project) w.behaviour w.runs w.tree runs v.tree) ∧
    (project.lint.truthy = false ∨ w.behaviour.Quiet → KeepsTo project.output w.tree v.tree) := by
  intro v
  constructor
  · intro hrooted
    have hobeys : Work.Obeys (Confined project.output) (IsLint project)
        (build project tidying strict) w :=
      obeys_build strict hw (.inr hrooted)
    obtain ⟨runs, hruns, -, hown⟩ := hobeys
    exact ⟨runs, hruns, hown.mono fun _ _ h => h.keepsTo⟩
  · exact fun hlint => (confined_of_run strict hw hlint).keepsTo

def noting : Behaviour where
  answer _ _ files _ := .ok ⟨0, "", files.put (inApp ["notes"]) (.file .empty)⟩

/-- A build that fails at its second document has written the first one, to a directory that was not
there. A lint command then has written a file elsewhere; the build itself has not, neither before
nor after. -/
theorem build_changes_only_output_unreadable :
    let project := appProject [inApp ["a.yml"], inApp ["b.yml"]] (inApp ["out", "js"])
    let items := [(inApp ["a.yml"], Item.file .empty), (inApp ["b.yml"], .file ⟨#[0xff]⟩)]
    let after := ((build project {} none).run (appWorld items)).2.tree
    KeepsTo project.output (appWorld items).tree after ∧
      (appWorld items).tree.has (inApp ["out"]) = false ∧
      after.isFile (inApp ["out", "js", "a.js"]) = true ∧
    let w := { appWorld items with behaviour := noting }
    let run := (build { project with lint := .string "fix" } {} none).run w
    run.1.isOk = false ∧ w.tree.WellFormed ∧ w.tree.Rooted ∧
      ∃ program, run.2.runs = [program] ∧ KeepsTo project.output w.tree program.before ∧
        program.before.isFile (inApp ["notes"]) = false ∧
          program.after.isFile (inApp ["notes"]) = true ∧
        KeepsTo project.output program.after run.2.tree := by
  intro project items after
  have hw : (appWorld items).tree.WellFormed := by decide +kernel
  have hwritten : after.isFile (inApp ["out", "js", "a.js"]) = true := by decide +kernel
  refine ⟨(build_changes_only_output project {} none hw).2 (.inl rfl), rfl, hwritten, ?_⟩
  intro w run
  have hfails : run.1.isOk = false ∧ run.2.runs.length = 1 ∧
      run.2.runs.all (fun program =>
        !program.before.isFile (inApp ["notes"]) && program.after.isFile
          (inApp ["notes"])) = true := by
    decide +kernel
  have hrooted : w.tree.Rooted := by decide
  obtain ⟨runs, hruns, hown⟩ :=
    (build_changes_only_output { project with lint := .string "fix" } {} none hw (w := w)).1 hrooted
  obtain ⟨hnot, hlength, hnotes⟩ := hfails
  refine ⟨hnot, hw, hrooted, ?_⟩
  change run.2.runs = runs at hruns
  rw [hruns] at hlength hnotes
  cases hown with
  | done => cases hlength
  | started hbefore hstart hrun hrest =>
    cases hrest with
    | done hafter =>
      simp only [List.all_cons, List.all_nil, Bool.and_true, Bool.and_eq_true,
        Bool.not_eq_true'] at hnotes
      exact ⟨_, hruns, hbefore, hnotes.1, hnotes.2, hafter⟩
    | started => cases hlength

end Scriptwright.Project
