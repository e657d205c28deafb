import Scriptwright.Project.Build
import Scriptwright.Proofs.Project.Tree

/-!
# Runs of work

One equation for each piece of work that a build consists of, so that a build is taken apart without
a look at the monad. `Work.Obeys` is about every run, also one that fails: whatever happens, the
work itself changes the tree as a relation allows. What the programs do that it starts is up to
them, so `Own` looks at the stretches between them.
-/

namespace Scriptwright.Project

open Scriptwright.Project.Tree (Wrote around)

/-! ## Programs -/

namespace Behaviour

variable {b : Behaviour} {argv : List String} {directory : Path} {files : Tree} {earlier : List Run}

/-- The files behind a start. -/
def left (b : Behaviour) (argv : List String) (directory : Path) (files : Tree)
    (earlier : List Run) : Tree :=
  match b.outcome argv directory files earlier with
  | .ok e => e.tree
  | .error _ => files

theorem left_of_ok {e : Ending} (h : b.outcome argv directory files earlier = .ok e) :
    b.left argv directory files earlier = e.tree := by
  rw [left, h]

theorem left_of_error {e : SystemError} (h : b.outcome argv directory files earlier = .error e) :
    b.left argv directory files earlier = files := by
  rw [left, h]

/-- Programs that leave files as they are. -/
def Quiet (b : Behaviour) : Prop :=
  ∀ argv directory files earlier e, b.answer argv directory files earlier = .ok e → e.tree = files

theorem Quiet.left_eq (h : b.Quiet) : b.left argv directory files earlier = files := by
  rw [left, outcome]
  split
  · next e heq =>
    split at heq
    · exact h _ _ _ _ e heq
    · cases heq
  · rfl

theorem left_of_not_directory (h : files.isDirectory directory = false) :
    b.left argv directory files earlier = files := by
  rw [left, outcome, h]
  rfl

end Behaviour

/-- What work does by itself between the programs that it starts: up to the first one, from each of
them to the next, and behind the last one it changes files as a relation allows. Which programs are
started is restricted as well; what they do is up to their behaviour. -/
inductive Own (R : Tree → Tree → Prop) (S : Run → Prop) (b : Behaviour) :
    List Run → Tree → List Run → Tree → Prop
  | done {earlier : List Run} {t t' : Tree} (h : R t t') : Own R S b earlier t [] t'
  | started {earlier runs : List Run} {run : Run} {t t' : Tree} (h : R t run.before)
      (hstart : S run)
      (hrun : run.after = b.left run.argv run.directory run.before earlier)
      (hrest : Own R S b (earlier ++ [run]) run.after runs t') : Own R S b earlier t
        (run :: runs) t'

namespace Own

variable {R : Tree → Tree → Prop} {S : Run → Prop} {b : Behaviour} {earlier runs runs' : List Run}
  {t u t' : Tree}

theorem mono {R' : Tree → Tree → Prop} (hR : ∀ t t', R t t' → R' t t')
    (h : Own R S b earlier t runs t') :
    Own R' S b earlier t runs t' := by
  induction h with
  | done h => exact .done (hR _ _ h)
  | started h hstart hrun _ ih => exact .started (hR _ _ h) hstart hrun ih

theorem after_eq_before (h : Own R S b earlier t runs t') (hquiet : b.Quiet) :
    ∀ run ∈ runs, run.after = run.before := by
  induction h with
  | done => exact List.forall_mem_nil _
  | started _ _ hrun _ ih => exact List.forall_mem_cons.mpr ⟨hrun.trans hquiet.left_eq, ih⟩

theorem forall_mem (h : Own R S b earlier t runs t') : ∀ run ∈ runs, S run := by
  induction h with
  | done => exact List.forall_mem_nil _
  | started _ hstart _ _ ih => exact List.forall_mem_cons.mpr ⟨hstart, ih⟩

variable [IsPreorder Tree R]

theorem step (h : R t u) (h' : Own R S b earlier u runs t') : Own R S b earlier t runs t' := by
  cases h' with
  | done h' => exact .done (trans_of R h h')
  | started h' hstart hrun hrest => exact .started (trans_of R h h') hstart hrun hrest

theorem append (h : Own R S b earlier t runs u) (h' : Own R S b (earlier ++ runs) u runs' t') :
    Own R S b earlier t (runs ++ runs') t' := by
  induction h with
  | done h =>
    rw [List.append_nil] at h'
    exact step h h'
  | started h hstart hrun _ ih =>
    rw [List.append_cons] at h'
    exact .started h hstart hrun (ih h')

/-- Where programs leave the files as they are, all is the work's own doing. -/
theorem whole (h : Own R S b earlier t runs t') (hquiet : ∀ run ∈ runs, run.after = run.before) :
    R t t' := by
  induction h with
  | done h => exact h
  | started h _ _ _ ih =>
    obtain ⟨hfirst, hrest⟩ := List.forall_mem_cons.mp hquiet
    exact trans_of R h (hfirst ▸ ih hrest)

end Own

namespace Work

variable {α β : Type} {x : Work α} {f : α → Work β} {w v : World}

theorem run_bind (x : Work α) (f : α → Work β) (w : World) :
    (x >>= f).run w = match x.run w with
      | (.ok a, v) => (f a).run v
      | (.error e, v) => (.error e, v) := by
  change ExceptT.bindCont f (x.run w).1 (x.run w).2 = _
  obtain ⟨_ | _, _⟩ := x.run w <;> rfl

theorem run_bind_of_ok {a : α} (h : x.run w = (.ok a, v)) : (x >>= f).run w = (f a).run v := by
  rw [run_bind, h]

theorem run_bind_eq_ok_iff {b : β} {u : World} :
    (x >>= f).run w = (.ok b, u) ↔ ∃ a v, x.run w = (.ok a, v) ∧ (f a).run v = (.ok b, u) := by
  rw [run_bind]
  obtain ⟨_ | a, v⟩ := x.run w
  · exact ⟨nofun, nofun⟩
  · constructor
    · exact fun h => ⟨a, v, rfl, h⟩
    · rintro ⟨_, _, heq, h⟩
      cases heq
      exact h

theorem run_bind_eq_error_iff {e : Failure} {u : World} :
    (x >>= f).run w = (.error e, u) ↔
      x.run w = (.error e, u) ∨ ∃ a v, x.run w = (.ok a, v) ∧ (f a).run v = (.error e, u) := by
  rw [run_bind]
  obtain ⟨e' | a, v⟩ := x.run w
  · constructor
    · intro h
      cases h
      exact Or.inl rfl
    · rintro (h | ⟨_, _, heq, -⟩)
      · cases h
        rfl
      · cases heq
  · constructor
    · exact fun h => Or.inr ⟨a, v, rfl, h⟩
    · rintro (h | ⟨_, _, heq, h⟩)
      · cases h
      · cases heq
        exact h

theorem run_get (w : World) : (get : Work World).run w = (.ok w, w) := rfl

theorem run_say (level : Log.Level) (speaker : Log.Speaker) (message : String) (w : World) :
    (say level speaker message).run w =
      (.ok (), { w with log := w.log ++ [⟨level, speaker, message⟩] }) := rfl

theorem run_ofLogged (x : Logged α) (w : World) :
    (ofLogged x).run w = (x.outcome, { w with log := w.log ++ x.log }) := by
  obtain ⟨_ | _, _⟩ := x <;> rfl

theorem run_start_of_not {argv : List String} (h : canStart argv = false)
    (directory : Path) (w : World) :
    (start argv directory).run w = (.error (.fault .badValue), w) := by
  rw [start, h]
  rfl

theorem run_start {argv : List String} (h : canStart argv = true) (directory : Path) (w : World) :
    (start argv directory).run w =
      (.ok ((w.behaviour.outcome argv directory w.tree w.runs).map fun e => (e.code, e.stderr)),
        { w with
          tree := w.behaviour.left argv directory w.tree w.runs
          runs := w.runs ++ [⟨argv, directory, w.tree,
          w.behaviour.left argv directory w.tree w.runs⟩] }) := by
  rw [start, h]
  simp only [Bool.not_true, Bool.false_eq_true, if_false, run_bind_of_ok (run_get w),
    Behaviour.left]
  cases w.behaviour.outcome argv directory w.tree w.runs with
  | ok e => rfl
  | error e => rfl

theorem run_change (f : Tree → Except SystemError Tree) (w : World) :
    (change f).run w = match f w.tree with
      | .ok t => (.ok (), { w with tree := t })
      | .error e => (.error (.system e), w) := by
  rw [change, run_bind_of_ok (run_get w)]
  cases f w.tree <;> rfl

theorem run_change_eq_ok_iff {f : Tree → Except SystemError Tree} :
    (change f).run w = (.ok (), v) ↔ ∃ t, f w.tree = .ok t ∧ v = { w with tree := t } := by
  rw [run_change]
  cases f w.tree with
  | error e => exact ⟨nofun, nofun⟩
  | ok t =>
    constructor
    · intro h
      cases h
      exact ⟨t, rfl, rfl⟩
    · rintro ⟨_, heq, rfl⟩
      cases heq
      rfl

theorem exists_run_eq_ok {g : α → β} {b : β} (h : (x.run w).1.toOption.map g = some b) :
    ∃ a, x.run w = (.ok a, (x.run w).2) ∧ g a = b := by
  cases hrun : x.run w with
  | mk outcome v =>
    rw [hrun] at h
    cases outcome with
    | ok a => exact ⟨a, rfl, Option.some.inj h⟩
    | error e => cases h

theorem run_mapM_cons {as : List α} {a : α} {bs : List β} :
    ((a :: as).mapM f).run w = (.ok bs, v) ↔
      ∃ b u cs, (f a).run w = (.ok b, u) ∧ (as.mapM f).run u = (.ok cs, v) ∧ bs = b :: cs := by
  rw [List.mapM_cons, run_bind_eq_ok_iff]
  simp only [run_bind_eq_ok_iff]
  constructor
  · rintro ⟨b, u, hb, cs, s, hcs, hpure⟩
    cases hpure
    exact ⟨b, u, cs, hb, hcs, rfl⟩
  · rintro ⟨b, u, cs, hb, hcs, rfl⟩
    exact ⟨b, u, hb, cs, v, hcs, rfl⟩

/-! ## What every run does to the tree -/

/-- Whether it returns or fails, work from a world on changes the tree by itself as a relation
allows, and starts programs of one kind only. -/
def Obeys (R : Tree → Tree → Prop) (S : Run → Prop) (x : Work α) (w : World) : Prop :=
  ∃ runs, (x.run w).2.runs = w.runs ++ runs ∧ (x.run w).2.behaviour = w.behaviour ∧
    Own R S w.behaviour w.runs w.tree runs (x.run w).2.tree

section Obeys

variable {R : Tree → Tree → Prop} {S : Run → Prop} [IsPreorder Tree R]

theorem Obeys.of_idle (h : (x.run w).2 = { w with log := (x.run w).2.log }) : Obeys R S x w := by
  rw [Obeys, h]
  exact ⟨[], (List.append_nil _).symm, rfl, .done (refl_of R w.tree)⟩

theorem obeys_change {f : Tree → Except SystemError Tree} (h : ∀ t, f w.tree = .ok t → R w.tree t) :
    Obeys R S (change f) w := by
  rw [Obeys, run_change]
  cases hf : f w.tree with
  | error e => exact ⟨[], (List.append_nil _).symm, rfl, .done (refl_of R w.tree)⟩
  | ok t => exact ⟨[], (List.append_nil _).symm, rfl, .done (h t hf)⟩

theorem obeys_start {argv : List String} {directory : Path}
    (h : ∀ t t', S ⟨argv, directory, t, t'⟩) :
    Obeys R S (start argv directory) w := by
  cases hstart : canStart argv with
  | false =>
    apply Obeys.of_idle
    rw [run_start_of_not hstart]
  | true =>
    rw [Obeys, run_start hstart]
    exact ⟨_, rfl, rfl, .started (refl_of R w.tree) (h _ _) rfl (.done (refl_of R _))⟩

theorem Obeys.bind (hx : Obeys R S x w) (hf : ∀ a v, x.run w = (.ok a, v) → Obeys R S (f a) v) :
    Obeys R S (x >>= f) w := by
  obtain ⟨runs, hruns, hbehaviour, hown⟩ := hx
  rw [Obeys, run_bind]
  cases h : x.run w with
  | mk outcome v =>
    rw [h] at hruns hbehaviour hown
    cases outcome with
    | error e => exact ⟨runs, hruns, hbehaviour, hown⟩
    | ok a =>
      obtain ⟨runs', hruns', hbehaviour', hown'⟩ := hf a v h
      simp only at hruns hbehaviour
      rw [hruns, hbehaviour] at hown'
      rw [hruns, List.append_assoc] at hruns'
      exact ⟨runs ++ runs', hruns', hbehaviour'.trans hbehaviour, hown.append hown'⟩

/-- Work that is done for one thing after another, as long as each step keeps what the next one
needs. -/
theorem obeys_mapM {I : World → Prop} {as : List α}
    (h : ∀ a ∈ as, ∀ v, I v → Obeys R S (f a) v ∧ ∀ b u, (f a).run v = (.ok b, u) → I u)
    (hw : I w) :
    Obeys R S (as.mapM f) w := by
  induction as generalizing w with
  | nil => exact .of_idle rfl
  | cons a as ih =>
    obtain ⟨ha, has⟩ := List.forall_mem_cons.mp h
    obtain ⟨hobeys, hkeeps⟩ := ha w hw
    rw [List.mapM_cons]
    exact hobeys.bind fun b v hb => (ih has (hkeeps b v hb)).bind fun cs u _ => .of_idle rfl

end Obeys

/-! ## Failures of the system -/

/-- Nothing but an operation on files makes work fail. -/
def FailsOnFiles (x : Work α) : Prop := ∀ w e v, x.run w = (.error e, v) → ∃ s, e = .system s

theorem failsOnFiles_say (level : Log.Level) (speaker : Log.Speaker) (message : String) :
    FailsOnFiles (say level speaker message) := by
  intro w e v h
  rw [run_say] at h
  cases h

theorem failsOnFiles_change (f : Tree → Except SystemError Tree) : FailsOnFiles (change f) := by
  intro w e v h
  rw [run_change] at h
  cases hf : f w.tree with
  | ok t =>
    rw [hf] at h
    cases h
  | error s =>
    rw [hf] at h
    cases h
    exact ⟨s, rfl⟩

theorem failsOnFiles_pure (a : α) : FailsOnFiles (pure a : Work α) := fun _ _ _ h => by cases h

theorem FailsOnFiles.bind (hx : FailsOnFiles x) (hf : ∀ a, FailsOnFiles (f a)) :
    FailsOnFiles (x >>= f) := by
  intro w e v h
  rcases run_bind_eq_error_iff.mp h with h | ⟨a, u, -, h⟩
  · exact hx w e v h
  · exact hf a u e v h

theorem failsOnFiles_mapM {as : List α} (h : ∀ a ∈ as, FailsOnFiles (f a)) :
    FailsOnFiles (as.mapM f) := by
  induction as with
  | nil => exact failsOnFiles_pure []
  | cons a as ih =>
    obtain ⟨ha, has⟩ := List.forall_mem_cons.mp h
    rw [List.mapM_cons]
    exact ha.bind fun b => (ih has).bind fun bs => failsOnFiles_pure (b :: bs)

end Work

/-! ## Directories -/

section Directories

variable {w v : World} {p : Path}

theorem run_ensureDirectory_of_has (h : w.tree.has p = true) :
    (ensureDirectory p).run w = (.ok [], w) := by
  rw [ensureDirectory, Work.run_bind_of_ok (Work.run_get w), if_pos h]
  rfl

theorem run_ensureDirectory_of_absent (h : w.tree.has p = false)
    (hopen : w.tree.blocked p = false) :
    ∃ v, (ensureDirectory p).run w = (.ok [p], v) ∧ v.tree = w.tree.furnished (around p ++ [p]) ∧
      v.behaviour = w.behaviour := by
  have hmake : w.tree.makeDirectory p = .ok (w.tree.furnished (around p ++ [p])) := by
    rw [Tree.makeDirectory, hopen]
    rfl
  rw [ensureDirectory, Work.run_bind_of_ok (Work.run_get w), if_neg (by simp [h])]
  exact ⟨_, Work.run_bind_of_ok (Work.run_change_eq_ok_iff.mpr ⟨_, hmake, rfl⟩), rfl, rfl⟩

theorem run_ensureDirectory_of_blocked (h : w.tree.has p = false)
    (hblocked : w.tree.blocked p = true) :
    (ensureDirectory p).run w = (.error (.system (.notDirectory p.text)), w) := by
  rw [ensureDirectory, Work.run_bind_of_ok (Work.run_get w), if_neg (by simp [h])]
  rw [Work.run_bind, Work.run_change, Tree.makeDirectory, if_pos hblocked]

theorem exists_run_ensureDirectory (h : w.tree.has p = true ∨ w.tree.blocked p = false) :
    ∃ made v, (ensureDirectory p).run w = (.ok made, v) ∧ v.tree = w.tree.ensured p ∧
      v.behaviour = w.behaviour := by
  rw [Tree.ensured]
  by_cases hhas : w.tree.has p = true
  · exact ⟨[], w, run_ensureDirectory_of_has hhas, by rw [if_pos hhas], rfl⟩
  · obtain ⟨v, hrun, htree, hbehaviour⟩ :=
      run_ensureDirectory_of_absent (Bool.eq_false_iff.mpr hhas) (h.resolve_left hhas)
    exact ⟨[p], v, hrun, by rw [if_neg hhas, htree], hbehaviour⟩

theorem tree_of_run_ensureDirectory {made : List Path}
    (h : (ensureDirectory p).run w = (.ok made, v)) :
    (w.tree.has p = true ∨ w.tree.blocked p = false) ∧ v.tree = w.tree.ensured p ∧
      v.behaviour = w.behaviour := by
  have hready : w.tree.has p = true ∨ w.tree.blocked p = false := by
    by_contra hnot
    rw [not_or, Bool.not_eq_true, Bool.not_eq_false] at hnot
    rw [run_ensureDirectory_of_blocked hnot.1 hnot.2] at h
    cases h
  obtain ⟨made', v', hrun, hv⟩ := exists_run_ensureDirectory hready
  rw [h] at hrun
  cases hrun
  exact ⟨hready, hv⟩

theorem failsOnFiles_ensureDirectory (p : Path) : Work.FailsOnFiles (ensureDirectory p) := by
  intro w e v h
  by_cases hhas : w.tree.has p = true
  · rw [run_ensureDirectory_of_has hhas] at h
    cases h
  · rw [ensureDirectory, Work.run_bind_of_ok (Work.run_get w), if_neg hhas] at h
    exact ((Work.failsOnFiles_change _).bind fun _ => (Work.failsOnFiles_say _ _ _).bind fun _ =>
      Work.failsOnFiles_pure _) w e v h

end Directories

/-! ## Linting -/

section Lint

variable {project : Project} {target : Path} {w v : World}

/-- Linting a file has nothing to start, or words that a program can be started with. -/
def Lints (project : Project) (target : Path) : Prop :=
  ∃ words, lintCommand project.lint target = .ok words ∧ ∀ argv ∈ words, Work.canStart argv = true

/-- How linting ends when it returns. Without a command nothing happens. A program that does not
start leaves the files as they are, and there is a warning about it. A program that starts leaves
what it leaves; linting has succeeded if it exits with zero, and there is a warning otherwise. -/
inductive Linted (project : Project) (target : Path) (w : World) : Bool → World → Prop
  | idle (hcommand : lintCommand project.lint target = .ok none) : Linted project target w true w
  | refused {argv : List String} {e : SystemError}
      (hcommand : lintCommand project.lint target = .ok (some argv))
      (hstart : w.behaviour.outcome argv project.root w.tree w.runs = .error e) :
      Linted project target w false
        { w with
          runs := w.runs ++ [⟨argv, project.root, w.tree, w.tree⟩]
          log := w.log ++ [⟨.warning, .compiler,
            "Lint command failed to start for " ++ target.text ++ ": " ++ e.text⟩] }
  | succeeded {argv : List String} {e : Ending}
      (hcommand : lintCommand project.lint target = .ok (some argv))
      (hstart : w.behaviour.outcome argv project.root w.tree w.runs = .ok e) (hcode : e.code = 0) :
      Linted project target w true
        { w with
          tree := e.tree
          runs := w.runs ++ [⟨argv, project.root, w.tree, e.tree⟩] }
  | failed {argv : List String} {e : Ending}
      (hcommand : lintCommand project.lint target = .ok (some argv))
      (hstart : w.behaviour.outcome argv project.root w.tree w.runs = .ok e) (hcode : e.code ≠ 0) :
      Linted project target w false
        { w with
          tree := e.tree
          runs := w.runs ++ [⟨argv, project.root, w.tree, e.tree⟩]
          log := w.log ++ [⟨.warning, .compiler,
            "Lint command exited with " ++ toString e.code ++ " for " ++ target.text ++ ": " ++
              String.ofList (Text.trim e.stderr.toList)⟩] }

theorem run_runLint_of_error {f : Fault} (h : lintCommand project.lint target = .error f)
    (w : World) :
    (runLint project target).run w = (.error (.fault f), w) := by
  rw [runLint, h]
  rfl

theorem exists_fault_of_not_lints (h : ¬Lints project target) (w : World) :
    ∃ f, (runLint project target).run w = (.error (.fault f), w) := by
  cases hcommand : lintCommand project.lint target with
  | error f => exact ⟨f, run_runLint_of_error hcommand w⟩
  | ok words =>
    cases words with
    | none => exact absurd ⟨none, hcommand, fun _ hargv => by cases hargv⟩ h
    | some argv =>
      have hnull : Work.canStart argv = false := by
        rw [← Bool.not_eq_true]
        intro hstart
        exact h ⟨some argv, hcommand, fun words hwords => by rwa [← Option.some.inj hwords]⟩
      rw [runLint, hcommand]
      simp only [Work.run_bind, Work.run_start_of_not hnull]
      exact ⟨_, rfl⟩

/-- A lint command is started once; nothing is said about one that succeeds, and one line about any
other. -/
theorem exists_linted (h : Lints project target) (w : World) :
    ∃ succeeded v, (runLint project target).run w = (.ok succeeded, v) ∧
      Linted project target w succeeded v := by
  obtain ⟨words, hcommand, hwords⟩ := h
  cases words with
  | none =>
    rw [runLint, hcommand]
    exact ⟨true, w, rfl, .idle hcommand⟩
  | some argv =>
    have hrun := Work.run_start (hwords argv rfl) project.root w
    rw [runLint, hcommand]
    simp only [Work.run_bind_of_ok hrun]
    cases hstart : w.behaviour.outcome argv project.root w.tree w.runs with
    | error e =>
      rw [Behaviour.left_of_error hstart]
      exact ⟨_, _, rfl, .refused hcommand hstart⟩
    | ok e =>
      rw [Behaviour.left_of_ok hstart]
      by_cases hcode : e.code = 0
      · refine ⟨true, _, ?_, .succeeded hcommand hstart hcode⟩
        simp only [Except.map, hcode]
        rfl
      · have hfails : (e.code != 0) = true := bne_iff_ne.mpr hcode
        refine ⟨false, _, ?_, .failed hcommand hstart hcode⟩
        simp only [Except.map, hfails, if_true, beq_eq_false_iff_ne.mpr hcode]
        rfl

theorem lints_of_run_eq_ok {succeeded : Bool}
    (h : (runLint project target).run w = (.ok succeeded, v)) :
    Lints project target ∧ Linted project target w succeeded v := by
  have hlints : Lints project target := by
    by_contra hnot
    obtain ⟨f, hf⟩ := exists_fault_of_not_lints hnot w
    rw [h] at hf
    cases hf
  obtain ⟨succeeded', v', hrun, hlinted⟩ := exists_linted hlints w
  rw [h] at hrun
  cases hrun
  exact ⟨hlints, hlinted⟩

/-- Linting changes no file: there is no command, or programs leave files as they are, or there is
no directory to start them in. -/
def Calm (project : Project) (w : World) : Prop :=
  project.lint.truthy = false ∨ w.behaviour.Quiet ∨ w.tree.isFile project.root = true

theorem Calm.kept (h : Calm project w) (hbehaviour : v.behaviour = w.behaviour)
    (hfile : w.tree.isFile project.root = true → v.tree.isFile project.root = true) :
    Calm project v := by
  rw [Calm, hbehaviour]
  exact h.imp_right (Or.imp_right hfile)

theorem lintCommand_of_not_truthy {lint : Value} (h : lint.truthy = false) (target : Path) :
    lintCommand lint target = .ok none := by
  unfold lintCommand
  rw [h]
  rfl

theorem Linted.behaviour {succeeded : Bool} (h : Linted project target w succeeded v) :
    v.behaviour = w.behaviour := by
  cases h <;> rfl

theorem Linted.tree_eq {succeeded : Bool} (h : Linted project target w succeeded v)
    (hcalm : Calm project w) :
    v.tree = w.tree := by
  have hended : ∀ argv e, lintCommand project.lint target = .ok (some argv) →
      w.behaviour.outcome argv project.root w.tree w.runs = .ok e → e.tree = w.tree := by
    intro argv e hcommand hstart
    rcases hcalm with hlint | hquiet | hfile
    · rw [lintCommand_of_not_truthy hlint] at hcommand
      cases hcommand
    · rw [← Behaviour.left_of_ok hstart, hquiet.left_eq]
    · rw [← Behaviour.left_of_ok hstart, Behaviour.left_of_not_directory]
      obtain ⟨octets, hoctets⟩ := Tree.isFile_iff.mp hfile
      rw [Tree.isDirectory, hoctets]
  cases h with
  | idle => rfl
  | refused => rfl
  | succeeded hcommand hstart => exact hended _ _ hcommand hstart
  | failed hcommand hstart => exact hended _ _ hcommand hstart

/-- A program that is the lint command of a project for some file. -/
def IsLint (project : Project) (run : Run) : Prop :=
  run.directory = project.root ∧ ∃ target, lintCommand project.lint target = .ok (some run.argv)

theorem obeys_runLint {R : Tree → Tree → Prop} [IsPreorder Tree R] (project : Project)
    (target : Path) (w : World) :
    Work.Obeys R (IsLint project) (runLint project target) w := by
  cases hcommand : lintCommand project.lint target with
  | error f =>
    apply Work.Obeys.of_idle
    rw [run_runLint_of_error hcommand]
  | ok words =>
    rw [runLint, hcommand]
    cases words with
    | none => exact .of_idle rfl
    | some argv =>
      refine (Work.obeys_start fun _ _ => ⟨rfl, target, hcommand⟩).bind fun outcome v _ => ?_
      cases outcome with
      | error e => exact .bind (.of_idle rfl) fun _ _ _ => .of_idle rfl
      | ok ending =>
        obtain ⟨code, stderr⟩ := ending
        by_cases hcode : (code != 0) = true
        · simp only [hcode, if_true]
          exact .bind (.of_idle rfl) fun _ _ _ => .of_idle rfl
        · simp only [hcode]
          exact .of_idle rfl

end Lint

end Scriptwright.Project
