import Scriptwright.Proofs.Project.Tree

/-!
# Jobs on a file tree

A job writes one file: it takes what stands at its source and writes what is made of it to its
target. Jobs are done one after the other, each on the tree that those before have left. A file that
is no target keeps its content, and a target holds what the last job for it has made. Jobs can be
done again: if every source was written before it was used, or is as it was at the beginning, the
second time changes nothing.
-/

namespace Scriptwright.Project

open Scriptwright.Project.Tree (Wrote around)

structure Job where
  source : Path
  target : Path
  /-- What is written, from what stands at the source; nothing if the job fails there. -/
  make : ByteArray → Option ByteArray

/-- A job is done: what it makes of its source, as that is now, has been written. -/
def Job.Done (j : Job) (t t' : Tree) : Prop :=
  j.source ≠ j.target ∧
    ∃ octets made, t.get? j.source = some (.file octets) ∧ j.make octets = some made ∧
      Wrote t j.target made t'

/-- Jobs are done one after the other. -/
inductive Works : List Job → Tree → Tree → Prop
  | nil (t : Tree) : Works [] t t
  | cons {j : Job} {js : List Job} {t u t' : Tree} (hdone : j.Done t u) (hrest : Works js u t') :
      Works (j :: js) t t'

def targets (js : List Job) : List Path := js.map Job.target

theorem targets_append (js ks : List Job) : targets (js ++ ks) = targets js ++ targets ks :=
  List.map_append

namespace Works

variable {js ks : List Job} {t t' : Tree}

theorem append {u : Tree} (h : Works js t u) (h' : Works ks u t') : Works (js ++ ks) t t' := by
  induction h with
  | nil => exact h'
  | cons hdone _ ih => exact .cons hdone (ih h')

theorem exists_of_append (h : Works (js ++ ks) t t') : ∃ u, Works js t u ∧ Works ks u t' := by
  induction js generalizing t with
  | nil => exact ⟨t, .nil t, h⟩
  | cons j js ih =>
    cases h with
    | cons hdone hrest =>
      obtain ⟨u, hjs, hks⟩ := ih hrest
      exact ⟨u, .cons hdone hjs, hks⟩

/-! ## What jobs leave as it is -/

theorem wellFormed (h : Works js t t') (ht : t.WellFormed) : t'.WellFormed := by
  induction h with
  | nil => exact ht
  | cons hdone _ ih =>
    obtain ⟨-, _, _, -, -, hwrote⟩ := hdone
    exact ih (hwrote.wellFormed ht)

theorem prefix_paths (h : Works js t t') : t.paths <+: t'.paths := by
  induction h with
  | nil => exact List.prefix_rfl
  | cons hdone _ ih =>
    obtain ⟨-, _, _, -, -, hwrote⟩ := hdone
    exact hwrote.prefix_paths.trans ih

theorem kept (h : Works js t t') {q : Path} {i : Item} (hq : q ∉ targets js)
    (hi : t.get? q = some i) :
    t'.get? q = some i := by
  induction h with
  | nil => exact hi
  | cons hdone _ ih =>
    obtain ⟨-, _, _, -, -, hwrote⟩ := hdone
    obtain ⟨hne, hnotin⟩ := not_or.mp (mt List.mem_cons.mpr hq)
    exact ih hnotin (hwrote.kept hne hi)

/-- Where no job writes, at most a directory is made, around a target and where nothing stood. -/
theorem get?_of_notMem (h : Works js t t') {q : Path} (hq : q ∉ targets js) :
    t'.get? q = t.get? q ∨
      t.get? q = none ∧ t'.get? q = some .directory ∧ ∃ p ∈ targets js, q ∈ around p := by
  induction h with
  | nil => exact Or.inl rfl
  | @cons j js t u t' hdone hrest ih =>
    obtain ⟨-, _, _, -, -, hwrote⟩ := hdone
    obtain ⟨hne, hnotin⟩ := not_or.mp (mt List.mem_cons.mpr hq)
    rcases hwrote.get?_of_ne hne with hsame | ⟨hnone, hmade, haround⟩
    · rcases ih hnotin with hlater | ⟨hnone, hmade, p, hp, haround⟩
      · exact Or.inl (hlater.trans hsame)
      · exact Or.inr ⟨hsame.symm.trans hnone, hmade, p, List.mem_cons_of_mem _ hp, haround⟩
    · exact Or.inr ⟨hnone, hrest.kept hnotin hmade, j.target, List.mem_cons_self, haround⟩

theorem file_of_notMem (h : Works js t t') {q : Path} {octets : ByteArray} (hq : q ∉ targets js)
    (hfile : t'.get? q = some (.file octets)) : t.get? q = some (.file octets) := by
  induction h with
  | nil => exact hfile
  | cons hdone _ ih =>
    obtain ⟨-, _, _, -, -, hwrote⟩ := hdone
    obtain ⟨hne, hnotin⟩ := not_or.mp (mt List.mem_cons.mpr hq)
    exact hwrote.file_of_ne hne (ih hnotin hfile)

theorem directory (h : Works js t t') {q : Path} (hq : t.isDirectory q = true) :
    t'.isDirectory q = true := by
  induction h with
  | nil => exact hq
  | cons hdone _ ih =>
    obtain ⟨-, _, _, -, -, hwrote⟩ := hdone
    refine ih (Tree.isDirectory_iff.mpr (hwrote.kept ?_ (Tree.isDirectory_iff.mp hq)))
    rintro rfl
    simp [hwrote.isDirectory_target] at hq

/-! ## What jobs write -/

theorem exists_file (h : Works js t t') {q : Path} (hq : q ∈ targets js) :
    ∃ octets, t'.get? q = some (.file octets) := by
  induction h with
  | nil => cases hq
  | @cons j js t u t' hdone hrest ih =>
    by_cases hlater : q ∈ targets js
    · exact ih hlater
    · obtain ⟨-, _, made, -, -, hwrote⟩ := hdone
      have heq : q = j.target := (List.mem_cons.mp hq).resolve_right hlater
      exact ⟨made, hrest.kept hlater (heq ▸ hwrote.get?_target)⟩

theorem isDirectory_parent (h : Works js t t') {j : Job} (hj : j ∈ js) :
    t'.isDirectory j.target.parent = true := by
  obtain ⟨before, after, rfl⟩ := List.append_of_mem hj
  obtain ⟨u, -, hrest⟩ := h.exists_of_append
  cases hrest with
  | cons hdone hafter =>
    obtain ⟨-, _, _, -, -, hwrote⟩ := hdone
    exact hafter.directory hwrote.isDirectory_parent

/-- The last job for a target leaves there what it makes of its source; if no job before has written
that source, this is what stood there at the beginning. -/
theorem get?_target {before after : List Job} {j : Job} (h : Works (before ++ j :: after) t t')
    (hlast : j.target ∉ targets after) (hsource : j.source ∉ targets before) :
    ∃ octets made, t.get? j.source = some (.file octets) ∧ j.make octets = some made ∧
      t'.get? j.target = some (.file made) := by
  obtain ⟨u, hbefore, hrest⟩ := h.exists_of_append
  cases hrest with
  | cons hdone hafter =>
    obtain ⟨-, octets, made, hoctets, hmade, hwrote⟩ := hdone
    exact ⟨octets, made, hbefore.file_of_notMem hsource hoctets, hmade,
      hafter.kept hlast hwrote.get?_target⟩

/-! ## Doing jobs again -/

/-- What a second run needs: at each job, its source was written by a job before or is at the end
what it was at the beginning. -/
def Settled (js : List Job) (t t' : Tree) : Prop :=
  ∀ before j after, js = before ++ j :: after → j.source ∈ targets before ∨
    t'.get? j.source = t.get? j.source

/-- A source that no job has written before it was used is as it was, if it is not written
afterwards. -/
theorem settled_of_notMem {before after : List Job} {j : Job}
    (h : Works (before ++ j :: after) t t')
    (hafter : j.source ∈ targets after → j.source ∈ targets before) :
    j.source ∈ targets before ∨ t'.get? j.source = t.get? j.source := by
  by_cases hbefore : j.source ∈ targets before
  · exact Or.inl hbefore
  · obtain ⟨u, hfirst, hrest⟩ := h.exists_of_append
    cases hrest with
    | cons hdone hlater =>
      obtain ⟨hapart, octets, made, hoctets, -, hwrote⟩ := hdone
      rw [hfirst.file_of_notMem hbefore hoctets]
      exact Or.inr (hlater.kept (mt hafter hbefore) (hwrote.kept hapart hoctets))

/-- A second run, after some jobs: at their targets it agrees with the first run at the same place,
whose tree is `v`; everywhere else it sees what the first run has left. -/
structure Follows (finished : List Job) (v t' u : Tree) : Prop where
  agree : ∀ p ∈ targets finished, u.get? p = v.get? p
  later : ∀ p ∉ targets finished, u.get? p = t'.get? p
  paths : u.paths = t'.paths

section Follows

variable {finished rest : List Job} {j : Job} {u v v' : Tree} {made : ByteArray}

theorem Follows.isDirectory_parent (h : Follows finished v t' u)
    (hall : Works (finished ++ j :: rest) t t') :
    u.isDirectory j.target.parent = true := by
  have hdirectory := Tree.isDirectory_iff.mp (hall.isDirectory_parent (j := j) (by simp))
  rw [Tree.isDirectory_iff, h.later _ ?_, hdirectory]
  -- A directory at the end is no target.
  intro hmem
  obtain ⟨b, hb⟩ := hall.exists_file (targets_append finished _ ▸ List.mem_append_left _ hmem)
  rw [hdirectory] at hb
  cases hb

theorem Follows.put (h : Follows finished v t' u) (hfinished : Works finished t v)
    (hwrote : Wrote v j.target made v') (hfile : ∃ octets, t'.get? j.target = some (.file octets)) :
    Follows (finished ++ [j]) v' t' (u.put j.target (.file made)) := by
  refine ⟨fun p hp => ?_, fun p hp => ?_, ?_⟩
  · rw [Tree.get?_put]
    by_cases heq : p = j.target
    · rw [if_pos heq, heq, hwrote.get?_target]
    · have hmem : p ∈ targets finished := by simpa [targets, heq] using hp
      obtain ⟨b, hb⟩ := hfinished.exists_file hmem
      rw [if_neg heq, h.agree p hmem, hb, hwrote.kept heq hb]
  · have hne : p ∉ targets finished ∧ p ≠ j.target := by simpa [targets] using hp
    rw [Tree.get?_put, if_neg hne.2, h.later p hne.1]
  · obtain ⟨b, hb⟩ := hfile
    have hhas : u.has j.target = true := by
      rw [Tree.has_iff_mem_paths, h.paths, ← Tree.has_iff_mem_paths]
      exact Tree.has_iff.mpr ⟨_, hb⟩
    rw [Tree.paths_put, if_pos hhas, h.paths]

theorem Follows.step (h : Follows finished v t' u) (hfinished : Works finished t v)
    (hdone : j.Done v v') (hrest : Works rest v' t')
    (hsettled : j.source ∈ targets finished ∨ t'.get? j.source = t.get? j.source) :
    ∃ u', j.Done u u' ∧ Follows (finished ++ [j]) v' t' u' := by
  have hall : Works (finished ++ j :: rest) t t' := hfinished.append (.cons hdone hrest)
  obtain ⟨hapart, octets, made, hoctets, hmade, hwrote⟩ := hdone
  have hsource : u.get? j.source = some (.file octets) := by
    by_cases hs : j.source ∈ targets finished
    · exact (h.agree _ hs).trans hoctets
    · rw [h.later _ hs, hsettled.resolve_left hs]
      exact hfinished.file_of_notMem hs hoctets
  have hfile : ∃ octets, t'.get? j.target = some (.file octets) :=
    hall.exists_file (List.mem_map_of_mem (by simp))
  have htarget : u.isDirectory j.target = false := by
    by_cases hp : j.target ∈ targets finished
    · have hv := hwrote.isDirectory_target
      rwa [Tree.isDirectory, ← h.agree _ hp] at hv
    · obtain ⟨b, hb⟩ := hfile
      rw [Tree.isDirectory, h.later _ hp, hb]
  exact ⟨_, ⟨hapart, octets, made, hsource, hmade, .there (h.isDirectory_parent hall) htarget⟩,
    h.put hfinished hwrote hfile⟩

theorem Follows.run (h : Follows finished v t' u) (hfinished : Works finished t v)
    (hrest : Works rest v t') (hsettled : Settled (finished ++ rest) t t') : ∃ u', Works rest u u' ∧
      Follows (finished ++ rest) t' t' u' := by
  induction rest generalizing finished u v with
  | nil =>
    cases hrest
    exact ⟨u, .nil u, by rwa [List.append_nil]⟩
  | cons j rest ih =>
    cases hrest with
    | cons hdone hrest =>
      obtain ⟨u₁, hdone', hfollows⟩ := h.step hfinished hdone hrest (hsettled finished j rest rfl)
      have happend : finished ++ j :: rest = (finished ++ [j]) ++ rest :=
        by rw [List.append_assoc]; rfl
      rw [happend] at hsettled ⊢
      obtain ⟨u₂, hworks, hresult⟩ :=
        ih hfollows (hfinished.append (.cons hdone (.nil _))) hrest hsettled
      exact ⟨u₂, .cons hdone' hworks, hresult⟩

end Follows

/-- Settled jobs that have been done can be done again, and this changes nothing. -/
theorem again (h : Works js t t') (hsettled : Settled js t t') (hnodup : t'.paths.Nodup) :
    Works js t' t' := by
  have hstart : Follows [] t t' t' := ⟨nofun, fun _ _ => rfl, rfl⟩
  obtain ⟨u, hworks, hfollows⟩ := hstart.run (.nil t) h hsettled
  have hget : ∀ p, u.get? p = t'.get? p := by
    intro p
    by_cases hp : p ∈ targets js
    · exact hfollows.agree p hp
    · exact hfollows.later p hp
  rwa [Tree.eq_of_get?_eq hfollows.paths hnodup hget] at hworks

end Works

end Scriptwright.Project
