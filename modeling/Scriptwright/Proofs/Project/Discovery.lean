import Mathlib.Data.List.TakeWhile
import Scriptwright.Proofs.Project.Build

/-!
# What a discovery finds

Entry by entry, each file at the entry or below it is found once: as a document if its name says so,
unless it is the manifest, and else as a file to copy. The files of an entry come in the order of
their paths, name by name.
-/

namespace Scriptwright.Project

/-! ## The order of paths -/

namespace Path

/-- A path comes before another one if its names do, compared from the first one on. -/
def Before (p q : Path) : Prop := List.Lex (· < ·) p.names q.names

theorem namesLe_iff {as bs : List String} : namesLe as bs = true ↔ List.le as bs := by
  induction as generalizing bs with
  | nil => exact ⟨fun _ => List.nil_le bs, fun _ => rfl⟩
  | cons a as ih =>
    cases bs with
    | nil => exact ⟨fun h => absurd h Bool.false_ne_true, fun h => absurd List.Lex.nil h⟩
    | cons b bs =>
      refine Iff.trans ?_ List.cons_le_cons_iff.symm
      rw [namesLe]
      by_cases h : a = b
      · subst h
        rw [if_pos (beq_self_eq_true a), ih, or_iff_right (String.lt_irrefl a), and_iff_right rfl]
        exact Iff.rfl
      · rw [if_neg (by simpa using h), decide_eq_true_iff, or_iff_left fun heq => h heq.1]

theorem pairwise_sorted (ps : List Path) :
    (sorted ps).Pairwise fun p q => List.le p.names q.names := by
  have htrans : ∀ p q r : Path, namesLe p.names q.names = true → namesLe q.names r.names = true →
      namesLe p.names r.names = true := by
    intro p q r hpq hqr
    exact namesLe_iff.mpr (List.le_trans (namesLe_iff.mp hpq) (namesLe_iff.mp hqr))
  have htotal : ∀ p q : Path, (namesLe p.names q.names || namesLe q.names p.names) = true := by
    intro p q
    rw [Bool.or_eq_true, namesLe_iff, namesLe_iff]
    exact List.le_total p.names q.names
  exact (List.pairwise_mergeSort htrans htotal ps).imp namesLe_iff.mp

theorem eq_of_names_eq {p q base : Path} (hp : p.within base = true) (hq : q.within base = true)
    (h : p.names = q.names) : p = q := by
  have hslashes := (within_iff.mp hp).1.trans (within_iff.mp hq).1.symm
  cases p
  cases q
  simp_all

theorem within_iff_eq_or_below {p base : Path} :
    p.within base = true ↔ p = base ∨ p.below base = true := by
  constructor
  · intro h
    by_cases hback : base.within p = true
    · have hnames := (within_iff.mp h).2.eq_of_length_le (within_iff.mp hback).2.length_le
      exact .inl (eq_of_names_eq h (within_refl base) hnames.symm)
    · exact .inr (below_of_not_within h hback)
  · rintro (rfl | h)
    · exact within_refl p
    · exact (below_iff.mp h).1

end Path

namespace Tree

variable {t : Tree} {p q : Path}

theorem mem_filesBelow : q ∈ t.filesBelow p ↔ q.below p = true ∧ t.isFile q = true := by
  rw [filesBelow, Path.sorted, List.mem_mergeSort, List.mem_filter, Bool.and_eq_true]
  refine and_iff_right_of_imp fun h => ?_
  obtain ⟨octets, hoctets⟩ := isFile_iff.mp h.2
  exact has_iff_mem_paths.mp (has_iff.mpr ⟨_, hoctets⟩)

/-- In a tree in which each path stands once, the files below a path come in increasing order. -/
theorem pairwise_filesBelow (h : t.paths.Nodup) (p : Path) :
    (t.filesBelow p).Pairwise Path.Before := by
  have hnodup : (t.filesBelow p).Nodup := (List.mergeSort_perm _ _).nodup_iff.mpr (h.filter _)
  -- Sorting gives the order up to equal names; that names differ comes from the tree.
  refine ((Path.pairwise_sorted _).and hnodup).imp_of_mem fun hq hr h => ?_
  obtain ⟨hle, hne⟩ := h
  have hwithin : ∀ s ∈ t.filesBelow p, s.within p = true := fun s hs =>
    (Path.below_iff.mp (mem_filesBelow.mp hs).1).1
  rcases List.le_iff_lt_or_eq.mp hle with hlt | heq
  · exact hlt
  · exact absurd (Path.eq_of_names_eq (hwithin _ hq) (hwithin _ hr) heq) hne

end Tree

/-! ## Names of documents -/

/-- A name with a point that is not its first character, and behind it `yml` or `yaml` in any letter
case. -/
def IsDocumentName (name : String) : Prop :=
  ∃ stem ending, name.toList = stem ++ '.' :: ending ∧ stem ≠ [] ∧
    (ending.map Char.toLower = ['y', 'm', 'l'] ∨ ending.map Char.toLower = ['y', 'a', 'm', 'l'])

/-- A point divides a name if characters stand on both sides of it and none behind it is a point. -/
theorem stemLength_append_point {stem ending : List Char} (hlast : '.' ∉ ending) :
    Path.stemLength (stem ++ '.' :: ending) =
      if stem = [] ∨ ending = [] then stem.length + ending.length + 1 else stem.length := by
  have htail : (stem ++ '.' :: ending).reverse.takeWhile (· != '.') = ending.reverse := by
    rw [List.reverse_append, List.reverse_cons, List.append_assoc, List.takeWhile_append_of_pos]
    · simp
    · intro c hc
      rw [bne_iff_ne]
      rintro rfl
      exact hlast (List.mem_reverse.mp hc)
  rw [Path.stemLength, htail]
  cases stem with
  | nil => simp
  | cons c stem =>
    cases ending with
    | nil => simp
    | cons d ending =>
      simp only [List.length_append, List.length_cons, List.length_reverse, reduceCtorEq,
        or_self, if_false]
      rw [if_neg (by simp)]
      omega

theorem stemLength_of_no_point {name : List Char} (h : '.' ∉ name) :
    Path.stemLength name = name.length := by
  have htail : name.reverse.takeWhile (· != '.') = name.reverse := by
    refine List.takeWhile_eq_self_iff.mpr fun c hc => bne_iff_ne.mpr ?_
    rintro rfl
    exact h (List.mem_reverse.mp hc)
  rw [Path.stemLength, htail, List.length_reverse, if_pos (by simp)]

/-- A suffix that is not empty is the last point and what stands behind it. -/
theorem exists_stem_of_drop_stemLength {name : List Char} {c : Char} {cs : List Char}
    (h : name.drop (Path.stemLength name) = c :: cs) : ∃ stem, stem ≠ [] ∧
      name = stem ++ '.' :: cs := by
  by_cases hpoint : '.' ∈ name
  · -- The first point of the reversed name is the last one of the name.
    obtain ⟨behind, before, hname, hlast⟩ :=
      List.eq_append_cons_of_mem (List.mem_reverse.mpr hpoint)
    obtain rfl : name = before.reverse ++ '.' :: behind.reverse := by
      rw [← List.reverse_reverse name, hname]
      simp
    rw [stemLength_append_point (by simpa using hlast)] at h
    split at h
    · rw [List.drop_eq_nil_of_le (by simp; omega)] at h
      cases h
    · next hboth =>
      rw [List.drop_left] at h
      obtain ⟨rfl, rfl⟩ := List.cons.inj h
      exact ⟨before.reverse, fun hnil => hboth (.inl hnil), rfl⟩
  · rw [stemLength_of_no_point hpoint, List.drop_length] at h
    cases h

theorem isSource_iff_suffix {p : Path} :
    isSource p = true ↔
      p.suffix.toList.map Char.toLower = ['.', 'y', 'm', 'l'] ∨
        p.suffix.toList.map Char.toLower = ['.', 'y', 'a', 'm', 'l'] := by
  rw [isSource, List.contains_iff_mem, sourceSuffixes, List.mem_cons,
    List.mem_singleton, ← String.toList_inj, ← String.toList_inj, String.toList_map]
  exact Iff.rfl

theorem ne_nil_of_toLower {ending : List Char}
    (h : ending.map Char.toLower = ['y', 'm', 'l'] ∨
      ending.map Char.toLower = ['y', 'a', 'm', 'l']) :
    ending ≠ [] ∧ '.' ∉ ending := by
  constructor
  · rintro rfl
    rcases h with h | h <;> cases h
  · intro hmem
    have hpoint : Char.toLower '.' ∈ ending.map Char.toLower := List.mem_map_of_mem hmem
    rcases h with h | h <;> rw [h] at hpoint <;> revert hpoint <;> decide

theorem isSource_iff {p : Path} : isSource p = true ↔ IsDocumentName p.name := by
  rw [isSource_iff_suffix, Path.suffix, String.toList_ofList]
  constructor
  · intro h
    obtain ⟨c, cs, hsuffix⟩ : ∃ c cs,
      p.name.toList.drop (Path.stemLength p.name.toList) = c :: cs :=
      List.exists_cons_of_ne_nil fun hnil => by simp [hnil] at h
    obtain ⟨stem, hstem, hname⟩ := exists_stem_of_drop_stemLength hsuffix
    rw [hsuffix, List.map_cons] at h
    refine ⟨stem, cs, hname, hstem, h.imp (fun h => ?_) (fun h => ?_)⟩
    · exact (List.cons.inj h).2
    · exact (List.cons.inj h).2
  · rintro ⟨stem, ending, hname, hstem, hending⟩
    obtain ⟨hne, hlast⟩ := ne_nil_of_toLower hending
    rw [hname, stemLength_append_point hlast, if_neg (not_or.mpr ⟨hstem, hne⟩), List.drop_left,
      List.map_cons]
    rcases hending with h | h <;> rw [h]
    · exact .inl rfl
    · exact .inr rfl

instance (name : String) : Decidable (IsDocumentName name) :=
  decidable_of_iff (isSource ⟨0, [name]⟩ = true) isSource_iff

/-! ## The files of an entry -/

/-- What the files of an entry are placed relative to: a directory itself, and the directory of a
file. -/
def baseOf (t : Tree) (entry : Path) : Path := if t.isDirectory entry then entry else entry.parent

theorem isFile_within_iff_of_isDirectory {t : Tree} {e : Path}
    (he : t.isDirectory e = true) {p : Path} :
    t.isFile p = true ∧ p.within e = true ↔ p ∈ t.filesBelow e := by
  rw [Tree.mem_filesBelow, Path.within_iff_eq_or_below, and_comm, or_and_right, or_iff_right]
  rintro ⟨rfl, hfile⟩
  obtain ⟨octets, hoctets⟩ := Tree.isFile_iff.mp hfile
  rw [Tree.isDirectory_iff.mp he] at hoctets
  cases hoctets

section Candidates

variable {t : Tree} (ht : t.WellFormed) {e : Path}
include ht

/-- Nothing lies below a file, so the only file within it is itself. -/
theorem isFile_within_iff_of_isFile (he : t.isFile e = true) {p : Path} :
    t.isFile p = true ∧ p.within e = true ↔ p = e := by
  constructor
  · rintro ⟨hfile, hwithin⟩
    refine (Path.within_iff_eq_or_below.mp hwithin).resolve_right fun hbelow => ?_
    obtain ⟨octets, hoctets⟩ := Tree.isFile_iff.mp hfile
    have hdirectory := ht.inside p (Tree.has_iff.mpr ⟨_, hoctets⟩) e
      (Path.mem_around_iff_below.mpr hbelow)
    obtain ⟨others, hothers⟩ := Tree.isFile_iff.mp he
    rw [Tree.isDirectory_iff.mp hdirectory] at hothers
    cases hothers
  · rintro rfl
    exact ⟨he, Path.within_refl p⟩

theorem mem_candidates_iff (he : t.has e = true) {f : Located} :
    f ∈ candidates t e ↔ (t.isFile f.path = true ∧ f.path.within e = true) ∧
      f.base = baseOf t e := by
  obtain ⟨p, base⟩ := f
  rw [candidates, baseOf]
  cases hdirectory : t.isDirectory e with
  | true =>
    rw [if_pos rfl, if_pos rfl, isFile_within_iff_of_isDirectory hdirectory]
    simp [eq_comm]
  | false =>
    rw [if_neg Bool.false_ne_true, if_neg Bool.false_ne_true,
      isFile_within_iff_of_isFile ht (Tree.isFile_of_has he hdirectory)]
    simp

theorem pairwise_candidates (e : Path) :
    (candidates t e).Pairwise fun f g => f.path.Before g.path := by
  rw [candidates]
  split
  · exact List.pairwise_map.mpr (Tree.pairwise_filesBelow ht.nodup e)
  · exact List.pairwise_singleton _ _

end Candidates

/-- The two lists for an entry hold just the files at it or below it, with the right base. As each
is strictly increasing, no file stands twice in a list; and none stands in both. -/
structure Listed (project : Project) (t : Tree) (entry : Path) (inputs others : List Located) :
    Prop where
  mem_inputs : ∀ f, f ∈ inputs ↔
    ((t.isFile f.path = true ∧ f.path.within entry = true) ∧ f.base = baseOf t entry) ∧
      IsDocumentName f.path.name ∧ f.path ≠ project.manifest
  mem_others : ∀ f, f ∈ others ↔
    ((t.isFile f.path = true ∧ f.path.within entry = true) ∧ f.base = baseOf t entry) ∧
      ¬IsDocumentName f.path.name
  inputs_increase : inputs.Pairwise fun f g => f.path.Before g.path
  others_increase : others.Pairwise fun f g => f.path.Before g.path

/-- A discovery divides the files of each entry, in the order of the entries, into documents and
files to copy. The manifest is left out if it is a document by its name, and else copied. -/
theorem discover_partition (project : Project) (t : Tree) (ht : t.WellFormed)
    (hentries : ∀ e ∈ project.entry, t.has e = true) :
    ∃ inputsOf othersOf : Path → List Located,
      discover project t = .ok ⟨project.entry.flatMap inputsOf, project.entry.flatMap othersOf⟩ ∧
      ∀ e ∈ project.entry, Listed project t e (inputsOf e) (othersOf e) := by
  refine ⟨fun e => (candidates t e).filter fun f =>
    isSource f.path && decide (f.path ≠ project.manifest), fun e => (candidates t e).filter fun f =>
      !isSource f.path, ?_, fun e he => ?_⟩
  · refine discover_eq_ok_iff.mpr ⟨hentries, ?_, ?_⟩
    · rw [List.filter_flatMap]
    · rw [List.filter_flatMap]
  · have hcandidate (f : Located) := @mem_candidates_iff t ht e (hentries e he) f
    refine ⟨fun f => ?_, fun f => ?_, (pairwise_candidates ht e).filter _,
      (pairwise_candidates ht e).filter _⟩
    · rw [List.mem_filter, hcandidate, Bool.and_eq_true, decide_eq_true_iff, isSource_iff]
    · rw [List.mem_filter, hcandidate, Bool.not_eq_true', ← Bool.not_eq_true, isSource_iff]

/-- The manifest, a document with two points in its name, a hidden file, and a document that is an
entry of its own. -/
def appFiles : Tree :=
  [(⟨1, []⟩, .directory), (inApp [], .directory), (inApp [manifestName], .file .empty),
    (inApp ["a.b.YML"], .file .empty), (inApp [".yml"], .file .empty), (inApp ["src"], .directory),
    (inApp ["src", "x.yaml"], .file .empty)]

theorem discover_partition_app :
    (appFiles.WellFormed ∧ ∀ e ∈ [inApp [], inApp ["src", "x.yaml"]], appFiles.has e = true) ∧
    ∃ inputs inputs' others others',
      discover (appProject [inApp [], inApp ["src", "x.yaml"]] (inApp ["out"])) appFiles =
        .ok ⟨inputs ++ inputs', others ++ others'⟩ ∧
      (⟨inApp ["a.b.YML"], inApp []⟩ ∈ inputs ∧ ⟨inApp ["src", "x.yaml"], inApp []⟩ ∈ inputs ∧
        ⟨inApp [manifestName], inApp []⟩ ∉ inputs ∧ ⟨inApp [".yml"], inApp []⟩ ∈ others) ∧
      ⟨inApp ["src", "x.yaml"], inApp ["src"]⟩ ∈ inputs' ∧ others' = [] := by
  have htree : appFiles.WellFormed := by decide +kernel
  have hentries : ∀ e ∈ [inApp [], inApp ["src", "x.yaml"]], appFiles.has e = true :=
    by decide +kernel
  obtain ⟨inputsOf, othersOf, hfound, hlisted⟩ :=
    discover_partition (appProject [inApp [], inApp ["src", "x.yaml"]] (inApp ["out"])) appFiles
      htree hentries
  have happ := hlisted (inApp []) (.head _)
  have hdocument := hlisted (inApp ["src", "x.yaml"]) (.tail _ (.head _))
  refine ⟨⟨htree, hentries⟩, inputsOf (inApp []), inputsOf (inApp ["src", "x.yaml"]),
    othersOf (inApp []), othersOf (inApp ["src", "x.yaml"]),
    by simpa [appProject] using hfound, ⟨?_, ?_, ?_, ?_⟩, ?_, ?_⟩
  · exact (happ.mem_inputs _).mpr (by decide +kernel)
  · exact (happ.mem_inputs _).mpr (by decide +kernel)
  · exact (happ.mem_inputs _).not.mpr (by decide +kernel)
  · exact (happ.mem_others _).mpr (by decide +kernel)
  · exact (hdocument.mem_inputs _).mpr (by decide +kernel)
  · refine List.eq_nil_iff_forall_not_mem.mpr fun f hf => ?_
    obtain ⟨⟨hfile, -⟩, hname⟩ := (hdocument.mem_others f).mp hf
    rw [isFile_within_iff_of_isFile htree (by decide +kernel)] at hfile
    exact hname (hfile ▸ by decide +kernel)

end Scriptwright.Project
