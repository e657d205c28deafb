import Scriptwright.Project.Build
import Scriptwright.Proofs.Project.Tree

/-!
# Where a build writes

Every document is compiled to a path below the output directory that is not the path of a document.
A file is copied to a path of its own name below the output directory, or onto that directory if it
is the root of the project.
-/

namespace Scriptwright.Project

namespace Path

theorem within_iff {p base : Path} :
    p.within base = true ↔ p.slashes = base.slashes ∧ base.names <+: p.names := by
  rw [within, Bool.and_eq_true, beq_iff_eq, List.isPrefixOf_iff_prefix]

theorem below_iff {p base : Path} :
    p.below base = true ↔ p.within base = true ∧ base.names.length < p.names.length := by
  rw [below, Bool.and_eq_true, decide_eq_true_iff]

theorem mem_around_iff_below {p q : Path} : q ∈ Tree.around p ↔ p.below q = true := by
  rw [mem_around, below_iff, within_iff]
  constructor
  · rintro ⟨hslashes, hstart, hne⟩
    refine ⟨⟨hslashes.symm, hstart⟩, lt_of_le_of_ne hstart.length_le fun hlength => hne ?_⟩
    have hnames := hstart.eq_of_length hlength
    cases p
    cases q
    simp_all
  · rintro ⟨⟨hslashes, hstart⟩, hlength⟩
    refine ⟨hslashes.symm, hstart, ?_⟩
    rintro rfl
    omega

theorem within_refl (p : Path) : p.within p = true := within_iff.mpr ⟨rfl, List.prefix_rfl⟩

theorem within_parent (p : Path) : p.within p.parent = true :=
  within_iff.mpr ⟨rfl, List.dropLast_prefix _⟩

theorem parent_within_of_below {p base : Path} (h : p.below base = true) :
    p.parent.within base = true := by
  obtain ⟨hwithin, hlength⟩ := below_iff.mp h
  obtain ⟨hslashes, hstart⟩ := within_iff.mp hwithin
  refine within_iff.mpr ⟨hslashes, List.prefix_of_prefix_length_le hstart
    (List.dropLast_prefix _) ?_⟩
  rw [parent, List.length_dropLast]
  omega

theorem below_of_not_within {p base : Path} (h : p.within base = true)
    (hnot : ¬base.within p = true) :
    p.below base = true := by
  refine below_iff.mpr ⟨h, ?_⟩
  obtain ⟨hslashes, hstart⟩ := within_iff.mp h
  by_contra hle
  have hnames := hstart.eq_of_length_le (by omega)
  exact hnot (within_iff.mpr ⟨hslashes.symm, hnames ▸ List.prefix_rfl⟩)

theorem join_of_rootless {base rel : Path} (h : rel.slashes = 0) :
    base.join rel = ⟨base.slashes, base.names ++ rel.names⟩ := by
  rw [join, if_neg (by omega)]

theorem below_join {base rel : Path} (h : rel.slashes = 0) (hnames : rel.names ≠ []) :
    (base.join rel).below base = true := by
  rw [join_of_rootless h, below_iff, within_iff]
  refine ⟨⟨rfl, List.prefix_append _ _⟩, ?_⟩
  have := List.length_pos_iff.mpr hnames
  simp only [List.length_append]
  omega

theorem name_join {base rel : Path} (h : rel.slashes = 0) (hnames : rel.names ≠ []) :
    (base.join rel).name = rel.name := by
  rw [join_of_rootless h, name, name, List.getLastD_eq_getLast?, List.getLastD_eq_getLast?,
    List.getLast?_append_of_ne_nil _ hnames]

theorem relativeTo?_of_within {p base : Path} (h : p.within base = true) :
    p.relativeTo? base = some ⟨0, p.names.drop base.names.length⟩ := if_pos h

/-- The way to a path keeps its last name, unless it ends where it starts. -/
theorem name_drop {p : Path} {k : Nat} (h : p.names.drop k ≠ []) :
    name ⟨0, p.names.drop k⟩ = p.name := by
  have hlength : k < p.names.length := by
    by_contra hle
    exact h (List.drop_eq_nil_of_le (by omega))
  rw [name, name, List.getLastD_eq_getLast?, List.getLastD_eq_getLast?, List.getLast?_drop,
    if_neg (by omega)]

end Path

/-! ## Suffixes -/

theorem isSource_eq_of_name_eq {p q : Path} (h : p.name = q.name) : isSource p = isSource q := by
  rw [isSource, isSource, Path.suffix, Path.suffix, h]

theorem name_withSuffix (p : Path) (s : String) :
    (p.withSuffix s).name = String.ofList (p.name.toList.take (Path.stemLength p.name.toList)) ++
      s := by
  rw [Path.withSuffix, Path.withName, Path.name, List.getLastD_eq_getLast?, List.getLast?_concat]
  rfl

theorem stemLength_append_outputSuffix (stem : List Char) :
    Path.stemLength (stem ++ outputSuffix.toList) = if stem = [] then 3 else stem.length := by
  have htail : (stem ++ outputSuffix.toList).reverse.takeWhile (· != '.') = ['s', 'j'] := by
    rw [List.reverse_append]
    rfl
  have hlength : outputSuffix.toList.length = 3 := rfl
  rw [Path.stemLength, htail, List.length_append, hlength]
  cases stem with
  | nil => rfl
  | cons c cs => simp

/-- What a document is compiled to is not a document. -/
theorem isSource_withSuffix (p : Path) : isSource (p.withSuffix outputSuffix) = false := by
  rw [isSource, Path.suffix, name_withSuffix, String.toList_append, String.toList_ofList,
    stemLength_append_outputSuffix]
  by_cases h : p.name.toList.take (Path.stemLength p.name.toList) = []
  · rw [h, if_pos rfl]
    with_unfolding_all rfl
  · rw [if_neg h, List.drop_left]
    with_unfolding_all rfl

theorem isSource_of_name_eq_manifestName {p : Path} (h : p.name = manifestName) :
    isSource p = true := by
  rw [isSource, Path.suffix, h]
  with_unfolding_all rfl

/-! ## Discovered files -/

theorem mem_candidates {t : Tree} {e : Path} {f : Located} (h : f ∈ candidates t e) :
    f.path.below f.base = true ∧ t.isFile f.path = true ∨ t.isDirectory f.path = false ∧
      f = ⟨e, e.parent⟩ := by
  rw [candidates] at h
  by_cases hdirectory : t.isDirectory e = true
  · rw [if_pos hdirectory] at h
    obtain ⟨p, hp, rfl⟩ := List.mem_map.mp h
    rw [Tree.filesBelow, Path.sorted, List.mem_mergeSort, List.mem_filter, Bool.and_eq_true] at hp
    exact Or.inl hp.2
  · rw [if_neg hdirectory, List.mem_singleton] at h
    subst h
    exact Or.inr ⟨Bool.eq_false_iff.mpr hdirectory, rfl⟩

/-- A discovery that returns has found every entry, and what it found. -/
theorem discover_eq_ok_iff {project : Project} {t : Tree} {found : Found} :
    discover project t = .ok found ↔ (∀ e ∈ project.entry, t.has e = true) ∧
      found.inputs = (project.entry.flatMap (candidates t)).filter
        (fun f => isSource f.path && decide (f.path ≠ project.manifest)) ∧
      found.others = (project.entry.flatMap (candidates t)).filter fun f => !isSource f.path := by
  rw [discover]
  cases hmissing : project.entry.find? fun e => !t.has e with
  | some e =>
    refine ⟨nofun, fun h => ?_⟩
    have hhas := h.1 e (List.mem_of_find?_eq_some hmissing)
    have hnot := List.find?_some hmissing
    simp [hhas] at hnot
  | none =>
    have hall : ∀ e ∈ project.entry, t.has e = true := by simpa using hmissing
    cases found with
    | mk inputs others =>
      simp only [List.partition_eq_filter_filter, List.filter_filter, Except.ok.injEq,
        Found.mk.injEq]
      constructor
      · rintro ⟨rfl, rfl⟩
        exact ⟨hall, by simp only [Bool.and_comm], rfl⟩
      · rintro ⟨-, rfl, rfl⟩
        exact ⟨by simp only [Bool.and_comm], rfl⟩

section Found

variable {project : Project} {t : Tree} {found : Found} (h : discover project t = .ok found)
include h

theorem exists_entry_of_mem_found {f : Located} (hf : f ∈ found.inputs ++ found.others) :
    ∃ e, t.has e = true ∧ f ∈ candidates t e := by
  obtain ⟨hentries, hinputs, hothers⟩ := discover_eq_ok_iff.mp h
  have hmem : f ∈ project.entry.flatMap (candidates t) := by
    rcases List.mem_append.mp hf with hf | hf
    · rw [hinputs] at hf
      exact (List.mem_filter.mp hf).1
    · rw [hothers] at hf
      exact (List.mem_filter.mp hf).1
  obtain ⟨e, he, hcandidate⟩ := List.mem_flatMap.mp hmem
  exact ⟨e, hentries e he, hcandidate⟩

theorem within_base_of_mem_found {f : Located} (hf : f ∈ found.inputs ++ found.others) :
    f.path.within f.base = true := by
  obtain ⟨e, -, hcandidate⟩ := exists_entry_of_mem_found h hf
  rcases mem_candidates hcandidate with ⟨hbelow, -⟩ | ⟨-, rfl⟩
  · exact (Path.below_iff.mp hbelow).1
  · exact Path.within_parent e

theorem isFile_of_mem_found {f : Located} (hf : f ∈ found.inputs ++ found.others) :
    t.isFile f.path = true := by
  obtain ⟨e, he, hcandidate⟩ := exists_entry_of_mem_found h hf
  rcases mem_candidates hcandidate with ⟨-, hfile⟩ | ⟨hnot, rfl⟩
  · exact hfile
  · exact Tree.isFile_of_has he hnot

theorem isSource_of_mem_inputs {f : Located} (hf : f ∈ found.inputs) : isSource f.path = true := by
  rw [(discover_eq_ok_iff.mp h).2.1, List.mem_filter, Bool.and_eq_true] at hf
  exact hf.2.1

theorem isSource_of_mem_others {f : Located} (hf : f ∈ found.others) : isSource f.path = false := by
  rw [(discover_eq_ok_iff.mp h).2.2, List.mem_filter, Bool.not_eq_true'] at hf
  exact hf.2

end Found

/-! ## Targets -/

theorem within_eq {f : Located} (h : f.path.within f.base = true) :
    within f = ⟨0, f.path.names.drop f.base.names.length⟩ := by
  rw [within, Path.relativeTo?_of_within h, Option.getD_some]

theorem below_outputPath (project : Project) {f : Located} (h : f.path.within f.base = true) :
    (outputPath project f).below project.output = true := by
  rw [outputPath, within_eq h]
  exact Path.below_join rfl (by simp [Path.withSuffix, Path.withName])

theorem isSource_outputPath (project : Project) {f : Located} (h : f.path.within f.base = true) :
    isSource (outputPath project f) = false := by
  rw [← isSource_withSuffix (within f)]
  apply isSource_eq_of_name_eq
  rw [outputPath, within_eq h]
  exact Path.name_join rfl (by simp [Path.withSuffix, Path.withName])

/-- A document is no target of a document. -/
theorem ne_outputPath (project : Project) {f : Located} {p : Path} (h : f.path.within f.base = true)
    (hp : isSource p = true) : p ≠ outputPath project f := by
  rintro rfl
  rw [isSource_outputPath project h] at hp
  cases hp

theorem copyPath_eq (project : Project) {f : Located} (h : f.path.within f.base = true) :
    ∃ base, f.path.within base = true ∧ (base = project.root ∨ base = f.base) ∧
      copyPath project f = project.output.join ⟨0, f.path.names.drop base.names.length⟩ := by
  rw [copyPath, within_eq h]
  by_cases hroot : f.path.within project.root = true
  · exact ⟨project.root, hroot, .inl rfl,
      by rw [Path.relativeTo?_of_within hroot, Option.getD_some]⟩
  · exact ⟨f.base, h, .inr rfl, by rw [Path.relativeTo?, if_neg hroot, Option.getD_none]⟩

/-- Only the root of a project, as a file, or a file that is found from itself would be copied onto
the output directory. -/
theorem copyPath_cases (project : Project) {f : Located} (h : f.path.within f.base = true) :
    copyPath project f = project.output ∧ (f.path = project.root ∨ f.path = f.base) ∨
      (copyPath project f).below project.output = true ∧
        isSource (copyPath project f) = isSource f.path := by
  obtain ⟨base, hwithin, hbase, heq⟩ := copyPath_eq project h
  rw [heq]
  by_cases hnil : f.path.names.drop base.names.length = []
  · apply Or.inl
    have hpath : f.path = base := by
      obtain ⟨hslashes, hnames⟩ := Path.within_iff.mp hwithin
      have hsame := hnames.eq_of_length_le (List.drop_eq_nil_iff.mp hnil)
      cases hp : f.path
      cases base
      simp_all
    refine ⟨by rw [Path.join_of_rootless rfl, hnil, List.append_nil], ?_⟩
    rwa [hpath]
  · apply Or.inr
    refine ⟨Path.below_join rfl hnil, isSource_eq_of_name_eq ?_⟩
    rw [Path.name_join rfl hnil, Path.name_drop hnil]

theorem path_ne_base_of_mem_found {project : Project} {t : Tree} {found : Found} {f : Located}
    (h : discover project t = .ok found) (hf : f ∈ found.inputs ++ found.others) (ht : t.Rooted) :
    f.path ≠ f.base := by
  intro heq
  have hfile := isFile_of_mem_found h hf
  obtain ⟨e, -, hcandidate⟩ := exists_entry_of_mem_found h hf
  rcases mem_candidates hcandidate with ⟨hbelow, -⟩ | ⟨-, rfl⟩
  · have hlonger := (Path.below_iff.mp hbelow).2
    rw [heq] at hlonger
    omega
  · have hnil : e.names = [] := by
      by_contra hne
      exact (Path.mem_around.mp (Path.parent_mem_around hne)).2.2 heq.symm
    have htop := ht e.slashes
    rw [← hnil, hfile] at htop
    cases htop

end Scriptwright.Project
