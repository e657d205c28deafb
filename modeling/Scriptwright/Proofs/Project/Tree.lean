import Scriptwright.Project.Tree
import Mathlib.Data.List.Infix
import Mathlib.Data.List.Nodup

/-!
# Changes of file trees

What stands at each path after a file was written or directories were made, seen through
`Tree.get?`. In a well-formed tree a path stands once, and everything lies in directories; writing
and making directories keep it so.
-/

namespace Scriptwright.Project

instance : DecidableEq Item
  | .directory, .directory => isTrue rfl
  | .directory, .file _ => isFalse nofun
  | .file _, .directory => isFalse nofun
  | .file a, .file b => decidable_of_iff (a.data = b.data)
      ⟨fun h => congrArg Item.file (ByteArray.ext h), fun h =>
        congrArg ByteArray.data (Item.file.inj h)⟩

namespace Path

theorem around_eq_append {p : Path} (h : p.names ≠ []) :
    Tree.around p = Tree.around p.parent ++ [p.parent] := by
  obtain ⟨ns, n, hns⟩ := List.eq_nil_or_concat' p.names |>.resolve_left h
  have hparent : p.parent = ⟨p.slashes, ns⟩ := by simp [parent, hns]
  rw [hparent, Tree.around, Tree.around, hns, List.length_append, List.length_singleton,
    List.range_succ, List.map_append, List.map_singleton, List.take_left']
  · congr 1
    apply List.map_congr_left
    intro k hk
    rw [List.take_append_of_le_length (List.mem_range.mp hk).le]
  · rfl

theorem mem_around {p q : Path} :
    q ∈ Tree.around p ↔ q.slashes = p.slashes ∧ q.names <+: p.names ∧ q ≠ p := by
  constructor
  · intro h
    obtain ⟨n, hn, rfl⟩ := List.mem_map.mp h
    refine ⟨rfl, List.take_prefix n _, fun heq => ?_⟩
    have hlength := congrArg (fun r : Path => r.names.length) heq
    have hlt := List.mem_range.mp hn
    simp only [List.length_take] at hlength
    omega
  · rintro ⟨hslashes, hstart, hne⟩
    have hnames : q.names ≠ p.names := fun heq => hne (by cases p; cases q; simp_all)
    have hlt : q.names.length < p.names.length :=
      lt_of_le_of_ne hstart.length_le fun heq => hnames (hstart.eq_of_length heq)
    refine List.mem_map.mpr ⟨q.names.length, List.mem_range.mpr hlt, ?_⟩
    rw [← hslashes, ← List.prefix_iff_eq_take.mp hstart]

theorem parent_mem_around {p : Path} (h : p.names ≠ []) : p.parent ∈ Tree.around p := by
  rw [around_eq_append h]
  exact List.mem_append_right _ (List.mem_singleton_self _)

theorem names_ne_nil {p : Path} (h : p.parent ≠ p) : p.names ≠ [] :=
  fun hnil => h (by cases p; simp_all [parent])

theorem mem_around_trans {p q r : Path} (hq : q ∈ Tree.around r) (hr : r ∈ Tree.around p) :
    q ∈ Tree.around p := by
  obtain ⟨hqs, hqn, hqr⟩ := mem_around.mp hq
  obtain ⟨hrs, hrn, -⟩ := mem_around.mp hr
  refine mem_around.mpr ⟨hqs.trans hrs, hqn.trans hrn, ?_⟩
  rintro rfl
  have hnames : q.names = r.names := hqn.eq_of_length_le hrn.length_le
  exact hqr (by cases q; cases r; simp_all)

end Path

namespace Tree

/-! ## Looking up -/

def paths (t : Tree) : List Path := t.map (·.1)

theorem get?_cons (p q : Path) (i : Item) (t : Tree) :
    get? ((p, i) :: t) q = if q = p then some i else t.get? q := by
  rw [get?, List.lookup_cons]
  by_cases h : q = p
  · simp [h]
  · simp [h, beq_eq_false_iff_ne.mpr h, get?]

theorem get?_put (t : Tree) (p q : Path) (i : Item) :
    (t.put p i).get? q = if q = p then some i else t.get? q := by
  induction t with
  | nil => exact get?_cons p q i []
  | cons e t ih =>
    obtain ⟨r, j⟩ := e
    by_cases hr : r = p
    · subst hr
      rw [put, if_pos rfl, get?_cons, get?_cons]
      split <;> rfl
    · rw [put, if_neg hr, get?_cons, get?_cons, ih]
      by_cases hq : q = r
      · rw [if_pos hq, if_pos hq, if_neg (hq ▸ hr)]
      · rw [if_neg hq, if_neg hq]

theorem has_iff_mem_paths {t : Tree} {p : Path} : t.has p = true ↔ p ∈ t.paths := by
  induction t with
  | nil => simp [has, get?, paths]
  | cons e t ih =>
    obtain ⟨q, i⟩ := e
    rw [has, get?_cons, paths, List.map_cons, List.mem_cons]
    by_cases h : p = q
    · simp [h]
    · rw [if_neg h, ← has, ih]
      simp [h, paths]

theorem has_iff {t : Tree} {p : Path} : t.has p = true ↔ ∃ i, t.get? p = some i :=
  Option.isSome_iff_exists

theorem isFile_iff {t : Tree} {p : Path} :
    t.isFile p = true ↔ ∃ octets, t.get? p = some (.file octets) := by
  unfold isFile
  split
  · next octets h => simp [h]
  · next h => simpa using h

theorem isDirectory_iff {t : Tree} {p : Path} :
    t.isDirectory p = true ↔ t.get? p = some .directory := by
  unfold isDirectory
  split
  · next h => simp [h]
  · next h => simpa using h

theorem isFile_of_has {t : Tree} {p : Path} (h : t.has p = true) (hnot : t.isDirectory p = false) :
    t.isFile p = true := by
  obtain ⟨i, hi⟩ := has_iff.mp h
  cases i with
  | file octets => exact isFile_iff.mpr ⟨octets, hi⟩
  | directory =>
    rw [isDirectory_iff.mpr hi] at hnot
    cases hnot

theorem has_eq_false_iff {t : Tree} {p : Path} : t.has p = false ↔ t.get? p = none := by
  rw [has, Option.isSome_eq_false_iff, Option.isNone_iff_eq_none]

theorem paths_put (t : Tree) (p : Path) (i : Item) :
    (t.put p i).paths = if t.has p then t.paths else t.paths ++ [p] := by
  induction t with
  | nil => rfl
  | cons e t ih =>
    obtain ⟨q, j⟩ := e
    by_cases h : q = p
    · subst h
      rw [put, if_pos rfl, if_pos (has_iff.mpr ⟨j, by rw [get?_cons, if_pos rfl]⟩)]
      rfl
    · have hhas : has ((q, j) :: t) p = has t p := by rw [has, get?_cons, if_neg (Ne.symm h)]; rfl
      rw [put, if_neg h, hhas]
      change q :: paths (put t p i) = _
      rw [ih]
      split <;> rfl

/-- Two trees with the same paths in the same order hold the same if every look-up agrees. -/
theorem eq_of_get?_eq {t u : Tree} (hpaths : u.paths = t.paths) (hnodup : t.paths.Nodup)
    (hget : ∀ p, u.get? p = t.get? p) : u = t := by
  induction t generalizing u with
  | nil => exact List.map_eq_nil_iff.mp hpaths
  | cons e t ih =>
    obtain ⟨p, i⟩ := e
    obtain ⟨⟨q, j⟩, u, rfl, rfl, hrest⟩ := List.map_eq_cons_iff.mp hpaths
    obtain ⟨hnotin, hnodup⟩ := List.nodup_cons.mp hnodup
    have hhead := hget q
    rw [get?_cons, get?_cons, if_pos rfl, if_pos rfl] at hhead
    have htail : u = t := by
      apply ih hrest hnodup
      intro r
      by_cases hr : r = q
      · have habsent : ∀ s : Tree, q ∉ s.paths → s.get? r = none := fun s hs =>
          has_eq_false_iff.mp (by simpa [hr] using mt has_iff_mem_paths.mp hs)
        have hnotin' : q ∉ paths u := by rwa [show paths u = paths t from hrest]
        rw [habsent t hnotin, habsent u hnotin']
      · have hr' := hget r
        rwa [get?_cons, get?_cons, if_neg hr, if_neg hr] at hr'
    rw [htail, Option.some.inj hhead]

theorem nodup_put {t : Tree} {p : Path} {i : Item} (h : t.paths.Nodup) :
    (t.put p i).paths.Nodup := by
  rw [paths_put]
  by_cases hp : t.has p = true
  · rwa [if_pos hp]
  · rw [if_neg hp]
    refine List.nodup_append.mpr ⟨h, List.nodup_singleton p, fun q hq r hr heq => ?_⟩
    exact hp (has_iff_mem_paths.mpr (List.mem_singleton.mp hr ▸ heq ▸ hq))

theorem prefix_paths_put (t : Tree) (p : Path) (i : Item) : t.paths <+: (t.put p i).paths := by
  rw [paths_put]
  split
  · exact List.prefix_rfl
  · exact List.prefix_append _ _

/-! ## Making directories -/

/-- The tree with a directory at each of some paths where nothing stands. -/
def furnished (t : Tree) (ps : List Path) : Tree :=
  ps.foldl (fun t q => if t.has q then t else t.put q .directory) t

theorem furnished_cons (t : Tree) (p : Path) (ps : List Path) :
    t.furnished (p :: ps) = (if t.has p then t else t.put p .directory).furnished ps := rfl

theorem get?_furnished (t : Tree) (ps : List Path) (q : Path) :
    (t.furnished ps).get? q = (t.get? q).or (if q ∈ ps then some .directory else none) := by
  induction ps generalizing t with
  | nil => simp [furnished]
  | cons p ps ih =>
    rw [furnished_cons, ih]
    by_cases hq : q = p
    · subst hq
      by_cases hhas : t.has q = true
      · obtain ⟨i, hi⟩ := has_iff.mp hhas
        simp [hhas, hi]
      · have hnone := has_eq_false_iff.mp (Bool.eq_false_iff.mpr hhas)
        simp [hhas, hnone, get?_put]
    · by_cases hhas : t.has p = true
      · simp [hhas, hq]
      · simp [hhas, hq, get?_put]

theorem isDirectory_furnished {t : Tree} {ps : List Path} {q : Path} (h : t.has q = false)
    (hq : q ∈ ps) :
    (t.furnished ps).isDirectory q = true := by
  rw [isDirectory_iff, get?_furnished, has_eq_false_iff.mp h, if_pos hq]
  rfl

theorem nodup_furnished {t : Tree} (ps : List Path) (h : t.paths.Nodup) :
    (t.furnished ps).paths.Nodup := by
  induction ps generalizing t with
  | nil => exact h
  | cons p ps ih =>
    rw [furnished_cons]
    apply ih
    split
    · exact h
    · exact nodup_put h

theorem prefix_paths_furnished (t : Tree) (ps : List Path) :
    t.paths <+: (t.furnished ps).paths := by
  induction ps generalizing t with
  | nil => exact List.prefix_rfl
  | cons p ps ih =>
    rw [furnished_cons]
    split
    · exact ih t
    · exact (prefix_paths_put t p .directory).trans (ih _)

/-! ## Well-formed trees -/

structure WellFormed (t : Tree) : Prop where
  nodup : t.paths.Nodup
  /-- Everything lies in directories. -/
  inside : ∀ p, t.has p = true → ∀ q ∈ around p, t.isDirectory q = true

theorem wellFormed_iff {t : Tree} :
    t.WellFormed ↔ t.paths.Nodup ∧ ∀ p ∈ t.paths, ∀ q ∈ around p, t.isDirectory q = true :=
  ⟨fun h => ⟨h.nodup, fun p hp => h.inside p (has_iff_mem_paths.mpr hp)⟩,
    fun h => ⟨h.1, fun p hp => h.2 p (has_iff_mem_paths.mp hp)⟩⟩

instance (t : Tree) : Decidable t.WellFormed := decidable_of_iff _ wellFormed_iff.symm

/-- At the top of a tree stands no file. -/
def Rooted (t : Tree) : Prop := ∀ slashes, t.isFile ⟨slashes, []⟩ = false

theorem rooted_iff {t : Tree} : t.Rooted ↔ ∀ p ∈ t.paths, p.names = [] → t.isFile p = false := by
  constructor
  · rintro h ⟨slashes, names⟩ - rfl
    exact h slashes
  · intro h slashes
    by_cases hhas : t.has ⟨slashes, []⟩ = true
    · exact h _ (has_iff_mem_paths.mp hhas) rfl
    · rw [isFile, has_eq_false_iff.mp (Bool.eq_false_iff.mpr hhas)]

instance (t : Tree) : Decidable t.Rooted := decidable_of_iff _ rooted_iff.symm

theorem blocked_eq_false_iff {t : Tree} {p : Path} :
    t.blocked p = false ↔ ∀ q ∈ around p, ∀ octets, t.get? q ≠ some (.file octets) := by
  rw [blocked, List.any_eq_false]
  simp only [isFile_iff, not_exists]

theorem WellFormed.furnished {t : Tree} {p : Path} (h : t.WellFormed)
    (hopen : t.blocked p = false) :
    (t.furnished (around p ++ [p])).WellFormed := by
  refine ⟨nodup_furnished _ h.nodup, fun r hr q hq => ?_⟩
  rw [isDirectory_iff, get?_furnished]
  by_cases hhas : t.has r = true
  · rw [isDirectory_iff.mp (h.inside r hhas q hq)]
    rfl
  · have hr : r ∈ around p ++ [p] := by
      obtain ⟨i, hi⟩ := has_iff.mp hr
      by_contra hnot
      rw [get?_furnished, has_eq_false_iff.mp (Bool.eq_false_iff.mpr hhas), if_neg hnot] at hi
      cases hi
    have hq : q ∈ around p := by
      rcases List.mem_append.mp hr with hr | hr
      · exact Path.mem_around_trans hq hr
      · rwa [List.mem_singleton.mp hr] at hq
    -- Nothing around the path is a file, so what is missing is made and what is there is a
    -- directory.
    have hnofile := blocked_eq_false_iff.mp hopen q hq
    rw [if_pos (List.mem_append_left _ hq)]
    cases hget : t.get? q with
    | none => rfl
    | some i =>
      cases i with
      | directory => rfl
      | file octets => exact absurd hget (hnofile octets)

theorem WellFormed.put {t : Tree} {p : Path} {octets : ByteArray} (h : t.WellFormed)
    (htarget : t.isDirectory p = false) (haround : ∀ q ∈ around p, t.isDirectory q = true) :
    (t.put p (.file octets)).WellFormed := by
  refine ⟨nodup_put h.nodup, fun r hr q hq => ?_⟩
  have hdirectory : t.isDirectory q = true := by
    by_cases hrp : r = p
    · exact haround q (hrp ▸ hq)
    · apply h.inside r _ q hq
      rwa [has, get?_put, if_neg hrp] at hr
  have hne : q ≠ p := by
    rintro rfl
    simp [htarget] at hdirectory
  rw [isDirectory_iff, get?_put, if_neg hne]
  exact isDirectory_iff.mp hdirectory

/-! ## Writing a file -/

/-- What writing a file can do: its directory is there already, or it is made together with those
around it. -/
inductive Wrote (t : Tree) (p : Path) (octets : ByteArray) : Tree → Prop
  | there (hparent : t.isDirectory p.parent = true) (htarget : t.isDirectory p = false) :
      Wrote t p octets (t.put p (.file octets))
  | made (hparent : t.has p.parent = false) (hopen : t.blocked p.parent = false)
      (hnames : p.names ≠ [])
      (htarget : t.isDirectory p = false) : Wrote t p octets
        ((t.furnished (around p)).put p (.file octets))

namespace Wrote

variable {t t' : Tree} {p : Path} {octets : ByteArray} (h : Wrote t p octets t')
include h

theorem get?_target : t'.get? p = some (.file octets) := by
  cases h <;> rw [get?_put, if_pos rfl]

theorem isDirectory_target : t.isDirectory p = false := by
  cases h with
  | there _ htarget => exact htarget
  | made _ _ _ htarget => exact htarget

theorem get?_of_ne {q : Path} (hq : q ≠ p) :
    t'.get? q = t.get? q ∨ t.get? q = none ∧ t'.get? q = some .directory ∧ q ∈ around p := by
  cases h with
  | there => exact Or.inl (by rw [get?_put, if_neg hq])
  | made =>
    rw [get?_put, if_neg hq, get?_furnished]
    cases hget : t.get? q with
    | some i => exact Or.inl rfl
    | none =>
      by_cases hmem : q ∈ around p
      · exact Or.inr ⟨rfl, by rw [if_pos hmem]; rfl, hmem⟩
      · exact Or.inl (by rw [if_neg hmem]; rfl)

theorem kept {q : Path} {i : Item} (hq : q ≠ p) (hi : t.get? q = some i) : t'.get? q = some i := by
  rcases h.get?_of_ne hq with heq | ⟨hnone, -⟩
  · exact heq.trans hi
  · rw [hnone] at hi
    cases hi

theorem file_of_ne {q : Path} {b : ByteArray} (hq : q ≠ p) (hb : t'.get? q = some (.file b)) :
    t.get? q = some (.file b) := by
  rcases h.get?_of_ne hq with heq | ⟨-, hmade, -⟩
  · exact heq.symm.trans hb
  · rw [hmade] at hb
    cases hb

theorem isFile {q : Path} (hq : t.isFile q = true) : t'.isFile q = true := by
  rw [isFile_iff] at hq ⊢
  obtain ⟨b, hb⟩ := hq
  by_cases heq : q = p
  · exact ⟨octets, heq ▸ h.get?_target⟩
  · exact ⟨b, h.kept heq hb⟩

theorem isDirectory_parent : t'.isDirectory p.parent = true := by
  rw [isDirectory_iff]
  cases h with
  | there hparent htarget =>
    have hne : p.parent ≠ p := fun heq => by simp [heq, htarget] at hparent
    rw [get?_put, if_neg hne]
    exact isDirectory_iff.mp hparent
  | made hparent _ hnames _ =>
    have hmem := Path.parent_mem_around hnames
    rw [get?_put, if_neg (Path.mem_around.mp hmem).2.2]
    exact isDirectory_iff.mp (isDirectory_furnished hparent hmem)

theorem prefix_paths : t.paths <+: t'.paths := by
  cases h with
  | there => exact prefix_paths_put _ _ _
  | made => exact (prefix_paths_furnished _ _).trans (prefix_paths_put _ _ _)

theorem wellFormed (ht : t.WellFormed) : t'.WellFormed := by
  cases h with
  | there hparent htarget =>
    have hnames : p.names ≠ [] := Path.names_ne_nil fun heq => by simp [heq, htarget] at hparent
    refine ht.put htarget fun q hq => ?_
    rw [Path.around_eq_append hnames] at hq
    rcases List.mem_append.mp hq with hq | hq
    · exact ht.inside p.parent (has_iff.mpr ⟨_, isDirectory_iff.mp hparent⟩) q hq
    · rwa [List.mem_singleton.mp hq]
  | made hparent hopen hnames htarget =>
    have hfurnished := ht.furnished hopen
    rw [← Path.around_eq_append hnames] at hfurnished
    have hdirectory := isDirectory_furnished hparent (Path.parent_mem_around hnames)
    have hget : ∀ q ∈ around p, (t.furnished (around p)).isDirectory q = true := by
      intro q hq
      have hcases := hq
      rw [Path.around_eq_append hnames, List.mem_append, List.mem_singleton] at hcases
      rcases hcases with houter | rfl
      · exact hfurnished.inside _ (has_iff.mpr ⟨_, isDirectory_iff.mp hdirectory⟩) q houter
      · exact hdirectory
    apply hfurnished.put _ hget
    rw [Bool.eq_false_iff]
    intro hdirectory
    rw [isDirectory_iff, get?_furnished, if_neg fun hmem => (Path.mem_around.mp hmem).2.2 rfl,
      Option.or_none] at hdirectory
    simp [isDirectory_iff.mpr hdirectory] at htarget

end Wrote

/-! ## Operations -/

section Operations

variable {t t' : Tree} {p source : Path} {octets : ByteArray}

theorem read_eq_ok_iff : t.read p = .ok octets ↔ t.get? p = some (.file octets) := by
  rw [read]
  cases hget : t.get? p with
  | none => simp
  | some i => cases i <;> simp

theorem write_eq_ok_iff : t.write p octets = .ok t' ↔
    t.isDirectory p = false ∧ t.isDirectory p.parent = true ∧ t.put p (.file octets) = t' := by
  rw [write]
  by_cases htarget : t.isDirectory p = true
  · simp [htarget]
  · by_cases hparent : t.isDirectory p.parent = true
    · simp [htarget, hparent]
    · simp [htarget, hparent]

theorem copy_eq_ok_iff : t.copy source p = .ok t' ↔
    source ≠ p ∧ ∃ octets, t.get? source = some (.file octets) ∧ t.write p octets = .ok t' := by
  rw [copy]
  by_cases hsame : source = p
  · rw [if_pos hsame]
    exact ⟨nofun, fun h => absurd hsame h.1⟩
  · rw [if_neg hsame]
    cases hread : t.read source with
    | error e =>
      refine ⟨nofun, fun ⟨_, octets, hoctets, _⟩ => ?_⟩
      rw [read_eq_ok_iff.mpr hoctets] at hread
      cases hread
    | ok octets =>
      have hoctets := read_eq_ok_iff.mp hread
      constructor
      · exact fun h => ⟨hsame, octets, hoctets, h⟩
      · rintro ⟨-, b, hb, h⟩
        rw [hoctets] at hb
        cases hb
        exact h

/-- The tree in which something stands at a path, if need be a new directory. -/
def ensured (t : Tree) (p : Path) : Tree := if t.has p then t else t.furnished (around p ++ [p])

/-- At most directories are made, where nothing stood, at the path and around it. -/
theorem get?_ensured (t : Tree) (p q : Path) :
    (t.ensured p).get? q = t.get? q ∨
      t.get? q = none ∧ (t.ensured p).get? q = some .directory ∧ q ∈ around p ++ [p] := by
  rw [ensured]
  by_cases hhas : t.has p = true
  · rw [if_pos hhas]
    exact Or.inl rfl
  · rw [if_neg hhas, get?_furnished]
    cases hget : t.get? q with
    | some i => exact Or.inl rfl
    | none =>
      by_cases hmem : q ∈ around p ++ [p]
      · rw [if_pos hmem]
        exact Or.inr ⟨rfl, rfl, hmem⟩
      · rw [if_neg hmem]
        exact Or.inl rfl

theorem file_of_ensured {q : Path} (h : (t.ensured p).get? q = some (.file octets)) :
    t.get? q = some (.file octets) := by
  rw [ensured] at h
  by_cases hhas : t.has p = true
  · rwa [if_pos hhas] at h
  · rw [if_neg hhas, get?_furnished] at h
    cases hq : t.get? q with
    | some i => rwa [hq] at h
    | none =>
      rw [hq, Option.none_or] at h
      split at h <;> cases h

theorem get?_ensured_of_some {q : Path} {i : Item} (h : t.get? q = some i) :
    (t.ensured p).get? q = some i := by
  rw [ensured]
  split
  · exact h
  · rw [get?_furnished, h, Option.some_or]

theorem isFile_ensured {q : Path} (h : t.isFile q = true) : (t.ensured p).isFile q = true := by
  rw [isFile_iff] at h ⊢
  obtain ⟨b, hb⟩ := h
  exact ⟨b, get?_ensured_of_some hb⟩

theorem isDirectory_ensured {q : Path} (h : t.isDirectory q = true) :
    (t.ensured p).isDirectory q = true := by
  rw [isDirectory_iff] at h ⊢
  exact get?_ensured_of_some h

theorem has_ensured (t : Tree) (p : Path) : (t.ensured p).has p = true := by
  rw [ensured]
  by_cases hhas : t.has p = true
  · rwa [if_pos hhas]
  · rw [if_neg hhas, has, get?_furnished, has_eq_false_iff.mp (Bool.eq_false_iff.mpr hhas),
      if_pos (by simp)]
    rfl

theorem prefix_paths_ensured (t : Tree) (p : Path) : t.paths <+: (t.ensured p).paths := by
  rw [ensured]
  split
  · exact List.prefix_rfl
  · exact prefix_paths_furnished _ _

theorem WellFormed.ensured (h : t.WellFormed) (hready : t.has p = true ∨ t.blocked p = false) :
    (t.ensured p).WellFormed := by
  rw [Tree.ensured]
  by_cases hhas : t.has p = true
  · rwa [if_pos hhas]
  · rw [if_neg hhas]
    exact h.furnished (hready.resolve_left hhas)

/-- A file is written by looking after its directory first. -/
theorem wrote_iff : Wrote t p octets t' ↔
    (t.has p.parent = true ∨ t.blocked p.parent = false) ∧
      (t.ensured p.parent).write p octets = .ok t' := by
  constructor
  · intro h
    cases h with
    | there hparent htarget =>
      have hhas : t.has p.parent = true := has_iff.mpr ⟨_, isDirectory_iff.mp hparent⟩
      rw [ensured, if_pos hhas]
      exact ⟨Or.inl hhas, write_eq_ok_iff.mpr ⟨htarget, hparent, rfl⟩⟩
    | made hparent hopen hnames htarget =>
      have haround := Path.around_eq_append hnames
      rw [ensured, hparent, if_neg (by simp), ← haround]
      refine ⟨Or.inr hopen, write_eq_ok_iff.mpr ⟨?_, ?_, rfl⟩⟩
      · rw [Bool.eq_false_iff, ne_eq, isDirectory_iff, get?_furnished,
          if_neg fun hmem => (Path.mem_around.mp hmem).2.2 rfl, Option.or_none, ← isDirectory_iff]
        simp [htarget]
      · exact isDirectory_furnished hparent (Path.parent_mem_around hnames)
  · rintro ⟨hready, hwrite⟩
    obtain ⟨htarget, hparent, rfl⟩ := write_eq_ok_iff.mp hwrite
    by_cases hhas : t.has p.parent = true
    · rw [ensured, if_pos hhas] at htarget hparent ⊢
      exact .there hparent htarget
    · have habsent := Bool.eq_false_iff.mpr hhas
      have hopen := hready.resolve_left hhas
      rw [ensured, if_neg hhas] at htarget hparent ⊢
      have hnames : p.names ≠ [] := Path.names_ne_nil fun heq => by
        simp only [heq] at htarget hparent
        rw [htarget] at hparent
        cases hparent
      rw [← Path.around_eq_append hnames] at htarget ⊢
      refine .made habsent hopen hnames (Bool.eq_false_iff.mpr fun hdirectory => ?_)
      rw [isDirectory_iff] at hdirectory
      rw [Bool.eq_false_iff, ne_eq, isDirectory_iff, get?_furnished, hdirectory] at htarget
      exact htarget rfl

end Operations

end Tree

end Scriptwright.Project
