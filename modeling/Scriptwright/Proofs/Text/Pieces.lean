import Scriptwright.Text.Blank
import Mathlib.Data.List.DropRight

/-!
# Pieces of a text

Splitting a text at a separator and putting its pieces together again are inverse to each other, as
long as no piece holds the separator. Trimming takes off blanks and nothing else.
-/

namespace Scriptwright.Text

/-! ## Splitting and joining -/

theorem splitAt_of_not_mem (sep : Char) (p : List Char) (h : sep ∉ p) : splitAt sep p = [p] := by
  induction p with
  | nil => rfl
  | cons c p ih =>
    have hc : c ≠ sep := fun he => h (he ▸ List.mem_cons_self)
    rw [splitAt, if_neg hc, ih fun hm => h (List.mem_cons_of_mem _ hm)]

theorem splitAt_append_cons (sep : Char) (p cs : List Char) (h : sep ∉ p) :
    splitAt sep (p ++ sep :: cs) = p :: splitAt sep cs := by
  induction p with
  | nil => rw [List.nil_append, splitAt, if_pos rfl]
  | cons c p ih =>
    have hc : c ≠ sep := fun he => h (he ▸ List.mem_cons_self)
    rw [List.cons_append, splitAt, if_neg hc, ih fun hm => h (List.mem_cons_of_mem _ hm)]

theorem splitAt_ne_nil (sep : Char) (cs : List Char) : splitAt sep cs ≠ [] := by
  cases cs with
  | nil => simp [splitAt]
  | cons c cs =>
    rw [splitAt]
    split
    · simp
    · split <;> simp

theorem length_splitAt (sep : Char) (cs : List Char) :
    (splitAt sep cs).length = cs.count sep + 1 := by
  induction cs with
  | nil => rfl
  | cons c cs ih =>
    obtain ⟨p, ps, he⟩ := List.exists_cons_of_ne_nil (splitAt_ne_nil sep cs)
    rw [splitAt, List.count_cons]
    split
    · next hc => simp [hc, ih]
    · next hc =>
      rw [he] at ih ⊢
      simpa [hc] using ih

theorem not_mem_of_mem_splitAt (sep : Char) (cs p : List Char) (h : p ∈ splitAt sep cs) :
    sep ∉ p := by
  induction cs generalizing p with
  | nil =>
    rw [List.mem_singleton.mp h]
    simp
  | cons c cs ih =>
    rw [splitAt] at h
    split at h
    · rcases List.mem_cons.mp h with rfl | hp
      · simp
      · exact ih p hp
    · next hc =>
      obtain ⟨q, qs, he⟩ := List.exists_cons_of_ne_nil (splitAt_ne_nil sep cs)
      rw [he] at h ih
      rcases List.mem_cons.mp h with rfl | hp
      · intro hm
        rcases List.mem_cons.mp hm with rfl | hq
        · exact hc rfl
        · exact ih q List.mem_cons_self hq
      · exact ih p (List.mem_cons_of_mem _ hp)

theorem joinWith_cons (sep p : List Char) (ps : List (List Char)) (h : ps ≠ []) :
    joinWith sep (p :: ps) = p ++ sep ++ joinWith sep ps := by
  obtain ⟨q, qs, rfl⟩ := List.exists_cons_of_ne_nil h
  rfl

theorem joinWith_append (sep : List Char) (ps qs : List (List Char)) (hp : ps ≠ []) (hq : qs ≠ []) :
    joinWith sep (ps ++ qs) = joinWith sep ps ++ sep ++ joinWith sep qs := by
  induction ps with
  | nil => exact absurd rfl hp
  | cons p ps ih =>
    by_cases he : ps = []
    · subst he
      exact joinWith_cons sep p qs hq
    · rw [List.cons_append, joinWith_cons sep p _ (by simp [hq]), ih he, joinWith_cons sep p ps he]
      simp only [List.append_assoc]

theorem joinWith_append_right (sep : List Char) (ps qs : List (List Char)) (h : qs ≠ []) :
    joinWith sep (ps ++ qs) = ps.flatMap (· ++ sep) ++ joinWith sep qs := by
  induction ps with
  | nil => rfl
  | cons p ps ih =>
    rw [List.cons_append, joinWith_cons sep p _ (by simp [h]), ih, List.flatMap_cons]
    simp only [List.append_assoc]

theorem joinWith_append_left (sep : List Char) (ps qs : List (List Char)) (h : ps ≠ []) :
    joinWith sep (ps ++ qs) = joinWith sep ps ++ qs.flatMap (sep ++ ·) := by
  induction qs generalizing ps with
  | nil => simp
  | cons q qs ih =>
    have hsplit : ps ++ q :: qs = (ps ++ [q]) ++ qs := by simp
    rw [hsplit, ih _ (by simp), joinWith_append sep ps [q] h (by simp), List.flatMap_cons]
    simp only [joinWith, List.append_assoc]

/-- Pieces in a row are found in the text as they are. -/
theorem joinWith_infix (sep : List Char) (ps qs rs : List (List Char)) (h : qs ≠ []) :
    joinWith sep qs <:+: joinWith sep (ps ++ qs ++ rs) := by
  rw [joinWith_append_left sep _ _ (by simp [h]), joinWith_append_right sep _ _ h]
  exact ⟨_, _, rfl⟩

theorem joinWith_splitAt (sep : Char) (cs : List Char) : joinWith [sep] (splitAt sep cs) = cs := by
  induction cs with
  | nil => rfl
  | cons c cs ih =>
    obtain ⟨q, qs, he⟩ := List.exists_cons_of_ne_nil (splitAt_ne_nil sep cs)
    rw [splitAt]
    split
    · next hc =>
      rw [joinWith_cons _ _ _ (splitAt_ne_nil sep cs), ih, hc]
      rfl
    · rw [he] at ih ⊢
      cases qs with
      | nil => exact congrArg (c :: ·) ih
      | cons q' qs => exact congrArg (c :: ·) ih

theorem splitAt_joinWith (sep : Char) (ps : List (List Char)) (hne : ps ≠ [])
    (h : ∀ p ∈ ps, sep ∉ p) :
    splitAt sep (joinWith [sep] ps) = ps := by
  induction ps with
  | nil => exact absurd rfl hne
  | cons p ps ih =>
    have hp := h p List.mem_cons_self
    by_cases he : ps = []
    · subst he
      exact splitAt_of_not_mem sep p hp
    · rw [joinWith_cons _ _ _ he, List.append_assoc, List.singleton_append,
        splitAt_append_cons sep p _ hp, ih he fun q hq => h q (List.mem_cons_of_mem _ hq)]

/-- Whole pieces with the separator behind each, and the last piece. -/
theorem exists_last_piece (sep : Char) (cs : List Char) :
    ∃ ps p, cs = ps.flatMap (· ++ [sep]) ++ p ∧ ∀ r ∈ ps ++ [p], sep ∉ r := by
  have hlast := List.dropLast_append_getLast (splitAt_ne_nil sep cs)
  refine ⟨(splitAt sep cs).dropLast, (splitAt sep cs).getLast (splitAt_ne_nil sep cs), ?_, ?_⟩
  · have hjoin := joinWith_append_right [sep] (splitAt sep cs).dropLast
      [(splitAt sep cs).getLast (splitAt_ne_nil sep cs)] (by simp)
    rwa [hlast, joinWith_splitAt] at hjoin
  · rw [hlast]
    exact not_mem_of_mem_splitAt sep cs

/-- The first piece, and whole pieces with the separator in front of each. -/
theorem exists_first_piece (sep : Char) (cs : List Char) :
    ∃ p ps, cs = p ++ ps.flatMap ([sep] ++ ·) ∧ ∀ r ∈ p :: ps, sep ∉ r := by
  obtain ⟨p, ps, he⟩ := List.exists_cons_of_ne_nil (splitAt_ne_nil sep cs)
  have hjoin := joinWith_append_left [sep] [p] ps (by simp)
  rw [List.singleton_append, ← he, joinWith_splitAt] at hjoin
  exact ⟨p, ps, hjoin, fun r hr => not_mem_of_mem_splitAt sep cs r (he ▸ hr)⟩

/-! ## Trimming -/

theorem trimRight_trimRight (cs : List Char) : trimRight (trimRight cs) = trimRight cs :=
  List.rdropWhile_idempotent isBlank cs

theorem exists_trimRight_append (cs : List Char) :
    ∃ w, cs = trimRight cs ++ w ∧ ∀ c ∈ w, isBlank c = true :=
  ⟨cs.rtakeWhile isBlank, List.rdropWhile_append_rtakeWhile.symm,
    fun _ hc => List.mem_rtakeWhile_imp hc⟩

theorem all_isBlank_trimRight (cs : List Char) : (trimRight cs).all isBlank = cs.all isBlank := by
  obtain ⟨w, he, hw⟩ := exists_trimRight_append cs
  have hall : w.all isBlank = true := List.all_eq_true.mpr hw
  conv => rhs; rw [he, List.all_append, hall, Bool.and_true]

theorem mem_of_mem_trimRight (c : Char) (cs : List Char) (h : c ∈ trimRight cs) : c ∈ cs :=
  (List.rdropWhile_prefix isBlank cs).subset h

/-- Behind ink only blanks of the last part can go. -/
theorem trimRight_append (a b : List Char) (hb : b.all isBlank = false) :
    trimRight (a ++ b) = a ++ trimRight b := by
  have hne : b.reverse.dropWhile isBlank ≠ [] := by
    intro he
    have hall : b.all isBlank = true :=
      List.all_eq_true.mpr fun c hc => List.dropWhile_eq_nil_iff.mp he c (List.mem_reverse.mpr hc)
    simp [hall] at hb
  rw [trimRight, List.reverse_append, List.dropWhile_append, if_neg (by simpa using hne),
    List.reverse_append, List.reverse_reverse]
  rfl

theorem trimRight_cons (c : Char) (b : List Char) (hc : isBlank c = false) :
    trimRight (c :: b) = c :: trimRight b := by
  rw [trimRight, List.reverse_cons, List.dropWhile_append]
  split
  · next he =>
    have hb : trimRight b = [] := by rw [trimRight, List.isEmpty_iff.mp he, List.reverse_nil]
    simp [hb, hc]
  · rw [List.reverse_append]
    rfl

theorem dropWhile_isBlank_append {l cs : List Char} (hl : ∀ c ∈ l, isBlank c = true)
    (hcs : ∀ c ∈ cs.head?, isBlank c = false) : (l ++ cs).dropWhile isBlank = cs := by
  rw [List.dropWhile_append_of_pos hl]
  cases cs with
  | nil => rfl
  | cons c cs => rw [List.dropWhile_cons_of_neg (by rw [hcs c rfl]; exact Bool.false_ne_true)]

/-- Trimming takes the blanks off around a text that neither begins nor ends with one. -/
theorem trim_padded {l cs r : List Char} (hl : ∀ c ∈ l, isBlank c = true)
    (hr : ∀ c ∈ r, isBlank c = true) (hfirst : ∀ c ∈ cs.head?, isBlank c = false)
    (hlast : ∀ c ∈ cs.getLast?, isBlank c = false) :
    trim (l ++ cs ++ r) = cs := by
  have hright : trimRight (cs ++ r) = cs := by
    rw [trimRight, List.reverse_append, dropWhile_isBlank_append, List.reverse_reverse]
    · exact fun c hc => hr c (List.mem_reverse.mp hc)
    · rw [List.head?_reverse]
      exact hlast
  rw [trim, trimLeft, List.append_assoc]
  by_cases hcs : cs = []
  · subst hcs
    rw [List.nil_append, List.dropWhile_eq_nil_iff.mpr fun c hc =>
      (List.mem_append.mp hc).elim (hl c) (hr c)]
    rfl
  · rw [dropWhile_isBlank_append hl, hright]
    rw [List.head?_append_of_ne_nil cs hcs]
    exact hfirst

end Scriptwright.Text
