import Scriptwright.Value

/-!
# Fields of a mapping

A field is found by its key, at the first entry that has it. So it depends neither on entries under
other keys nor, where no key occurs twice, on the order of the entries.
-/

namespace Scriptwright

namespace Fields

theorem get?_append (es fs : Fields) (name : String) :
    get? (es ++ fs) name = (get? es name).or (get? fs name) := by
  induction es with
  | nil => rfl
  | cons e es ih =>
    obtain ⟨k, v⟩ := e
    rw [List.cons_append, get?, get?]
    split
    · rfl
    · exact ih

/-- No key occurs twice. -/
def Distinct (es : Fields) : Prop := es.Pairwise fun e f => e.1.sameKey f.1 = false

theorem get?_eq_head? (es : Fields) (name : String) :
    get? es name = ((es.filter fun e => e.1.isKey name).head?).map Prod.snd := by
  induction es with
  | nil => rfl
  | cons e es ih =>
    obtain ⟨k, v⟩ := e
    rw [get?, List.filter_cons]
    by_cases hk : k.isKey name = true
    · rw [if_pos hk, if_pos hk]
      rfl
    · rw [if_neg hk, if_neg hk, ih]

theorem get?_filter {es : Fields} {name : String} {p : Value × Value → Bool}
    (hp : ∀ e ∈ es, e.1.isKey name = true → p e = true) :
    get? (es.filter p) name = get? es name := by
  rw [get?_eq_head?, get?_eq_head?, List.filter_filter]
  congr 2
  refine List.filter_congr fun e he => ?_
  cases hk : e.1.isKey name with
  | false => rfl
  | true => rw [hp e he hk, Bool.and_true]

theorem Distinct.length_filter_le {es : Fields} (h : Distinct es) (name : String) :
    (es.filter fun e => e.1.isKey name).length ≤ 1 := by
  have hpairwise : Distinct (es.filter fun e => e.1.isKey name) :=
    List.Pairwise.sublist List.filter_sublist h
  have hkeys : ∀ e ∈ es.filter fun e => e.1.isKey name, e.1 = .string name := by
    intro e he
    obtain ⟨-, hkey⟩ := List.mem_filter.mp he
    cases hk : e.1 with
    | string s =>
      rw [hk] at hkey
      exact congrArg Value.string (beq_iff_eq.mp hkey)
    | _ =>
      rw [hk] at hkey
      cases hkey
  generalize es.filter (fun e => e.1.isKey name) = found at hpairwise hkeys ⊢
  match found with
  | [] => exact Nat.zero_le 1
  | [_] => exact Nat.le_refl 1
  | e :: f :: rest =>
    obtain ⟨hfirst, -⟩ := List.pairwise_cons.mp hpairwise
    have hdiffer := hfirst f List.mem_cons_self
    rw [hkeys e List.mem_cons_self, hkeys f (List.mem_cons_of_mem _ List.mem_cons_self),
      Value.sameKey, beq_self_eq_true] at hdiffer
    cases hdiffer

/-- A field does not depend on the order of the entries, nor on entries under other keys. -/
theorem get?_of_perm {es es' extra : Fields} {name : String} (hdistinct : Distinct es)
    (hperm : es'.Perm (es ++ extra)) (hextra : ∀ e ∈ extra, e.1.isKey name = false) :
    get? es' name = get? es name := by
  have hnone : extra.filter (fun e => e.1.isKey name) = [] :=
    List.filter_eq_nil_iff.mpr fun e he => by simp [hextra e he]
  have hfiltered := hperm.filter fun e => e.1.isKey name
  rw [List.filter_append, hnone, List.append_nil] at hfiltered
  have hlength := hdistinct.length_filter_le name
  rw [get?_eq_head?, get?_eq_head?]
  generalize es.filter (fun e => e.1.isKey name) = found at hfiltered hlength ⊢
  match found with
  | [] => rw [hfiltered.eq_nil]
  | [e] => rw [List.perm_singleton.mp hfiltered]
  | _ :: _ :: _ => simp at hlength

end Fields

end Scriptwright
