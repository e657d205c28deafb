import Scriptwright.Value

/-!
# What holds everywhere in a value

`Value.everywhere p` says of a value and of all its parts that they have `p`. A value is finite if
it is a knot nowhere: then its outermost layer is in the open, and so is that of all its parts.
-/

namespace Scriptwright

namespace Value

mutual

/-- Whether a value and all its parts, at any depth, have `p`. A knot counts as one part. -/
def everywhere (p : Value → Bool) : Value → Bool
  | .list items => p (.list items) && everywhereItems p items
  | .map entries => p (.map entries) && everywhereEntries p entries
  | .pair first second => p (.pair first second) && first.everywhere p && second.everywhere p
  | v => p v

def everywhereItems (p : Value → Bool) : List Value → Bool
  | [] => true
  | v :: vs => v.everywhere p && everywhereItems p vs

def everywhereEntries (p : Value → Bool) : List (Value × Value) → Bool
  | [] => true
  | (k, v) :: es => k.everywhere p && v.everywhere p && everywhereEntries p es

end

variable {p : Value → Bool}

theorem of_everywhere {v : Value} (h : v.everywhere p = true) : p v = true := by
  cases v with
  | list items => exact (Bool.and_eq_true_iff.mp h).1
  | map entries => exact (Bool.and_eq_true_iff.mp h).1
  | pair first second => exact (Bool.and_eq_true_iff.mp (Bool.and_eq_true_iff.mp h).1).1
  | _ => exact h

theorem everywhere_of_mem_items {v : Value} {items : List Value}
    (h : (list items).everywhere p = true) (hv : v ∈ items) : v.everywhere p = true := by
  replace h := (Bool.and_eq_true_iff.mp h).2
  induction items with
  | nil => cases hv
  | cons w ws ih =>
    obtain ⟨hw, hws⟩ := Bool.and_eq_true_iff.mp h
    rcases List.mem_cons.mp hv with rfl | hv
    · exact hw
    · exact ih hv hws

theorem everywhere_entry_of_mem {e : Value × Value} {es : Fields}
    (h : everywhereEntries p es = true) (he : e ∈ es) :
    e.1.everywhere p = true ∧ e.2.everywhere p = true := by
  induction es with
  | nil => cases he
  | cons x xs ih =>
    obtain ⟨hx, hxs⟩ := Bool.and_eq_true_iff.mp h
    rcases List.mem_cons.mp he with rfl | he
    · exact Bool.and_eq_true_iff.mp hx
    · exact ih hxs he

theorem everywhere_of_mem_entries {e : Value × Value} {es : Fields}
    (h : (map es).everywhere p = true) (he : e ∈ es) :
    e.2.everywhere p = true :=
  (everywhere_entry_of_mem (Bool.and_eq_true_iff.mp h).2 he).2

theorem everywhere_key_of_mem_entries {e : Value × Value} {es : Fields}
    (h : (map es).everywhere p = true) (he : e ∈ es) : e.1.everywhere p = true :=
  (everywhere_entry_of_mem (Bool.and_eq_true_iff.mp h).2 he).1

theorem everywhere_list {items : List Value} (h : p (list items) = true)
    (hitems : ∀ v ∈ items, v.everywhere p = true) :
    (list items).everywhere p = true := by
  refine Bool.and_eq_true_iff.mpr ⟨h, ?_⟩
  clear h
  induction items with
  | nil => rfl
  | cons v vs ih =>
    obtain ⟨hv, hvs⟩ := List.forall_mem_cons.mp hitems
    exact Bool.and_eq_true_iff.mpr ⟨hv, ih hvs⟩

theorem everywhere_map {es : Fields} (h : p (map es) = true)
    (hes : ∀ e ∈ es, e.1.everywhere p = true ∧ e.2.everywhere p = true) :
    (map es).everywhere p = true := by
  refine Bool.and_eq_true_iff.mpr ⟨h, ?_⟩
  clear h
  induction es with
  | nil => rfl
  | cons e es ih =>
    obtain ⟨he, hrest⟩ := List.forall_mem_cons.mp hes
    exact Bool.and_eq_true_iff.mpr ⟨Bool.and_eq_true_iff.mpr he, ih hrest⟩

theorem everywhere_of_get? {es : Fields} {name : String} {v : Value}
    (h : (map es).everywhere p = true) (hv : Fields.get? es name = some v) :
    v.everywhere p = true := by
  obtain ⟨k, hk⟩ := Fields.mem_of_get? hv
  exact everywhere_of_mem_entries h hk

theorem everywhere_getD {es : Fields} {other : Value} (h : (map es).everywhere p = true)
    (hother : other.everywhere p = true) (name : String) :
    (Fields.getD es name other).everywhere p = true := by
  unfold Fields.getD
  cases hv : Fields.get? es name with
  | none => exact hother
  | some v => exact everywhere_of_get? h hv

theorem everywhere_get {es : Fields} {name : String} (h : (map es).everywhere p = true)
    (hname : Fields.has es name = true) : (Fields.get es name).everywhere p = true := by
  obtain ⟨v, hv⟩ := Option.isSome_iff_exists.mp hname
  obtain ⟨k, hk⟩ := Fields.mem_of_get? hv
  rw [Fields.get, hv]
  exact everywhere_of_mem_entries h hk

/-- Where null has the property as well, a field need not be there. -/
theorem everywhere_field {es : Fields} (hnull : p .null = true) (h : (map es).everywhere p = true)
    (name : String) :
    (Fields.get es name).everywhere p = true := by
  cases hname : Fields.has es name with
  | true => exact everywhere_get h hname
  | false =>
    rw [Fields.get, Option.isNone_iff_eq_none.mp (Option.isSome_eq_false_iff.mp hname)]
    exact hnull

/-! ## Finite values -/

def isKnot : Value → Bool
  | .knot _ _ _ => true
  | _ => false

/-- Whether there is no knot in a value, at any depth. -/
def finite (v : Value) : Bool := v.everywhere fun w => !w.isKnot

theorem head_of_finite {v : Value} (h : v.finite = true) : v.head = v := by
  cases v with
  | knot => cases h
  | _ => rfl

theorem exhausted_of_finite {v : Value} (h : v.finite = true) : v.exhausted = false := by
  cases v with
  | knot => cases h
  | _ => rfl

/-! ## The outermost layer -/

theorem head_head (v : Value) : v.head.head = v.head := by
  cases v with
  | knot cells place turns =>
    cases turns with
    | zero => rfl
    | succ turns =>
      rw [head]
      cases cells[place]? with
      | none => rfl
      | some cell =>
        cases cell with
        | scalar s => cases s <;> rfl
        | _ => rfl
  | _ => rfl

theorem truthy_head (v : Value) : v.head.truthy = v.truthy := by
  rw [truthy, truthy, head_head]

/-- The first layer of a knot that can still be followed is no knot. -/
theorem exhausted_head {v : Value} (h : v.exhausted = false) : v.head.exhausted = false := by
  cases v with
  | knot cells place turns =>
    cases turns with
    | zero => cases h
    | succ turns =>
      rw [head]
      cases cells[place]? with
      | none => rfl
      | some cell =>
        cases cell with
        | scalar s => cases s <;> rfl
        | _ => rfl
  | _ => rfl

theorem elementsOrNone_of_head {v : Value} {items : List Value} (h : v.head = .list items) :
    v.elementsOrNone = .ok items := by
  rw [elementsOrNone, truthy, elements, h]
  cases items with
  | nil => rfl
  | cons w ws => rfl

end Value

end Scriptwright
