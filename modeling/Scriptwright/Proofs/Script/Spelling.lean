import Mathlib.Algebra.Group.Int.Defs
import Mathlib.Algebra.Group.Nat.Defs
import Scriptwright.Proofs.Value.Everywhere
import Scriptwright.Script.Literal

/-!
# Values that can be spelled out

A value is spelled out only if all its integers are, and an integer is up to a number of digits.
Nothing else keeps a simple value from having a literal: either all its integers are spelled out and
it has one, or it is a bad value.
-/

namespace Scriptwright

namespace Value

theorem writable_int {n : Int} : (int n).writable = true ↔ n.natAbs < 10 ^ mostDigits := by
  have hdigits : (int n).writable = decide ((Nat.toDigits 10 n.natAbs).length ≤ mostDigits) := rfl
  rw [hdigits, decide_eq_true_iff]
  exact Nat.length_toDigits_le_iff (by decide) (by decide)

/-- The least integer with too many digits. -/
theorem not_writable_power : (int (10 ^ mostDigits)).writable = false := by
  rw [Bool.eq_false_iff, Ne, writable_int, Int.natAbs_pow, show Int.natAbs 10 = 10 from rfl]
  exact Nat.lt_irrefl _

theorem writable_list {vs : List Value} :
    (list vs).writable = true ↔ ∀ v ∈ vs, v.writable = true := by
  induction vs with
  | nil => exact iff_of_true rfl (List.forall_mem_nil _)
  | cons v vs ih =>
    refine Bool.and_eq_true_iff.trans ?_
    rw [List.forall_mem_cons]
    exact and_congr_right' ih

theorem writable_map {es : Fields} :
    (map es).writable = true ↔ ∀ e ∈ es, e.1.writable = true ∧ e.2.writable = true := by
  induction es with
  | nil => exact iff_of_true rfl (List.forall_mem_nil _)
  | cons e es ih =>
    refine Bool.and_eq_true_iff.trans ?_
    rw [List.forall_mem_cons, Bool.and_eq_true_iff]
    exact and_congr_right' ih

theorem written_of_not_writable {α : Type} {v : Value} (h : v.writable = false) (result : α) :
    v.written result = .error .badValue := by
  rw [written, h]
  rfl

theorem map_written {α β : Type} (v : Value) (result : α) (g : α → β) :
    (v.written result).map g = v.written (g result) := by
  rw [written, written]
  cases v.writable with
  | true => rfl
  | false => rfl

theorem encode_int (style : DataStyle) (n : Int) :
    (int n).encode style = (int n).written (toString n) := by
  have hleaf : (int n).encode style = (int n).encodeLeaf style := rfl
  have hatom : (int n).encodeAtom = (int n).written (toString n) := rfl
  rw [hleaf, encodeLeaf, hatom, written]
  · cases (int n).writable <;> rfl
  · intro s hs
    cases hs

/-- Whether there is neither a knot nor an entry on its own in a value, at any depth. -/
def simple (v : Value) : Bool :=
  v.everywhere fun w =>
    match w with
    | .pair _ _ | .knot _ _ _ => false
    | _ => true

theorem head_of_simple {v : Value} (h : v.simple = true) : v.head = v := by
  cases v with
  | knot => cases h
  | _ => rfl

theorem simple_get {es : Fields} (h : (map es).simple = true) (f : String) :
    (Fields.get es f).simple = true :=
  everywhere_field rfl h f

end Value

namespace Script

open Value

mutual

/-- The literal of a simple value fails only at an integer that is not spelled out. -/
theorem exists_literal : (v : Value) → v.simple = true → ∃ text, literal v = v.written text
  | .list vs, h => by
    obtain ⟨texts, htexts⟩ := exists_literalItems vs fun v hv => everywhere_of_mem_items h hv
    exact ⟨listLiteral texts, by rw [literal, htexts, map_written]⟩
  | .map es, h => by
    obtain ⟨texts, htexts⟩ := exists_literalEntries es fun e he => everywhere_of_mem_entries h he
    exact ⟨mapLiteral texts, by rw [literal, htexts, map_written]⟩
  | .pair _ _, h | .knot _ _ _, h => nomatch h
  | .null, _ | .bool _, _ | .int _, _ | .float _, _ | .string _, _ | .bytes _, _ | .date _, _ |
      .moment _, _ | .set _, _ =>
    ⟨_, rfl⟩

theorem exists_literalItems : (vs : List Value) → (∀ v ∈ vs, v.simple = true) →
    ∃ texts, literalItems vs = (list vs).written texts
  | [], _ => ⟨[], rfl⟩
  | v :: vs, h => by
    obtain ⟨hv, hvs⟩ := List.forall_mem_cons.mp h
    obtain ⟨text, htext⟩ := exists_literal v hv
    obtain ⟨texts, htexts⟩ := exists_literalItems vs hvs
    have hcons : (list (v :: vs)).writable = (v.writable && (list vs).writable) := rfl
    refine ⟨text :: texts, ?_⟩
    rw [literalItems, htext, htexts, written, written, written, hcons]
    cases v.writable with
    | false => rfl
    | true => cases (list vs).writable <;> rfl

theorem exists_literalEntries : (es : Fields) → (∀ e ∈ es, e.2.simple = true) →
    ∃ texts, literalEntries es = (map es).written texts
  | [], _ => ⟨[], rfl⟩
  | (k, v) :: es, h => by
    obtain ⟨hv, hes⟩ := List.forall_mem_cons.mp h
    obtain ⟨text, htext⟩ := exists_literal v hv
    obtain ⟨texts, htexts⟩ := exists_literalEntries es hes
    have hcons : (map ((k, v) :: es)).writable = (k.writable && v.writable && (map es).writable) :=
      rfl
    refine ⟨(keyText k.display ++ ": " ++ text) :: texts, ?_⟩
    rw [literalEntries, htext, htexts, written, written, written, written, hcons]
    -- the key comes first, then its value, then the other entries
    cases k.writable with
    | false => rfl
    | true =>
      cases v.writable with
      | false => rfl
      | true => cases (map es).writable <;> rfl

end

end Script

end Scriptwright
