import Mathlib.Tactic.SplitIfs
import Scriptwright.Proofs.Value.Texts

/-!
# The outermost layer of data

The text of a value as data shows at its first character what the value is: a text starts with a
quotation mark, a mapping with a brace, and nothing else with either of them.
-/

namespace Scriptwright

open Text

/-- Characters that start with neither a quotation mark nor a brace. -/
def BareStart (cs : List Char) : Prop := ∃ c, cs.head? = some c ∧ c ≠ '"' ∧ c ≠ '\x7b'

/-! ## Numbers -/

theorem bareStart_of_head? {cs : List Char} {c : Char} (h : cs.head? = some c)
    (hc : c.isDigit = true) :
    BareStart cs := by
  refine ⟨c, h, ?_, ?_⟩
  · rintro rfl
    exact absurd hc (by decide)
  · rintro rfl
    exact absurd hc (by decide)

theorem exists_head?_toDigits (n : Nat) :
    ∃ c, (Nat.toDigits 10 n).head? = some c ∧ c.isDigit = true := by
  obtain ⟨c, cs, hcs⟩ := List.exists_cons_of_ne_nil (@Nat.toDigits_ne_nil n 10)
  have hmem : c ∈ Nat.toDigits 10 n := hcs ▸ List.mem_cons_self
  exact ⟨c, by rw [hcs]; rfl, Nat.isDigit_of_mem_toDigits (by decide) (show 10 ≤ 10 by decide) hmem⟩

theorem bareStart_toString (n : Int) : BareStart (toString n).toList := by
  cases n with
  | ofNat n =>
    obtain ⟨c, hc, hdigit⟩ := exists_head?_toDigits n
    have htext : (toString (Int.ofNat n)).toList = Nat.toDigits 10 n := String.toList_ofList
    exact bareStart_of_head? (by rw [htext, hc]) hdigit
  | negSucc n =>
    change BareStart ("-" ++ String.ofList (Nat.toDigits 10 (n + 1))).toList
    exact ⟨'-', by simp, by decide, by decide⟩

namespace Double

theorem head?_positional {digits : List Char} (hne : digits ≠ []) (position : Int) :
    (positional digits position).head? = digits.head? ∨
      (positional digits position).head? = some '0' := by
  obtain ⟨d, ds, rfl⟩ := List.exists_cons_of_ne_nil hne
  unfold positional
  split_ifs with hposition
  · exact .inr rfl
  · dsimp only
    split_ifs
    · exact .inl rfl
    · obtain ⟨p, hp⟩ : ∃ p, position.toNat = p + 1 := ⟨position.toNat - 1, by omega⟩
      exact .inl (by rw [hp]; rfl)

theorem head?_scientific {digits : List Char} (hne : digits ≠ []) (exponent : Int) :
    (scientific digits exponent).head? = digits.head? := by
  obtain ⟨d, ds, rfl⟩ := List.exists_cons_of_ne_nil hne
  rfl

theorem bareStart_text (x : Double) : BareStart (x.text Value.encodedSpecial).toList := by
  unfold text
  cases x.form with
  | nan => exact ⟨'N', rfl, by decide, by decide⟩
  | infinite s =>
    cases s with
    | false => exact ⟨'I', rfl, by decide, by decide⟩
    | true => exact ⟨'-', rfl, by decide, by decide⟩
  | finite s m q =>
    dsimp only
    have hne := @Nat.toDigits_ne_nil
      (Decimal.shortest m q (m == exponentWeight && decide (-1074 < q))).digits 10
    rw [String.toList_ofList, Decimal.digitsOf]
    generalize (Decimal.shortest m q (m == exponentWeight && decide (-1074 < q))) = dec at hne ⊢
    obtain ⟨c, hc, hdigit⟩ := exists_head?_toDigits dec.digits
    split_ifs
    · exact ⟨'-', by simp, by decide, by decide⟩
    · exact ⟨'-', by simp, by decide, by decide⟩
    · exact ⟨'-', by simp, by decide, by decide⟩
    · exact ⟨'0', by simp, by decide, by decide⟩
    · rcases head?_positional hne ((Nat.toDigits 10 dec.digits).length + dec.exponent) with h | h
      · exact bareStart_of_head? (h.trans hc) hdigit
      · exact bareStart_of_head? h rfl
    · exact bareStart_of_head? ((head?_scientific hne _).trans hc) hdigit

end Double

namespace Value

/-- What can be told of a value from the first character of its text as data. -/
inductive DataForm where
  | text (s : String)
  | record
  | other

def dataForm : Value → DataForm
  | .string s => .text s
  | .map _ => .record
  | .knot cells place _ =>
    match cells[place]? with
    | some (.scalar (.string s)) => .text s
    | some (.map _) => .record
    | _ => .other
  | _ => .other

/-- That a text is one of data of the given form. -/
def DataForm.Fits : DataForm → String → Prop
  | .text s, t => t = encoded s
  | .record, t => ∃ inner, t = "\x7b" ++ inner ++ "\x7d"
  | .other, t => BareStart t.toList

theorem fits_encodeAtom {v : Value} {t : String} (h : v.encodeAtom = .ok t) :
    DataForm.other.Fits t := by
  cases v with
  | null =>
    cases h
    exact ⟨'n', rfl, by decide, by decide⟩
  | bool b =>
    cases h
    cases b with
    | false => exact ⟨'f', rfl, by decide, by decide⟩
    | true => exact ⟨'t', rfl, by decide, by decide⟩
  | int n =>
    obtain ⟨-, rfl⟩ := written_eq_ok_iff.1 h
    exact bareStart_toString n
  | float x =>
    cases h
    exact x.bareStart_text
  | _ => cases h

variable {style : DataStyle}

theorem fits_encodedList (items : List String) : DataForm.other.Fits (encodedList style items) :=
  ⟨'[', by simp [encodedList], by decide, by decide⟩

theorem dataForm_fits_encodeLeaf (hstyle : style.loose = false) {v : Value} {t : String}
    (h : v.encodeLeaf style = .ok t) : (∃ s, v = .string s ∧ t = encoded s) ∨
      DataForm.other.Fits t := by
  unfold encodeLeaf at h
  split at h
  · next s =>
    cases h
    exact .inl ⟨s, rfl, rfl⟩
  · split at h
    · rw [hstyle] at h
      cases h
    · exact .inr (fits_encodeAtom h)

theorem dataForm_fits_cell (hstyle : style.loose = false) {cells : List Cell} {place turns : Nat}
    {t : String} (h : (knot cells place turns).encode style = .ok t) :
    (knot cells place turns).dataForm.Fits t := by
  rw [encode, Cell.encode] at h
  rw [dataForm]
  cases hcell : cells[place]? with
  | none =>
    rw [hcell] at h
    cases h
    exact ⟨'n', rfl, by decide, by decide⟩
  | some cell =>
    rw [hcell] at h
    cases cell with
    | list items =>
      obtain ⟨texts, -, rfl⟩ := exists_of_map_eq_ok h
      exact fits_encodedList _
    | pair first second =>
      obtain ⟨texts, -, rfl⟩ := exists_of_map_eq_ok h
      exact fits_encodedList _
    | map entries =>
      simp only [bind, Except.bind] at h
      split at h
      · cases h
      · cases h
        exact ⟨_, rfl⟩
    | scalar s =>
      rcases dataForm_fits_encodeLeaf hstyle h with ⟨s', hs, rfl⟩ | hother
      · cases s <;> cases hs
        rfl
      · cases s with
        | string s =>
          cases h
          rfl
        | _ => exact hother
    | set members =>
      rcases dataForm_fits_encodeLeaf hstyle h with ⟨s, hs, -⟩ | hother
      · cases hs
      · exact hother

/-- The text of a value as data starts as its outermost layer says. -/
theorem dataForm_fits_encode (hstyle : style.loose = false) {v : Value} {t : String}
    (h : v.encode style = .ok t) :
    v.dataForm.Fits t := by
  cases v with
  | list items =>
    rw [encode] at h
    split at h
    · cases h
      exact fits_encodedList _
    · cases h
  | map entries =>
    rw [encode] at h
    split at h
    · cases h
      exact ⟨_, rfl⟩
    · cases h
  | pair first second =>
    rw [encode] at h
    split at h
    · cases h
      exact fits_encodedList _
    · cases h
    · cases h
  | knot cells place turns => exact dataForm_fits_cell hstyle h
  | string s =>
    cases h
    rfl
  | _ =>
    rcases dataForm_fits_encodeLeaf hstyle h with ⟨s, hs, -⟩ | hother
    · cases hs
    · exact hother

end Value

end Scriptwright
