import Mathlib.Tactic.SplitIfs
import Scriptwright.Text.Quoted

/-!
# String literals read back

A reader of string literals. What stands between the marks are sixteen-bit units: every escape is
one unit, and characters beyond the first plane are two, so that a pair of escapes can stand for
them as well. The main statement is that the literal of a text is read as that text, up to its own
closing mark.
-/

namespace Scriptwright.Text

/-! ## Units -/

def utf16 (c : Char) : List Nat :=
  if c.toNat < 0x10000 then [c.toNat]
  else [0xD800 + (c.toNat - 0x10000) / 0x400, 0xDC00 + (c.toNat - 0x10000) % 0x400]

def isLeading (u : Nat) : Bool := 0xD800 ≤ u && u < 0xDC00

def isTrailing (u : Nat) : Bool := 0xDC00 ≤ u && u < 0xE000

/-- The characters of a list of units, if no half of a pair stands alone. -/
def ofUtf16 : List Nat → Option (List Char)
  | [] => some []
  | u :: us =>
    if isLeading u then
      match us with
      | l :: us =>
        if isTrailing l then
          (ofUtf16 us).map (Char.ofNat (0x10000 + (u - 0xD800) * 0x400 + (l - 0xDC00)) :: ·)
        else none
      | [] => none
    else if isTrailing u then none
    else (ofUtf16 us).map (Char.ofNat u :: ·)

theorem toNat_valid (c : Char) : c.toNat < 0xD800 ∨ 0xDFFF < c.toNat ∧ c.toNat < 0x110000 := c.valid

theorem ofUtf16_cons {u : Nat} (hleading : isLeading u = false) (htrailing : isTrailing u = false)
    (us : List Nat) :
    ofUtf16 (u :: us) = (ofUtf16 us).map (Char.ofNat u :: ·) := by
  rw [ofUtf16.eq_def]
  simp only [hleading, htrailing, Bool.false_eq_true, if_false]

theorem ofUtf16_pair {u l : Nat} (hleading : isLeading u = true) (htrailing : isTrailing l = true)
    (us : List Nat) :
    ofUtf16 (u :: l :: us) =
      (ofUtf16 us).map (Char.ofNat (0x10000 + (u - 0xD800) * 0x400 + (l - 0xDC00)) :: ·) := by
  rw [ofUtf16, if_pos hleading, if_pos htrailing]

theorem ofUtf16_utf16_append (c : Char) (us : List Nat) :
    ofUtf16 (utf16 c ++ us) = (ofUtf16 us).map (c :: ·) := by
  have hvalid := toNat_valid c
  unfold utf16
  split_ifs with hplane
  · have hleading : isLeading c.toNat = false := by
      simp only [isLeading, Bool.and_eq_false_iff, decide_eq_false_iff_not]
      omega
    have htrailing : isTrailing c.toNat = false := by
      simp only [isTrailing, Bool.and_eq_false_iff, decide_eq_false_iff_not]
      omega
    rw [List.singleton_append, ofUtf16_cons hleading htrailing, Char.ofNat_toNat]
  · have hleading : isLeading (0xD800 + (c.toNat - 0x10000) / 0x400) = true := by
      simp only [isLeading, Bool.and_eq_true, decide_eq_true_eq]
      omega
    have htrailing : isTrailing (0xDC00 + (c.toNat - 0x10000) % 0x400) = true := by
      simp only [isTrailing, Bool.and_eq_true, decide_eq_true_eq]
      omega
    have hchar : 0x10000 + (0xD800 + (c.toNat - 0x10000) / 0x400 - 0xD800) * 0x400 +
        (0xDC00 + (c.toNat - 0x10000) % 0x400 - 0xDC00) = c.toNat := by omega
    rw [List.cons_append, List.singleton_append, ofUtf16_pair hleading htrailing, hchar,
      Char.ofNat_toNat]

theorem ofUtf16_flatMap_utf16 (cs : List Char) : ofUtf16 (cs.flatMap utf16) = some cs := by
  induction cs with
  | nil => rfl
  | cons c cs ih =>
    rw [List.flatMap_cons, ofUtf16_utf16_append, ih]
    rfl

/-! ## Escapes -/

def escape? : Char → Option Nat
  | '"' => some 0x22
  | '\\' => some 0x5C
  | '/' => some 0x2F
  | 'b' => some 0x08
  | 'f' => some 0x0C
  | 'n' => some 0x0A
  | 'r' => some 0x0D
  | 't' => some 0x09
  | _ => none

def hexDigit? (c : Char) : Option Nat :=
  if '0' ≤ c ∧ c ≤ '9' then some (c.toNat - '0'.toNat)
  else if 'a' ≤ c ∧ c ≤ 'f' then some (c.toNat - 'a'.toNat + 10)
  else if 'A' ≤ c ∧ c ≤ 'F' then some (c.toNat - 'A'.toNat + 10)
  else none

def hexNumber? (ds : List Char) : Option Nat :=
  ds.foldlM (fun n d => (hexDigit? d).map (16 * n + ·)) 0

def units : List Char → Option (List Nat × List Char)
  | [] => none
  | c :: cs =>
    if c = '"' then some ([], cs)
    else if c = '\\' then
      match cs with
      | [] => none
      | e :: cs =>
        if e = 'u' then
          match cs with
          | a :: b :: c :: d :: cs => (hexNumber? [a, b, c, d]).bind fun u =>
              (units cs).map fun r => (u :: r.1, r.2)
          | _ => none
        else (escape? e).bind fun u => (units cs).map fun r => (u :: r.1, r.2)
    else if c.toNat < 0x20 then none
    else (units cs).map fun r => (utf16 c ++ r.1, r.2)

/-- The text of a literal whose opening mark has been read, and what follows the closing mark. -/
def decoded (cs : List Char) : Option (String × List Char) :=
  (units cs).bind fun r => (ofUtf16 r.1).map fun text => (.ofList text, r.2)

theorem length_lt_of_units {cs : List Char} {r : List Nat × List Char} (h : units cs = some r) :
    r.2.length < cs.length := by
  fun_induction units cs generalizing r with
  | case1 | case3 | case5 | case7 => cases h
  | case2 cs =>
    cases h
    exact Nat.lt_succ_self _
  | case4 a b c d cs _ ih =>
    obtain ⟨u, -, h⟩ := Option.bind_eq_some_iff.mp h
    obtain ⟨r, hr, rfl⟩ := Option.map_eq_some_iff.mp h
    have hlt := ih hr
    simp only [List.length_cons]
    omega
  | case6 e cs _ _ ih =>
    obtain ⟨u, -, h⟩ := Option.bind_eq_some_iff.mp h
    obtain ⟨r, hr, rfl⟩ := Option.map_eq_some_iff.mp h
    have hlt := ih hr
    simp only [List.length_cons]
    omega
  | case8 c cs _ _ _ ih =>
    obtain ⟨r, hr, rfl⟩ := Option.map_eq_some_iff.mp h
    have hlt := ih hr
    exact Nat.lt_succ_of_lt hlt

theorem length_lt_of_decoded {cs rest : List Char} {s : String} (h : decoded cs = some (s, rest)) :
    rest.length < cs.length := by
  obtain ⟨r, hr, h⟩ := Option.bind_eq_some_iff.mp h
  obtain ⟨text, -, heq⟩ := Option.map_eq_some_iff.mp h
  cases heq
  exact length_lt_of_units hr

theorem hexDigit?_digitChar {n : Nat} (h : n < 16) : hexDigit? n.digitChar = some n := by
  have hall : ∀ n : Fin 16, hexDigit? (Nat.digitChar n) = some n.val := by decide
  exact hall ⟨n, h⟩

theorem hex_of_lt {n : Nat} (h : n < 256) :
    hex 4 n = ['0', '0', (n / 16).digitChar, (n % 16).digitChar] := by
  unfold hex
  by_cases hn : n < 16
  · rw [Nat.toDigits_of_lt_base hn, Nat.div_eq_of_lt hn, Nat.mod_eq_of_lt hn]
    rfl
  · have hdigits : Nat.toDigits 16 n = [(n / 16).digitChar, (n % 16).digitChar] := by
      have happend := @Nat.toDigits_append_toDigits 16 (n / 16) (n % 16) (by omega)
        (by omega) (by omega)
      rw [Nat.div_add_mod] at happend
      rw [← happend, Nat.toDigits_of_lt_base (by omega), Nat.toDigits_of_lt_base (by omega)]
      rfl
    rw [hdigits]
    rfl

theorem hexNumber?_hex {n : Nat} (h : n < 256) : hexNumber? (hex 4 n) = some n := by
  have hhigh : n / 16 < 16 := by omega
  have hlow : n % 16 < 16 := by omega
  have hzero : hexDigit? '0' = some 0 := rfl
  rw [hex_of_lt h]
  simp only [hexNumber?, List.foldlM_cons, List.foldlM_nil, hzero, hexDigit?_digitChar hhigh,
    hexDigit?_digitChar hlow]
  simp
  omega

/-! ## Encoded texts -/

theorem units_close (cs : List Char) : units ('"' :: cs) = some ([], cs) := by
  rw [units.eq_def]
  rfl

theorem units_escape {e : Char} {u : Nat} (he : escape? e = some u) (cs : List Char) :
    units ('\\' :: e :: cs) = (units cs).map fun r => (u :: r.1, r.2) := by
  have hne : e ≠ 'u' := by
    rintro rfl
    have hnone : escape? 'u' = none := rfl
    rw [hnone] at he
    cases he
  rw [units.eq_def]
  simp only [show '\\' ≠ '"' by decide, hne, if_false, if_true, he, Option.bind_some]

theorem units_hex {n : Nat} (h : n < 256) (cs : List Char) :
    units ('\\' :: 'u' :: hex 4 n ++ cs) = (units cs).map fun r => (n :: r.1, r.2) := by
  have hnumber := hexNumber?_hex h
  rw [hex_of_lt h] at hnumber ⊢
  simp only [List.cons_append, List.nil_append]
  rw [units.eq_def]
  simp only [show '\\' ≠ '"' by decide, if_false, if_true, hnumber, Option.bind_some]

theorem units_encodedChar_append (c : Char) (cs : List Char) :
    units (encodedChar c ++ cs) = (units cs).map fun r => (utf16 c ++ r.1, r.2) := by
  by_cases hshort : c ∈ ['"', '\\', '\n', '\r', '\t', '\x08', '\x0c']
  · simp only [List.mem_cons, List.not_mem_nil, or_false] at hshort
    rcases hshort with rfl | rfl | rfl | rfl | rfl | rfl | rfl <;> exact units_escape rfl cs
  · simp only [List.mem_cons, List.not_mem_nil, or_false, not_or] at hshort
    obtain ⟨hquote, hslash, hbreak, hreturn, htab, hback, hfeed⟩ := hshort
    rw [encodedChar, if_neg hquote, if_neg hslash, if_neg hbreak, if_neg hreturn, if_neg htab,
      if_neg hback, if_neg hfeed]
    by_cases hcontrol : c.toNat < 0x20
    · have hunits : utf16 c = [c.toNat] := if_pos (Nat.lt_trans hcontrol (by decide))
      rw [if_pos hcontrol, hunits]
      exact units_hex (Nat.lt_trans hcontrol (by decide)) cs
    · rw [if_neg hcontrol, List.singleton_append, units.eq_def]
      simp only [hquote, hslash, hcontrol, if_false]

theorem units_flatMap_encodedChar (cs rest : List Char) :
    units (cs.flatMap encodedChar ++ '"' :: rest) = some (cs.flatMap utf16, rest) := by
  induction cs with
  | nil => exact units_close rest
  | cons c cs ih =>
    rw [List.flatMap_cons, List.append_assoc, units_encodedChar_append, ih, List.flatMap_cons]
    rfl

/-- The literal of a text is read as that text, whatever follows. -/
theorem decoded_encoded (s : String) (rest : List Char) :
    decoded (s.toList.flatMap encodedChar ++ '"' :: rest) = some (s, rest) := by
  rw [decoded, units_flatMap_encodedChar, Option.bind_some, ofUtf16_flatMap_utf16, Option.map_some,
    String.ofList_toList]

end Scriptwright.Text
