import Scriptwright.Text.Quoted
import Mathlib.Tactic.SplitIfs

/-!
# Composable properties of texts

Many facts about source text say that it has some property as long as all texts in a document have
it. `Composable` collects what such a property has to allow for: plain texts, concatenation,
brackets around a text, and the escapes of quoted texts.
-/

namespace Scriptwright

namespace Text

def isBracket (c : Char) : Bool := ['(', ')', '[', ']', '{', '}'].contains c

def isPlain (c : Char) : Bool := !isBracket c && c != '\n'

/-- A text with neither brackets nor line breaks. -/
def Plain (s : String) : Prop := ∀ c ∈ s.toList, isPlain c = true

instance (s : String) : Decidable (Plain s) :=
  decidable_of_decidable_of_iff (p := s.toList.all isPlain = true) List.all_eq_true

theorem plain_append {s t : String} : Plain (s ++ t) ↔ Plain s ∧ Plain t := by
  simp only [Plain, String.toList_append, List.mem_append, or_imp, forall_and]

theorem plain_ofList {cs : List Char} (h : ∀ c ∈ cs, isPlain c = true) :
    Plain (String.ofList cs) := by
  intro c hc
  rw [String.toList_ofList] at hc
  exact h c hc

/-- Other characters in the place of one that leave brackets alone and bring in nothing but plain
characters. -/
def Respelled (c : Char) (ds : List Char) : Prop :=
  ds = [c] ∨ isBracket c = false ∧ ∀ d ∈ ds, isPlain d = true

/-- What a property of texts has to allow for so that it passes from the parts of a text to the
whole. -/
structure Composable (P : String → Prop) : Prop where
  plain {s : String} : Plain s → P s
  append {s t : String} : P s → P t → P (s ++ t)
  round {s : String} : P s → P ("(" ++ s ++ ")")
  square {s : String} : P s → P ("[" ++ s ++ "]")
  curly {s : String} : P s → P ("\x7b" ++ s ++ "\x7d")
  respelled {s : String} {f : Char → List Char} : (∀ c, Respelled c (f c)) → P s →
    P (String.ofList (s.toList.flatMap f))

/-! ## Digits -/

theorem isPlain_digitChar (n : Nat) : isPlain n.digitChar = true := by
  by_cases h : n < 16
  · have hsmall : ∀ k < 16, isPlain k.digitChar = true := by decide
    exact hsmall n h
  · have hlarge : n.digitChar = '*' := by
      unfold Nat.digitChar
      repeat rw [if_neg (by omega)]
    rw [hlarge]
    rfl

theorem isPlain_of_mem_toDigitsCore {b fuel n : Nat} {ds : List Char}
    (hds : ∀ c ∈ ds, isPlain c = true) :
    ∀ c ∈ Nat.toDigitsCore b fuel n ds, isPlain c = true := by
  induction fuel generalizing n ds with
  | zero => exact hds
  | succ fuel ih =>
    have hcons : ∀ c ∈ (n % b).digitChar :: ds, isPlain c = true := by
      intro c hc
      rcases List.mem_cons.mp hc with rfl | hc
      · exact isPlain_digitChar _
      · exact hds c hc
    rw [Nat.toDigitsCore]
    split
    · exact hcons
    · exact ih hcons

theorem isPlain_of_mem_toDigits {b n : Nat} : ∀ c ∈ Nat.toDigits b n, isPlain c = true :=
  isPlain_of_mem_toDigitsCore fun _ h => by cases h

theorem isPlain_of_mem_replicate {c : Char} (hc : isPlain c = true) (n : Nat) :
    ∀ d ∈ List.replicate n c, isPlain d = true := by
  intro d hd
  rw [List.eq_of_mem_replicate hd]
  exact hc

theorem isPlain_of_mem_append {as bs : List Char} (ha : ∀ c ∈ as, isPlain c = true)
    (hb : ∀ c ∈ bs, isPlain c = true) :
    ∀ c ∈ as ++ bs, isPlain c = true :=
  fun c hc => (List.mem_append.mp hc).elim (ha c) (hb c)

theorem isPlain_of_mem_cons {a : Char} {bs : List Char} (ha : isPlain a = true)
    (hb : ∀ c ∈ bs, isPlain c = true) :
    ∀ c ∈ a :: bs, isPlain c = true :=
  @isPlain_of_mem_append [a] bs (fun _ hc => List.mem_singleton.mp hc ▸ ha) hb

theorem isPlain_of_mem_hex (width n : Nat) : ∀ c ∈ hex width n, isPlain c = true :=
  isPlain_of_mem_append (isPlain_of_mem_replicate rfl _) isPlain_of_mem_toDigits

theorem plain_nat (n : Nat) : Plain (toString n) := by
  rw [Nat.toString_eq_ofList_toDigits]
  exact plain_ofList isPlain_of_mem_toDigits

theorem plain_int (n : Int) : Plain (toString n) := by
  rw [Int.toString_eq_repr, Int.repr_eq_if]
  split
  · exact plain_nat _
  · exact plain_append.mpr ⟨by decide, plain_nat _⟩

/-! ## Quoted texts -/

theorem respelled_escape {c : Char} {ds : List Char} (hc : isBracket c = false)
    (hds : ∀ d ∈ ds, isPlain d = true) :
    Respelled c ('\\' :: ds) :=
  .inr ⟨hc, isPlain_of_mem_cons rfl hds⟩

theorem respelled_ite {c : Char} {p : Prop} [Decidable p] {yes no : List Char}
    (hyes : p → Respelled c yes) (hno : Respelled c no) : Respelled c (if p then yes else no) := by
  split
  · next h => exact hyes h
  · exact hno

theorem isBracket_iff {c : Char} :
    isBracket c = true ↔ c = '(' ∨ c = ')' ∨ c = '[' ∨ c = ']' ∨ c = '{' ∨ c = '}' := by
  simp [isBracket]

theorem respelled_encodedChar (c : Char) : Respelled c (encodedChar c) := by
  by_cases hb : isBracket c = true
  · rcases isBracket_iff.mp hb with rfl | rfl | rfl | rfl | rfl | rfl <;> exact .inl rfl
  · rw [Bool.not_eq_true] at hb
    have hshort : ∀ d, isPlain d = true → Respelled c ['\\', d] := fun d hd =>
      respelled_escape hb (isPlain_of_mem_cons hd (by simp))
    have hcode : Respelled c ('\\' :: 'u' :: hex 4 c.toNat) :=
      respelled_escape hb (isPlain_of_mem_cons rfl (isPlain_of_mem_hex _ _))
    refine respelled_ite (fun _ => hshort _ rfl) (respelled_ite (fun _ => hshort _ rfl) ?_)
    refine respelled_ite (fun _ => hshort _ rfl) (respelled_ite (fun _ => hshort _ rfl) ?_)
    refine respelled_ite (fun _ => hshort _ rfl) (respelled_ite (fun _ => hshort _ rfl) ?_)
    exact respelled_ite (fun _ => hshort _ rfl) (respelled_ite (fun _ => hcode) (.inl rfl))

theorem respelled_shownChar {mark : Char} (hmark : mark = '\'' ∨ mark = '"') (c : Char) :
    Respelled c (shownChar mark c) := by
  by_cases hb : isBracket c = true
  · rcases hmark with rfl | rfl <;>
      rcases isBracket_iff.mp hb with rfl | rfl | rfl | rfl | rfl | rfl <;> exact .inl rfl
  · rw [Bool.not_eq_true] at hb
    have hshort : ∀ d, isPlain d = true → Respelled c ['\\', d] := fun d hd =>
      respelled_escape hb (isPlain_of_mem_cons hd (by simp))
    have hcode : ∀ letter width, isPlain letter = true →
        Respelled c ('\\' :: letter :: hex width c.toNat) :=
      fun _ _ hletter => respelled_escape hb (isPlain_of_mem_cons hletter (isPlain_of_mem_hex _ _))
    refine respelled_ite (fun hquote => ?_) ?_
    · have hplain : isPlain c = true := by
        rw [Bool.or_eq_true, beq_iff_eq, beq_iff_eq] at hquote
        rcases hquote with rfl | rfl
        · rcases hmark with rfl | rfl <;> rfl
        · rfl
      exact hshort c hplain
    · refine respelled_ite (fun _ => hshort _ rfl) (respelled_ite (fun _ => hshort _ rfl) ?_)
      refine respelled_ite (fun _ => hshort _ rfl) (respelled_ite (fun _ => .inl rfl) ?_)
      exact respelled_ite (fun _ => hcode _ _ rfl)
        (respelled_ite (fun _ => hcode _ _ rfl) (hcode _ _ rfl))

theorem markFor_eq (cs : List Char) : markFor cs = '\'' ∨ markFor cs = '"' := by
  unfold markFor
  split
  · exact .inr rfl
  · exact .inl rfl

namespace Composable

variable {P : String → Prop} (hP : Composable P)
include hP

theorem empty : P "" := hP.plain (by decide)

theorem between {s t u : String} (hs : Plain s) (ht : P t) (hu : Plain u) : P (s ++ t ++ u) :=
  hP.append (hP.append (hP.plain hs) ht) (hP.plain hu)

theorem shown {s : String} (hs : P s) : P (Text.shown s) := by
  have hmark : Plain (String.singleton (markFor s.toList)) := by
    rcases markFor_eq s.toList with h | h <;> rw [h] <;> decide
  have heq : Text.shown s = String.singleton (markFor s.toList) ++
      String.ofList (s.toList.flatMap (shownChar (markFor s.toList))) ++
        String.singleton (markFor s.toList) :=
    String.toList_injective (by simp [Text.shown, shownChars])
  rw [heq]
  exact hP.between hmark (hP.respelled (respelled_shownChar (markFor_eq _)) hs) hmark

theorem encoded {s : String} (hs : P s) : P (Text.encoded s) := by
  have heq : Text.encoded s = "\"" ++ String.ofList (s.toList.flatMap encodedChar) ++ "\"" :=
    String.toList_injective (by simp [Text.encoded, encodedChars])
  rw [heq]
  exact hP.between (by decide) (hP.respelled respelled_encodedChar hs) (by decide)

theorem intercalate {mark : String} {ts : List String} (hmark : Plain mark) (h : ∀ t ∈ ts, P t) :
    P (mark.intercalate ts) := by
  induction ts with
  | nil => exact hP.empty
  | cons t ts ih =>
    have ht := h t List.mem_cons_self
    have hts := ih fun u hu => h u (List.mem_cons_of_mem _ hu)
    cases ts with
    | nil => simpa using ht
    | cons u ts =>
      rw [String.intercalate_cons_cons]
      exact hP.append (hP.append ht (hP.plain hmark)) hts

theorem call {name opening s : String} (hname : Plain name)
    (hopening : opening = name ++ "(") (hs : P s) :
    P (opening ++ s ++ ")") := by
  have h : P (name ++ ("(" ++ s ++ ")")) := hP.append (hP.plain hname) (hP.round hs)
  rw [hopening]
  simpa only [String.append_assoc] using h

theorem braced {name opening s : String} (hname : Plain name)
    (hopening : opening = name ++ "\x7b") (hs : P s) :
    P (opening ++ s ++ "\x7d") := by
  have h : P (name ++ ("\x7b" ++ s ++ "\x7d")) := hP.append (hP.plain hname) (hP.curly hs)
  rw [hopening]
  simpa only [String.append_assoc] using h

end Composable

end Text

end Scriptwright
