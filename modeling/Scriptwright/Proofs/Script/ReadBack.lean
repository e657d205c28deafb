import Scriptwright.Proofs.Script.Literal
import Scriptwright.Proofs.Script.Reader
import Scriptwright.Proofs.Script.Spelling

/-!
# Literals are read back

Every literal is cut into the lexemes of its value whatever follows, as long as no name or number
runs on, and the lexemes are read as the value. Texts that are marked as expressions are written as
what they mark, so they are left out, and so are keys that end in a line break. The main statement
is that all other data are read back from their literals, and that there is a literal unless an
integer has too many digits.
-/

namespace Scriptwright.Script

open Text

/-! ## Lexemes of a text -/

theorem lex_space {c : Char} (hc : isSpace c = true) (cs : List Char) : lex (c :: cs) = lex cs := by
  rw [lex, if_pos hc]

theorem lex_of_lexeme {c : Char} {cs rest : List Char} {l : Lexeme} (hc : isSpace c = false)
    (h : lexeme? (c :: cs) = some (l, rest)) : lex (c :: cs) = (lex rest).map (l :: ·) := by
  rw [lex, hc, if_neg Bool.false_ne_true]
  split
  · next hnone => cases h.symm.trans hnone
  · next l' rest' hsome =>
    cases h.symm.trans hsome
    rfl

/-- Texts that do not continue a name or a number. -/
def Delimited : List Char → Prop
  | [] => True
  | c :: _ => continuesName c = false

/-- A text is cut into the given lexemes, whatever follows it. -/
def LexesTo (cs : List Char) (ls : List Lexeme) : Prop :=
  ∀ rest, Delimited rest → lex (cs ++ rest) = (lex rest).map (ls ++ ·)

namespace LexesTo

variable {cs ds : List Char} {ls ks : List Lexeme}

theorem nil : LexesTo [] [] := by
  intro rest _
  simp

theorem append (hcs : LexesTo cs ls) (hds : LexesTo ds ks)
    (hdelimited : ∀ rest, Delimited rest → Delimited (ds ++ rest)) :
    LexesTo (cs ++ ds) (ls ++ ks) := by
  intro rest hrest
  rw [List.append_assoc, hcs _ (hdelimited rest hrest), hds rest hrest, Option.map_map]
  congr 1
  funext ms
  exact (List.append_assoc ls ks ms).symm

theorem mark {c : Char} {m : Mark} (hc : isSpace c = false) (hm : Mark.ofChar? c = some m)
    (hcs : LexesTo cs ls) :
    LexesTo (c :: cs) (.mark m :: ls) := by
  intro rest hrest
  have hlexeme : lexeme? (c :: (cs ++ rest)) = some (.mark m, cs ++ rest) := by rw [lexeme?, hm]
  rw [List.cons_append, lex_of_lexeme hc hlexeme, hcs rest hrest, Option.map_map]
  rfl

theorem space (hcs : LexesTo cs ls) : LexesTo (' ' :: cs) ls := by
  intro rest hrest
  rw [List.cons_append, lex_space rfl, hcs rest hrest]

theorem lex_eq (hcs : LexesTo cs ls) : lex cs = some ls := by
  have hall := hcs [] trivial
  rwa [List.append_nil, lex, Option.map_some, List.append_nil] at hall

end LexesTo

theorem takeWhile_eq_nil_of_delimited {p : Char → Bool}
    (hp : ∀ c, p c = true → continuesName c = true) {rest : List Char} (h : Delimited rest) :
    rest.takeWhile p = [] ∧ rest.dropWhile p = rest := by
  cases rest with
  | nil => exact ⟨rfl, rfl⟩
  | cons c rest =>
    have hc : ¬p c = true := by
      intro hc
      rw [Delimited, hp c hc] at h
      cases h
    exact ⟨List.takeWhile_cons_of_neg hc, List.dropWhile_cons_of_neg hc⟩

theorem takeWhile_append_of_delimited {p : Char → Bool}
    (hp : ∀ c, p c = true → continuesName c = true) {cs rest : List Char}
    (hcs : ∀ c ∈ cs, p c = true) (h : Delimited rest) :
    (cs ++ rest).takeWhile p = cs ∧ (cs ++ rest).dropWhile p = rest := by
  obtain ⟨htake, hdrop⟩ := takeWhile_eq_nil_of_delimited hp h
  rw [List.takeWhile_append_of_pos hcs, List.dropWhile_append_of_pos hcs, htake, hdrop,
    List.append_nil]
  exact ⟨rfl, rfl⟩

theorem lexesTo_text (s : String) : LexesTo (encoded s).toList [.text s] := by
  intro rest _
  have htext : (encoded s).toList ++ rest = '"' ::
      (s.toList.flatMap encodedChar ++ '"' :: rest) := by
    simp [encoded, encodedChars]
  have hlexeme : lexeme? ('"' :: (s.toList.flatMap encodedChar ++ '"' :: rest)) =
      some (.text s, rest) := by
    rw [lexeme?]
    simp only [show Mark.ofChar? '"' = none from rfl, if_true, decoded_encoded, Option.map_some]
  rw [htext, lex_of_lexeme rfl hlexeme]
  rfl

/-- Characters of names and numbers have no other part to play. -/
theorem plain_of_continuesName {c : Char} (h : continuesName c = true) :
    isSpace c = false ∧ Mark.ofChar? c = none ∧ c ≠ '"' ∧ c ≠ '-' := by
  refine ⟨?_, ?_, ?_, ?_⟩
  · apply Bool.eq_false_iff.mpr
    intro hspace
    simp only [isSpace, Bool.or_eq_true, beq_iff_eq] at hspace
    rcases hspace with ((rfl | rfl) | rfl) | rfl
    all_goals exact absurd h (by decide)
  · unfold Mark.ofChar?
    split
    case h_7 => rfl
    all_goals exact absurd h (by decide)
  · rintro rfl
    exact absurd h (by decide)
  · rintro rfl
    exact absurd h (by decide)

theorem continuesName_of_startsName {c : Char} (h : startsName c = true) :
    continuesName c = true := by
  simp only [startsName, continuesName, Char.isAlphanum, Bool.or_eq_true] at h ⊢
  rcases h with (h | h) | h
  · exact .inl (.inl (.inl h))
  · exact .inl (.inr h)
  · exact .inr h

theorem continuesName_of_isDigit {c : Char} (h : c.isDigit = true) : continuesName c = true := by
  simp only [continuesName, Char.isAlphanum, h, Bool.or_true, Bool.true_or]

theorem not_startsName_of_isDigit {c : Char} (h : c.isDigit = true) : startsName c = false := by
  obtain ⟨-, hle⟩ := Char.isDigit_iff_toNat.mp h
  have hnine : '9'.toNat = 57 := rfl
  have hupper : c.isUpper = true → 65 ≤ c.toNat := fun hc =>
    UInt32.le_iff_toNat_le.mp (of_decide_eq_true hc).1
  have hlower : c.isLower = true → 97 ≤ c.toNat := fun hc =>
    UInt32.le_iff_toNat_le.mp (of_decide_eq_true (Bool.and_eq_true_iff.mp hc).1)
  apply Bool.eq_false_iff.mpr
  intro hstart
  simp only [startsName, Bool.or_eq_true, beq_iff_eq] at hstart
  rcases hstart with (halpha | rfl) | rfl
  · rcases Bool.or_eq_true_iff.mp halpha with hc | hc
    · have hlarge := hupper hc
      omega
    · have hlarge := hlower hc
      omega
  · exact absurd h (by decide)
  · exact absurd h (by decide)

theorem lexesTo_word {cs : List Char} (h : isPlainName cs = true) :
    LexesTo cs [.word (.ofList cs)] := by
  cases cs with
  | nil => cases h
  | cons c cs =>
    obtain ⟨hstart, hcontinue⟩ := Bool.and_eq_true_iff.mp h
    obtain ⟨hspace, hmark, hquote, -⟩ := plain_of_continuesName (continuesName_of_startsName hstart)
    intro rest hrest
    obtain ⟨htake, hdrop⟩ := takeWhile_append_of_delimited (fun _ h => h)
      (List.all_eq_true.mp hcontinue) hrest
    have hlexeme : lexeme? (c :: (cs ++ rest)) = some (.word (.ofList (c :: cs)), rest) := by
      rw [lexeme?]
      simp only [hmark, hquote, hstart, if_false, if_true, htake, hdrop]
    rw [List.cons_append, lex_of_lexeme hspace hlexeme]
    rfl

/-! ## Numbers -/

theorem eq_zero_of_toDigits {n : Nat} {cs : List Char} (h : Nat.toDigits 10 n = '0' :: cs) :
    n = 0 := by
  induction n using Nat.strongRecOn generalizing cs with
  | ind n ih =>
    by_cases hn : n < 10
    · have hdigits := Nat.toDigits_of_lt_base hn
      have hcs : cs = [] := by
        rw [h] at hdigits
        exact (List.cons.inj hdigits).2
      have hvalue := @Nat.ofDigitChars_toDigits 10 n (by decide) (by decide)
      rw [h, hcs] at hvalue
      exact hvalue.symm
    · -- the first digit is that of the number without its last one
      have happend := @Nat.toDigits_append_toDigits 10 (n / 10) (n % 10) (by decide)
        (by omega) (by omega)
      rw [Nat.div_add_mod, h] at happend
      obtain ⟨c, ds, hds⟩ := List.exists_cons_of_ne_nil (@Nat.toDigits_ne_nil (n / 10) 10)
      rw [hds, List.cons_append] at happend
      rw [(List.cons.inj happend).1] at hds
      have hzero := ih (n / 10) (by omega) hds
      omega

theorem decimal?_toDigits (n : Nat) : decimal? (Nat.toDigits 10 n) = some n := by
  obtain ⟨c, cs, hcs⟩ := List.exists_cons_of_ne_nil (@Nat.toDigits_ne_nil n 10)
  have hleading : ¬(c = '0' ∧ cs ≠ []) := by
    rintro ⟨rfl, hne⟩
    obtain rfl := eq_zero_of_toDigits hcs
    exact hne (List.cons.inj hcs).2.symm
  have hvalue := @Nat.ofDigitChars_toDigits 10 n (by decide) (by decide)
  rw [hcs] at hvalue ⊢
  rw [decimal?, if_neg hleading, hvalue]

theorem takeWhile_toDigits_append (n : Nat) {rest : List Char} (h : Delimited rest) :
    (Nat.toDigits 10 n ++ rest).takeWhile Char.isDigit = Nat.toDigits 10 n ∧
      (Nat.toDigits 10 n ++ rest).dropWhile Char.isDigit = rest :=
  takeWhile_append_of_delimited (fun _ => continuesName_of_isDigit)
    (fun _ hc => Nat.isDigit_of_mem_toDigits (by decide) (by decide) hc) h

theorem lexesTo_nat (n : Nat) : LexesTo (Nat.toDigits 10 n) [.number n] := by
  intro rest hrest
  obtain ⟨htake, hdrop⟩ := takeWhile_toDigits_append n hrest
  have hdecimal := decimal?_toDigits n
  obtain ⟨c, cs, hcs⟩ := List.exists_cons_of_ne_nil (@Nat.toDigits_ne_nil n 10)
  have hdigit : c.isDigit = true :=
    @Nat.isDigit_of_mem_toDigits 10 n c (by decide) (by decide) (by rw [hcs]; simp)
  obtain ⟨hspace, hmark, hquote, hminus⟩ := plain_of_continuesName (continuesName_of_isDigit hdigit)
  rw [hcs] at htake hdrop hdecimal ⊢
  rw [List.cons_append] at htake hdrop ⊢
  have hlexeme : lexeme? (c :: (cs ++ rest)) = some (.number n, rest) := by
    rw [lexeme?]
    simp only [hmark, hquote, hminus, not_startsName_of_isDigit hdigit, if_false,
      Bool.false_eq_true, htake, hdrop, hdecimal, Option.map_some]
  rw [lex_of_lexeme hspace hlexeme]
  rfl

theorem lexesTo_int (n : Int) : LexesTo (toString n).toList [.number n] := by
  cases n with
  | ofNat n =>
    have htext : (toString (Int.ofNat n)).toList = Nat.toDigits 10 n := String.toList_ofList
    rw [htext]
    exact lexesTo_nat n
  | negSucc n =>
    have htext : (toString (Int.negSucc n)).toList = '-' :: Nat.toDigits 10 (n + 1) := by
      change ("-" ++ String.ofList (Nat.toDigits 10 (n + 1))).toList = _
      simp
    intro rest hrest
    obtain ⟨htake, hdrop⟩ := takeWhile_toDigits_append (n + 1) hrest
    have hlexeme : lexeme? ('-' :: (Nat.toDigits 10 (n + 1) ++ rest)) =
        some (.number (.negSucc n), rest) := by
      rw [lexeme?]
      simp only [show Mark.ofChar? '-' = none from rfl, show '-' ≠ '"' by decide,
        show startsName '-' = false from rfl, if_false, if_true, Bool.false_eq_true, htake, hdrop,
        decimal?_toDigits, Option.map_some]
      rfl
    rw [htext, List.cons_append, lex_of_lexeme rfl hlexeme]
    rfl

/-! ## Values -/

/-- Data that stand for themselves in literals: texts that are not marked as expressions, and
mappings with distinct texts as keys, none of which ends in a line break. -/
inductive Legible : Value → Prop where
  | null : Legible .null
  | bool (b : Bool) : Legible (.bool b)
  | int (n : Int) : Legible (.int n)
  | string {s : String} (h : dynamicExpression? s = none) : Legible (.string s)
  | list {vs : List Value} (h : ∀ v ∈ vs, Legible v) : Legible (.list vs)
  | map {fields : List (String × Value)} (hdistinct : (fields.map (·.1)).Nodup)
    (hbreak : ∀ e ∈ fields, e.1.toList.getLast? ≠ some '\n') (h : ∀ e ∈ fields, Legible e.2) :
      Legible (.record fields)

/-- A text that is read as a value, whatever follows it. -/
def Denotes (cs : List Char) (v : Value) : Prop :=
  ∃ ls, LexesTo cs ls ∧ ∀ n rest, ls.length ≤ n → readValue n (ls ++ rest) = some (v, rest)

theorem denotes_of_lexeme {cs : List Char} {l : Lexeme} {v : Value} (hcs : LexesTo cs [l])
    (h : ∀ n rest, readValue (n + 1) (l :: rest) = some (v, rest)) : Denotes cs v := by
  refine ⟨[l], hcs, fun n rest hn => ?_⟩
  cases n with
  | zero => cases hn
  | succ n => exact h n rest

theorem denotes_word {cs : List Char} {v : Value} (hcs : isPlainName cs = true)
    (h : ∀ n rest, readValue (n + 1) (.word (.ofList cs) :: rest) = some (v, rest)) :
    Denotes cs v :=
  denotes_of_lexeme (lexesTo_word hcs) h

theorem delimited_cons {c : Char} (hc : continuesName c = false) (cs : List Char) :
    Delimited (c :: cs) := hc

/-! ## Lists -/

theorem toList_commas (t u : String) (ts : List String) :
    (", ".intercalate (t :: u :: ts)).toList = t.toList ++ ',' :: ' ' ::
      (", ".intercalate (u :: ts)).toList := by
  rw [String.intercalate_cons_cons]
  simp

theorem exists_items {vs : List Value} (hne : vs ≠ [])
    (h : ∀ v ∈ vs, ∃ text, literal v = .ok text ∧ Denotes text.toList v) :
    ∃ texts ls, literalItems vs = .ok texts ∧ texts ≠ [] ∧
      LexesTo (", ".intercalate texts).toList ls ∧
      ∀ n rest, ls.length < n → readItems n (ls ++ .mark .closeList :: rest) = some (vs, rest) := by
  induction vs with
  | nil => exact absurd rfl hne
  | cons v vs ih =>
    obtain ⟨text, htext, ls, hls, hread⟩ := h v List.mem_cons_self
    cases vs with
    | nil =>
      refine ⟨[text], ls, by rw [literalItems, htext]; rfl, List.cons_ne_nil _ _, ?_, ?_⟩
      · rw [String.intercalate_singleton]
        exact hls
      · intro n rest hn
        obtain ⟨n, rfl⟩ := Nat.exists_eq_add_one.mpr (Nat.zero_lt_of_lt hn)
        rw [readItems, hread n _ (Nat.le_of_lt_succ hn)]
    | cons w vs =>
      obtain ⟨texts, ks, hitems, hnonempty, hks, hreads⟩ :=
        ih (List.cons_ne_nil _ _) fun u hu => h u (List.mem_cons_of_mem _ hu)
      obtain ⟨u, texts, rfl⟩ := List.exists_cons_of_ne_nil hnonempty
      refine ⟨text :: u :: texts, ls ++ .mark .comma :: ks, ?_, List.cons_ne_nil _ _, ?_, ?_⟩
      · rw [literalItems, htext, hitems]
        rfl
      · rw [toList_commas]
        exact hls.append (.mark rfl rfl hks.space) fun rest _ => delimited_cons rfl _
      · intro n rest hn
        obtain ⟨n, rfl⟩ := Nat.exists_eq_add_one.mpr (Nat.zero_lt_of_lt hn)
        simp only [List.length_append, List.length_cons] at hn
        rw [readItems, List.append_assoc, List.cons_append, hread n _ (by omega)]
        dsimp only
        rw [hreads n rest (by omega)]
        rfl

theorem readItems_close (n : Nat) (ls : List Lexeme) :
    readItems n (.mark .closeList :: ls) = none := by
  have hnone : ∀ n, readValue n (.mark .closeList :: ls) = none := by
    intro n
    cases n with
    | _ => rfl
  cases n with
  | zero => rfl
  | succ n => rw [readItems, hnone]

theorem readValue_of_items {n : Nat} {ls rest : List Lexeme} {vs : List Value}
    (h : readItems n ls = some (vs, rest)) :
    readValue (n + 1) (.mark .openList :: ls) = some (.list vs, rest) := by
  have hhead : ls.head? ≠ some (.mark .closeList) := by
    intro hhead
    obtain ⟨ks, rfl⟩ := List.head?_eq_some_iff.mp hhead
    rw [readItems_close] at h
    cases h
  rw [readValue, if_neg hhead, h]
  rfl

theorem denotes_list {vs : List Value}
    (h : ∀ v ∈ vs, ∃ text, literal v = .ok text ∧ Denotes text.toList v) :
    ∃ text, literal (.list vs) = .ok text ∧ Denotes text.toList (.list vs) := by
  by_cases hne : vs = []
  · subst hne
    refine ⟨"[]", rfl, [.mark .openList, .mark .closeList], .mark rfl rfl (.mark rfl rfl .nil),
      fun n rest hn => ?_⟩
    obtain ⟨n, rfl⟩ := Nat.exists_eq_add_one.mpr (Nat.zero_lt_of_lt hn)
    rfl
  · obtain ⟨texts, ls, hitems, -, hls, hread⟩ := exists_items hne h
    refine ⟨listLiteral texts,
      by rw [literal, hitems]; rfl, .mark .openList :: (ls ++ [Lexeme.mark .closeList]), ?_, ?_⟩
    · have htext : (listLiteral texts).toList = '[' ::
          ((", ".intercalate texts).toList ++ [']']) := by
        simp [listLiteral]
      rw [htext]
      exact .mark rfl rfl (hls.append (.mark rfl rfl .nil) fun rest _ => delimited_cons rfl _)
    · intro n rest hn
      obtain ⟨n, rfl⟩ := Nat.exists_eq_add_one.mpr (Nat.zero_lt_of_lt hn)
      simp only [List.length_append, List.length_cons, List.length_nil] at hn
      rw [List.cons_append, List.append_assoc]
      exact readValue_of_items (hread n rest (by omega))

/-! ## Mappings -/

theorem exists_key {k : String} (hbreak : k.toList.getLast? ≠ some '\n') :
    ∃ l : Lexeme, LexesTo (keyText k).toList [l] ∧ l.key? = some k := by
  rw [keyText, dropLastBreak_of_getLast? hbreak]
  split_ifs with hname
  · refine ⟨.word k, ?_, rfl⟩
    have hword := lexesTo_word hname
    rwa [String.ofList_toList] at hword
  · exact ⟨.text k, lexesTo_text k, rfl⟩

def insertAll (es : Fields) (fields : List (String × Value)) : Fields :=
  fields.foldl (fun es e => es.insert (.string e.1) e.2) es

theorem insert_ofTexts {fields : List (String × Value)} {k : String} (v : Value)
    (h : k ∉ fields.map (·.1)) :
    (Fields.ofTexts fields).insert (.string k) v = Fields.ofTexts (fields ++ [(k, v)]) := by
  induction fields with
  | nil => rfl
  | cons e fields ih =>
    rw [List.map_cons, List.mem_cons, not_or] at h
    have hne : ¬(Value.string e.1).sameKey (.string k) = true :=
      fun heq => h.1 (beq_iff_eq.mp heq).symm
    have hrest := ih h.2
    rw [Fields.ofTexts] at hrest ⊢
    rw [List.map_cons, Fields.insert, if_neg hne, hrest]
    rfl

/-- Distinct keys keep their order. -/
theorem insertAll_ofTexts {front fields : List (String × Value)}
    (h : ((front ++ fields).map (·.1)).Nodup) :
    insertAll (Fields.ofTexts front) fields = Fields.ofTexts (front ++ fields) := by
  induction fields generalizing front with
  | nil =>
    rw [List.append_nil]
    rfl
  | cons e fields ih =>
    have hfresh : e.1 ∉ front.map (·.1) := by
      rw [List.map_append, List.nodup_append] at h
      exact fun hmem => h.2.2 _ hmem _ List.mem_cons_self rfl
    have hrest := @ih (front ++ [e])
    rw [List.append_assoc, List.singleton_append] at hrest
    rw [insertAll, List.foldl_cons, insert_ofTexts e.2 hfresh]
    exact hrest h

theorem toList_entry (k text : String) :
    (keyText k ++ ": " ++ text).toList = (keyText k).toList ++ ':' :: ' ' :: text.toList := by
  simp

theorem exists_entries {fields : List (String × Value)} (hne : fields ≠ [])
    (hbreak : ∀ e ∈ fields, e.1.toList.getLast? ≠ some '\n')
    (h : ∀ e ∈ fields, ∃ text, literal e.2 = .ok text ∧ Denotes text.toList e.2) :
    ∃ texts ls, literalEntries (Fields.ofTexts fields) = .ok texts ∧ texts ≠ [] ∧
      LexesTo (", ".intercalate texts).toList ls ∧
      ∀ n es rest, ls.length < n →
        readEntries n es (ls ++ .mark .closeMap :: rest) = some (insertAll es fields, rest) := by
  induction fields with
  | nil => exact absurd rfl hne
  | cons e fields ih =>
    obtain ⟨text, htext, ls, hls, hread⟩ := h e List.mem_cons_self
    obtain ⟨l, hl, hkey⟩ := exists_key (hbreak e List.mem_cons_self)
    have hentry : LexesTo (keyText e.1 ++ ": " ++ text).toList (l :: .mark .colon :: ls) := by
      rw [toList_entry]
      exact hl.append (.mark rfl rfl hls.space) fun rest _ => delimited_cons rfl _
    cases fields with
    | nil =>
      refine ⟨[keyText e.1 ++ ": " ++ text], l :: .mark .colon :: ls, ?_,
        List.cons_ne_nil _ _, ?_, ?_⟩
      · rw [Fields.ofTexts, List.map_cons, literalEntries, htext]
        rfl
      · rw [String.intercalate_singleton]
        exact hentry
      · intro n es rest hn
        obtain ⟨n, rfl⟩ := Nat.exists_eq_add_one.mpr (Nat.zero_lt_of_lt hn)
        simp only [List.length_cons] at hn
        rw [List.cons_append, List.cons_append, readEntries, hkey, hread n _ (by omega)]
        rfl
    | cons e' fields =>
      obtain ⟨texts, ks, hentries, hnonempty, hks, hreads⟩ := ih (List.cons_ne_nil _ _)
        (fun f hf => hbreak f (List.mem_cons_of_mem _ hf)) fun f hf =>
          h f (List.mem_cons_of_mem _ hf)
      obtain ⟨u, texts, rfl⟩ := List.exists_cons_of_ne_nil hnonempty
      refine ⟨(keyText e.1 ++ ": " ++ text) :: u :: texts,
        l :: .mark .colon :: ls ++ .mark .comma :: ks, ?_, List.cons_ne_nil _ _, ?_, ?_⟩
      · rw [Fields.ofTexts, List.map_cons, literalEntries, htext]
        dsimp only
        rw [← Fields.ofTexts, hentries]
        rfl
      · rw [toList_commas]
        exact hentry.append (.mark rfl rfl hks.space) fun rest _ => delimited_cons rfl _
      · intro n es rest hn
        obtain ⟨n, rfl⟩ := Nat.exists_eq_add_one.mpr (Nat.zero_lt_of_lt hn)
        simp only [List.length_append, List.length_cons] at hn
        rw [List.append_assoc, List.cons_append, List.cons_append, readEntries, hkey,
          List.cons_append, hread n _ (by omega)]
        dsimp only
        rw [hreads n _ rest (by omega)]
        rfl

theorem readEntries_mark (n : Nat) (es : Fields) (m : Mark) (ls : List Lexeme) :
    readEntries n es (.mark m :: ls) = none := by
  rw [readEntries.eq_def]
  split
  · next heq =>
    cases heq
    rfl
  · rfl

theorem readValue_of_entries {n : Nat} {ls rest : List Lexeme} {es : Fields}
    (h : readEntries n [] ls = some (es, rest)) :
    readValue (n + 1) (.mark .openMap :: ls) = some (.map es, rest) := by
  have hhead : ls.head? ≠ some (.mark .closeMap) := by
    intro hhead
    obtain ⟨ks, rfl⟩ := List.head?_eq_some_iff.mp hhead
    rw [readEntries_mark] at h
    cases h
  rw [readValue, if_neg hhead, h]
  rfl

theorem denotes_map {fields : List (String × Value)} (hdistinct : (fields.map (·.1)).Nodup)
    (hbreak : ∀ e ∈ fields, e.1.toList.getLast? ≠ some '\n')
    (h : ∀ e ∈ fields, ∃ text, literal e.2 = .ok text ∧ Denotes text.toList e.2) :
    ∃ text, literal (.record fields) = .ok text ∧ Denotes text.toList (.record fields) := by
  by_cases hne : fields = []
  · subst hne
    refine ⟨"\x7b\x7d", rfl, [.mark .openMap, .mark .closeMap], .mark rfl rfl (.mark rfl rfl .nil),
      fun n rest hn => ?_⟩
    obtain ⟨n, rfl⟩ := Nat.exists_eq_add_one.mpr (Nat.zero_lt_of_lt hn)
    rfl
  · obtain ⟨texts, ls, hentries, hnonempty, hls, hread⟩ := exists_entries hne hbreak h
    refine ⟨mapLiteral texts, by rw [Value.record, literal, hentries]; rfl,
      .mark .openMap :: (ls ++ [Lexeme.mark .closeMap]), ?_, ?_⟩
    · have htext : (mapLiteral texts).toList =
          '\x7b' :: ' ' :: ((", ".intercalate texts).toList ++ [' ', '\x7d']) := by
        simp [mapLiteral, hnonempty]
      have hclose : LexesTo [' ', '\x7d'] [.mark .closeMap] := .space (.mark rfl rfl .nil)
      rw [htext]
      exact .mark rfl rfl (.space (hls.append hclose fun rest _ => delimited_cons rfl _))
    · intro n rest hn
      obtain ⟨n, rfl⟩ := Nat.exists_eq_add_one.mpr (Nat.zero_lt_of_lt hn)
      simp only [List.length_append, List.length_cons, List.length_nil] at hn
      have hall : insertAll [] fields = Fields.ofTexts fields :=
        @insertAll_ofTexts [] fields hdistinct
      rw [List.cons_append, List.append_assoc, Value.record, ← hall]
      exact readValue_of_entries (hread n [] rest (by omega))

/-! ## All data -/

theorem denotes_literal {v : Value} (h : Legible v) (hv : v.writable = true) :
    ∃ text, literal v = .ok text ∧ Denotes text.toList v := by
  induction h with
  | null => exact ⟨"null", rfl, denotes_word rfl fun _ _ => rfl⟩
  | bool b =>
    cases b with
    | false => exact ⟨"false", rfl, denotes_word rfl fun _ _ => rfl⟩
    | true => exact ⟨"true", rfl, denotes_word rfl fun _ _ => rfl⟩
  | int n => exact ⟨toString n, Value.written_of_writable hv _,
      denotes_of_lexeme (lexesTo_int n) fun _ _ => rfl⟩
  | @string s hs =>
    refine ⟨encoded s, ?_, denotes_of_lexeme (lexesTo_text s) fun _ _ => rfl⟩
    rw [literal, scalarLiteral, textLiteral, hs]
    rfl
  | list _ ih => exact denotes_list fun v hmem => ih v hmem (Value.writable_list.mp hv v hmem)
  | map hdistinct hbreak _ ih =>
    refine denotes_map hdistinct hbreak fun e he => ih e he ?_
    exact (Value.writable_map.mp hv _ (List.mem_map_of_mem he)).2

theorem Legible.simple {v : Value} (h : Legible v) : v.simple = true := by
  induction h with
  | list _ ih => exact Value.everywhere_list rfl ih
  | map _ _ _ ih =>
    refine Value.everywhere_map rfl fun e he => ?_
    obtain ⟨x, hx, rfl⟩ := List.mem_map.mp he
    exact ⟨rfl, ih x hx⟩
  | _ => rfl

/-- Literals can be read back: a value without marked texts and with distinct keys that do not end
in a line break has a literal if all its integers are spelled out, and what is read from it is the
value again, with its keys in their order. If an integer has too many digits, the value is a bad
one. -/
theorem readLiteral_literal (v : Value) (h : Legible v) :
    (v.writable = true → ∃ text, literal v = .ok text ∧ readLiteral text = some v) ∧
      (v.writable = false → literal v = .error .badValue) := by
  constructor
  · intro hv
    obtain ⟨text, htext, ls, hls, hread⟩ := denotes_literal h hv
    refine ⟨text, htext, ?_⟩
    have hvalue := hread ls.length [] (Nat.le_refl _)
    rw [List.append_nil] at hvalue
    rw [readLiteral, hls.lex_eq]
    dsimp only
    rw [hvalue]
  · intro hv
    obtain ⟨text, htext⟩ := exists_literal v h.simple
    rw [htext, Value.written_of_not_writable hv]

/-- A word as a key, keys that are no names, marks and escapes inside a text, and a large number. -/
theorem readLiteral_literal_nested :
    let text := Value.string "a\": [\\\x07, \x7d\n"
    let v := Value.record [("null", .list [.null, .int (-9007199254740993), .record []]),
      ("two words", text), ("", .list [])]
    let source := "\x7b null: [null, -9007199254740993, \x7b\x7d], " ++
      "\"two words\": \"a\\\": [\\\\\\u0007, \x7d\\n\", \"\": [] \x7d"
    Legible v ∧ v.writable = true ∧ literal v = .ok source ∧ readLiteral source = some v := by
  intro text v source
  have htext : Legible text := .string rfl
  have hlist : Legible (.list [.null, .int (-9007199254740993), .record []]) := by
    refine .list fun w hw => ?_
    simp only [List.mem_cons, List.not_mem_nil, or_false] at hw
    rcases hw with rfl | rfl | rfl
    · exact .null
    · exact .int _
    · exact .map List.nodup_nil (List.forall_mem_nil _) (List.forall_mem_nil _)
  have hv : Legible v := by
    refine .map (by decide) (by decide) fun e he => ?_
    simp only [List.mem_cons, List.not_mem_nil, or_false] at he
    rcases he with rfl | rfl | rfl
    · exact hlist
    · exact htext
    · exact .list (List.forall_mem_nil _)
  have hwritable : v.writable = true := by decide +kernel
  obtain ⟨source', hliteral, hread⟩ := (readLiteral_literal v hv).1 hwritable
  have hsource : (literal v).toOption = some source := by decide +kernel
  rw [hliteral] at hsource
  obtain rfl : source' = source := Option.some.inj hsource
  exact ⟨hv, hwritable, hliteral, hread⟩

/-- The least integer that is not spelled out has no literal. -/
theorem literal_long_integer :
    Legible (.int (10 ^ mostDigits)) ∧ literal (.int (10 ^ mostDigits)) = .error .badValue :=
  ⟨.int _, Value.written_of_not_writable Value.not_writable_power _⟩

end Scriptwright.Script
