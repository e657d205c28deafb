import Mathlib.Tactic.SplitIfs
import Scriptwright.Proofs.Text.Decoded
import Scriptwright.Script.Literal

/-!
# A reader of literals

Source text is cut into marks, words, numbers and texts, with blanks between them left out; the
pieces are read as a value by descent. Keys of mappings are words or texts, and a key that comes
again replaces its value.
-/

namespace Scriptwright.Script

open Text

/-! ## Lexemes -/

inductive Mark where
  | openList
  | closeList
  | openMap
  | closeMap
  | comma
  | colon
deriving DecidableEq, Repr

def Mark.ofChar? : Char → Option Mark
  | '[' => some .openList
  | ']' => some .closeList
  | '\x7b' => some .openMap
  | '\x7d' => some .closeMap
  | ',' => some .comma
  | ':' => some .colon
  | _ => none

inductive Lexeme where
  | mark (m : Mark)
  | word (w : String)
  | number (n : Int)
  | text (s : String)
deriving DecidableEq, Repr

def isSpace (c : Char) : Bool := c == ' ' || c == '\t' || c == '\n' || c == '\r'

/-- The number that decimal digits stand for. Only zero itself begins with a zero. -/
def decimal? : List Char → Option Nat
  | [] => none
  | c :: cs => if c = '0' ∧ cs ≠ [] then none else some (Nat.ofDigitChars 10 (c :: cs) 0)

def lexeme? : List Char → Option (Lexeme × List Char)
  | [] => none
  | c :: cs =>
    match Mark.ofChar? c with
    | some m => some (.mark m, cs)
    | none =>
      if c = '"' then (decoded cs).map fun r => (.text r.1, r.2)
      else if startsName c then some (.word (.ofList (c :: cs.takeWhile continuesName)),
        cs.dropWhile continuesName)
      else if c = '-' then
        (decimal? (cs.takeWhile Char.isDigit)).map fun n : Nat =>
          (.number (-n), cs.dropWhile Char.isDigit)
      else
        (decimal? ((c :: cs).takeWhile Char.isDigit)).map fun n : Nat =>
          (.number n, (c :: cs).dropWhile Char.isDigit)

theorem length_lt_of_lexeme {cs rest : List Char} {l : Lexeme} (h : lexeme? cs = some (l, rest)) :
    rest.length < cs.length := by
  cases cs with
  | nil => cases h
  | cons c cs =>
    have hwhile : ∀ p : Char → Bool, (cs.dropWhile p).length < (c :: cs).length := fun p =>
      Nat.lt_succ_of_le (List.dropWhile_suffix p).length_le
    rw [lexeme?] at h
    split at h
    · cases h
      exact Nat.lt_succ_self _
    · split_ifs at h with hquote hname hminus
      · obtain ⟨r, hr, heq⟩ := Option.map_eq_some_iff.mp h
        cases heq
        exact Nat.lt_succ_of_lt (length_lt_of_decoded hr)
      · cases h
        exact hwhile _
      · obtain ⟨n, -, heq⟩ := Option.map_eq_some_iff.mp h
        cases heq
        exact hwhile _
      · obtain ⟨n, hn, heq⟩ := Option.map_eq_some_iff.mp h
        cases heq
        -- a number has at least one digit
        by_cases hdigit : c.isDigit = true
        · rw [List.dropWhile_cons_of_pos hdigit]
          exact hwhile _
        · rw [List.takeWhile_cons_of_neg hdigit] at hn
          cases hn

def lex : List Char → Option (List Lexeme)
  | [] => some []
  | c :: cs =>
    if isSpace c then lex cs
    else
      match h : lexeme? (c :: cs) with
      | none => none
      | some (l, rest) =>
        have := length_lt_of_lexeme h
        (lex rest).map (l :: ·)
termination_by cs => cs.length
decreasing_by
  · exact Nat.lt_succ_self _
  · exact this

/-! ## Values -/

def Lexeme.key? : Lexeme → Option String
  | .word w => some w
  | .text s => some s
  | _ => none

mutual

def readValue : Nat → List Lexeme → Option (Value × List Lexeme)
  | _, [] | 0, _ => none
  | _ + 1, .number k :: ls => some (.int k, ls)
  | _ + 1, .text s :: ls => some (.string s, ls)
  | _ + 1, .word w :: ls =>
    if w = "null" then some (.null, ls)
    else if w = "true" then some (.bool true, ls)
    else if w = "false" then some (.bool false, ls)
    else none
  | n + 1, .mark .openList :: ls =>
    if ls.head? = some (.mark .closeList) then some (.list [], ls.tail)
    else (readItems n ls).map fun r => (.list r.1, r.2)
  | n + 1, .mark .openMap :: ls =>
    if ls.head? = some (.mark .closeMap) then some (.map [], ls.tail)
    else (readEntries n [] ls).map fun r => (.map r.1, r.2)
  | _ + 1, .mark _ :: _ => none

def readItems : Nat → List Lexeme → Option (List Value × List Lexeme)
  | 0, _ => none
  | n + 1, ls =>
    match readValue n ls with
    | some (v, .mark .closeList :: ls) => some ([v], ls)
    | some (v, .mark .comma :: ls) => (readItems n ls).map fun r => (v :: r.1, r.2)
    | _ => none

def readEntries : Nat → Fields → List Lexeme → Option (Fields × List Lexeme)
  | n + 1, es, l :: .mark .colon :: ls =>
    match l.key?, readValue n ls with
    | some k, some (v, .mark .closeMap :: ls) => some (es.insert (.string k) v, ls)
    | some k, some (v, .mark .comma :: ls) => readEntries n (es.insert (.string k) v) ls
    | _, _ => none
  | _, _, _ => none

end

/-- The value that a source text stands for. No reading takes more steps than there are lexemes. -/
def readLiteral (source : String) : Option Value :=
  match lex source.toList with
  | none => none
  | some ls =>
    match readValue ls.length ls with
    | some (v, []) => some v
    | _ => none

end Scriptwright.Script
