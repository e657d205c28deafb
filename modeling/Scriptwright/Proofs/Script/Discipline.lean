import Scriptwright.Proofs.Script.Uses
import Scriptwright.Proofs.Value.Texts
import Mathlib.Data.List.Forall2

/-!
# Disciplines of emitted text

Laws of emitted text have one shape: texts are read in states, each part of a rule leads from one
state to another, and the two texts that come out at two levels are related by where they
start and end. A `Discipline` gives the states and the relation; `Piece.trace` follows a rule without looking
at any node. If the trace of every rule ends where it should, then emission keeps the discipline for
all values.
-/

namespace Scriptwright.Script

/-! ## Two runs -/

/-- Two outcomes with the same journal: related results, or the same fault. -/
inductive Outcomes {α : Type} (R : α → α → Prop) :
    Except Fault α × Journal → Except Fault α × Journal → Prop
  | ok {a b : α} {j : Journal} (h : R a b) : Outcomes R (.ok a, j) (.ok b, j)
  | error {f : Fault} {j : Journal} : Outcomes R (.error f, j) (.error f, j)

section Outcomes

variable {α β : Type} {R R' : α → α → Prop} {S : β → β → Prop} {x y : Emission α} {j : Journal}

theorem Outcomes.mono {p r : Except Fault α × Journal} (h : Outcomes R p r)
    (hR : ∀ a b, R a b → R' a b) :
    Outcomes R' p r := by
  cases h with
  | ok hab => exact .ok (hR _ _ hab)
  | error => exact .error

theorem Outcomes.bind {f g : α → Emission β} (h : Outcomes R (x j) (y j))
    (hfg : ∀ a b, R a b → ∀ k, Outcomes S (f a k) (g b k)) :
    Outcomes S (x.bind f j) (y.bind g j) := by
  unfold Emission.bind
  generalize x j = p at h
  generalize y j = r at h
  cases h with
  | ok hab => exact hfg _ _ hab _
  | error => exact .error

theorem Outcomes.map {f g : α → β} (h : Outcomes R (x j) (y j))
    (hfg : ∀ a b, R a b → S (f a) (g b)) :
    Outcomes S (x.map f j) (y.map g j) :=
  h.bind fun a b hab _ => .ok (hfg a b hab)

end Outcomes

/-! ## Disciplines -/

/-- The states that texts are read in, and where the fixed texts of a rule lead. -/
structure Tracker where
  State : Type
  [decidableEq : DecidableEq State]
  /-- Where expressions start and end. -/
  mid : State
  /-- Where statements start and end. -/
  start : State
  /-- Behind the margin of a line. -/
  fresh : State
  text : State → String → Option State
  margin : State → Option State
  /-- Whether a text that goes from `mid` to `mid` may stand at a state. -/
  inline : State → Bool
  /-- Whether a text that goes from `start` to `start` may stand at a state. -/
  lines : State → Bool
  /-- A state that says no more than either of two. -/
  merge : State → State → Option State

namespace Tracker

attribute [instance] Tracker.decidableEq

/-- The fixed texts that the shapes of code put next to an expression. -/
def marks : List String :=
  ["", " ", ", ", " as ", " from ", "class", "for", "className", "htmlFor", "\x7b\x7d",
    "export \x7b\x7d", "<", "</", ">", " />"]

/-- The fixed texts that the shapes of code put around an expression. -/
def enclosures : List (String × String) :=
  [("(", ")"), ("$\x7b", "\x7d"), ("\x7b ", " \x7d"), ("export \x7b ", " \x7d")]

def lineEnds : List String := ["", ";"]

variable (T : Tracker)

def side : Mode → T.State
  | .expression => T.mid
  | .statement => T.start

def isFree (t : String) : Bool := T.text T.mid t == some T.mid

/-- Whether an expression may stand between two fixed texts within an expression. -/
def encloses (opening closing : String) : Bool :=
  match T.text T.mid opening with
  | some a => T.inline a && T.text a closing == some T.mid
  | none => false

theorem exists_of_encloses {opening closing : String} (h : T.encloses opening closing = true) :
    ∃ a, T.text T.mid opening = some a ∧ T.inline a = true ∧ T.text a closing = some T.mid := by
  unfold encloses at h
  split at h
  · next a ha =>
    obtain ⟨hinline, hclose⟩ := Bool.and_eq_true_iff.mp h
    exact ⟨a, ha, hinline, beq_iff_eq.mp hclose⟩
  · cases h

def enclosesLines : Bool :=
  match T.text T.mid "\x7b\n" with
  | some a => T.lines a && ((T.margin a).bind fun b => T.text b "\x7d") == some T.mid
  | none => false

/-- Whether the fixed texts that shapes bring in lead where they should. -/
structure Shapely : Prop where
  marks : ∀ t ∈ marks, T.isFree t = true
  enclosures : ∀ e ∈ enclosures, T.encloses e.1 e.2 = true
  enclosesLines : T.enclosesLines = true
  margin_start : T.margin T.start = some T.fresh
  inline_fresh : T.inline T.fresh = true
  lineEnd : ∀ close ∈ lineEnds, T.text T.fresh (close ++ "\n") = some T.start

end Tracker

/-- A tracker with its meaning: which texts at which pairs of levels are related between two states.
-/
structure Discipline extends Tracker where
  levels : Int → Int → Prop
  related : State → State → String → String → Prop

namespace Discipline

variable (D : Discipline)

/-- What a discipline has to satisfy so that emission in a layout keeps it as long as all texts of a
document have `P`. -/
structure Lawful (layout : Layout) (P : String → Prop) : Prop extends D.toTracker.Shapely where
  deeper {l l' : Int} : D.levels l l' → D.levels (l + 1) (l' + 1)
  nil {a : D.State} : D.related a a "" ""
  append {a b c : D.State} {t t' u u' : String} :
    D.related a b t t' → D.related b c u u' → D.related a c (t ++ u) (t' ++ u')
  text {a b : D.State} {t : String} : D.text a t = some b → D.related a b t t
  margin {a b : D.State} {l l' : Int} :
    D.margin a = some b → D.levels l l' → D.related a b (layout.margin l) (layout.margin l')
  inline {a : D.State} {t t' : String} : D.inline a = true → D.related D.mid D.mid t t' →
    D.related a a t t'
  lines {a : D.State} {t t' : String} : D.lines a = true → D.related D.start D.start t t' →
    D.related a a t t'
  merge {a b c d : D.State} {t t' : String} :
    D.merge b c = some d → D.related a b t t' ∨ D.related a c t t' → D.related a d t t'
  leaf {t : String} : P t → D.related D.mid D.mid t t
  eq_iff {a : D.State} {t t' u u' : String} : D.related a a t t' → D.related a a u u' →
    (t = u ↔ t' = u')
  needsBlank {sign t t' : String} :
    D.related D.mid D.mid t t' → needsBlank sign.toList t.toList = needsBlank sign.toList t'.toList
  startsDeclaration {t t' : String} :
    D.related D.mid D.mid t t' → startsDeclaration t.toList = startsDeclaration t'.toList

end Discipline

section Texts

variable {D : Discipline} {layout : Layout} {P : String → Prop} (hD : D.Lawful layout P)
include hD

/-! ## Texts -/

theorem Discipline.Lawful.free {t : String} (h : D.isFree t = true) : D.related D.mid D.mid t t :=
  hD.text (beq_iff_eq.mp h)

theorem Discipline.Lawful.mark {t : String} (h : t ∈ Tracker.marks) : D.related D.mid D.mid t t :=
  hD.free (hD.marks t h)

theorem Discipline.Lawful.enclosed {opening closing t t' : String}
    (he : (opening, closing) ∈ Tracker.enclosures) (h : D.related D.mid D.mid t t') :
    D.related D.mid D.mid (opening ++ t ++ closing) (opening ++ t' ++ closing) := by
  obtain ⟨a, hopen, hinline, hclose⟩ := D.exists_of_encloses (hD.enclosures _ he)
  have hinside := hD.append (hD.text hopen) (hD.inline hinline h)
  exact hD.append hinside (hD.text hclose)

theorem Discipline.Lawful.empty_iff {a : D.State} {t t' : String} (h : D.related a a t t') :
    t = "" ↔ t' = "" :=
  hD.eq_iff h hD.nil

theorem Discipline.Lawful.join {a : D.State} {ts ts' : List String}
    (h : List.Forall₂ (D.related a a) ts ts') :
    D.related a a (String.join ts) (String.join ts') := by
  induction h with
  | nil => exact hD.nil
  | cons ht _ ih =>
    rw [String.join_cons, String.join_cons]
    exact hD.append ht ih

theorem Discipline.Lawful.intercalate {mark : String} {ts ts' : List String}
    (hmark : D.related D.mid D.mid mark mark) (h : List.Forall₂ (D.related D.mid D.mid) ts ts') :
    D.related D.mid D.mid (mark.intercalate ts) (mark.intercalate ts') := by
  induction h with
  | nil => exact hD.nil
  | cons ht hts ih =>
    cases hts with
    | nil => simpa using ht
    | cons hu hus =>
      rw [String.intercalate_cons_cons, String.intercalate_cons_cons]
      exact hD.append (hD.append ht hmark) ih

/-! ## Shapes -/

theorem Discipline.Lawful.operatorText {sign t t' : String} (hsign : P sign)
    (h : D.related D.mid D.mid t t') :
    D.related D.mid D.mid (operatorText sign t) (operatorText sign t') := by
  have hblank := hD.append (hD.leaf hsign) (hD.mark (t := " ") (by decide))
  unfold Script.operatorText
  rw [hD.needsBlank h]
  split_ifs
  · exact hD.append hblank h
  · exact hD.append (hD.leaf hsign) h

theorem Discipline.Lawful.guardedText {t t' : String} (h : D.related D.mid D.mid t t') :
    D.related D.mid D.mid (guardedText t) (guardedText t') := by
  unfold Script.guardedText
  rw [hD.startsDeclaration h]
  split_ifs
  · exact hD.enclosed (by decide) h
  · exact h

theorem Discipline.Lawful.attributeName {t t' : String} (h : D.related D.mid D.mid t t') :
    D.related D.mid D.mid (attributeName t) (attributeName t') := by
  have hclass : t = "class" ↔ t' = "class" := hD.eq_iff h (hD.mark (by decide))
  have hfor : t = "for" ↔ t' = "for" := hD.eq_iff h (hD.mark (by decide))
  unfold Script.attributeName
  simp only [beq_iff_eq, hclass, hfor]
  split_ifs
  · exact hD.mark (by decide)
  · exact hD.mark (by decide)
  · exact h

theorem Discipline.Lawful.aliasText {otherFirst : Bool} {t t' u u' : String}
    (h : D.related D.mid D.mid t t') (hu : D.related D.mid D.mid u u') :
    D.related D.mid D.mid (aliasText otherFirst t u) (aliasText otherFirst t' u') := by
  have heq : u = t ↔ u' = t' := hD.eq_iff hu h
  have has := hD.mark (t := " as ") (by decide)
  unfold Script.aliasText
  simp only [beq_iff_eq, heq]
  split_ifs
  · exact h
  · exact hD.append (hD.append hu has) h
  · exact hD.append (hD.append h has) hu

theorem Discipline.Lawful.elementText {bare : Bool} {n n' a a' c c' : String}
    (hn : D.related D.mid D.mid n n') (ha : D.related D.mid D.mid a a')
    (hc : D.related D.mid D.mid c c') :
    D.related D.mid D.mid (elementText bare n a c) (elementText bare n' a' c') := by
  have hhead := hD.append (hD.append (hD.mark (t := "<") (by decide)) hn) ha
  have hend := hD.mark (t := ">") (by decide)
  unfold Script.elementText
  split_ifs
  · exact hD.append hhead (hD.mark (by decide))
  · have hbody := hD.append (hD.append hhead hend) hc
    exact hD.append (hD.append (hD.append hbody (hD.mark (by decide))) hn) hend

omit hD in
theorem forall₂_flagged {R : String → String → Prop} {ts ts' : List String} (flag : Bool)
    (flags : List Bool) (h : List.Forall₂ R ts ts') :
    List.Forall₂ R (flagged flag flags ts) (flagged flag flags ts') := by
  unfold flagged
  induction h generalizing flags with
  | nil =>
    rw [List.zip_nil_right]
    exact .nil
  | cons ht _ ih =>
    cases flags with
    | nil => exact .nil
    | cons b flags =>
      rw [List.zip_cons_cons, List.zip_cons_cons, List.filterMap_cons, List.filterMap_cons]
      by_cases hb : b == flag
      · simp only [if_pos hb]
        exact .cons ht (ih flags)
      · simp only [if_neg hb]
        exact ih flags

omit hD in
theorem isEmpty_of_forall₂ {R : String → String → Prop} {ts ts' : List String}
    (h : List.Forall₂ R ts ts') :
    ts.isEmpty = ts'.isEmpty := by
  cases h <;> rfl

theorem Discipline.Lawful.clausesText {outside : List Bool} {ts ts' : List String}
    (h : List.Forall₂ (D.related D.mid D.mid) ts ts') :
    D.related D.mid D.mid (clausesText outside ts) (clausesText outside ts') := by
  have hcomma := hD.mark (t := ", ") (by decide)
  have hnamed := forall₂_flagged false outside h
  have hpair : ("\x7b ", " \x7d") ∈ Tracker.enclosures := by decide
  have hbraces := hD.enclosed hpair (hD.intercalate hcomma hnamed)
  have hclauses : List.Forall₂ (D.related D.mid D.mid)
      (flagged true outside ts ++ if (flagged false outside ts).isEmpty then [] else
        ["\x7b " ++ ", ".intercalate (flagged false outside ts) ++ " \x7d"])
      (flagged true outside ts' ++ if (flagged false outside ts').isEmpty then [] else
        ["\x7b " ++ ", ".intercalate (flagged false outside ts') ++ " \x7d"]) := by
    refine List.rel_append (forall₂_flagged true outside h) ?_
    rw [isEmpty_of_forall₂ hnamed]
    split_ifs
    · exact .nil
    · exact .cons hbraces .nil
  unfold Script.clausesText
  dsimp only
  generalize (flagged true outside ts ++ _) = clauses at hclauses
  generalize (flagged true outside ts' ++ _) = clauses' at hclauses
  rw [isEmpty_of_forall₂ hclauses]
  split_ifs
  · exact hD.nil
  · exact hD.append (hD.intercalate hcomma hclauses) (hD.mark (by decide))

theorem Discipline.Lawful.exportList {t t' : String} (h : D.related D.mid D.mid t t') :
    D.related D.mid D.mid (if t == "" then "export \x7b\x7d" else "export \x7b " ++ t ++ " \x7d")
      (if t' == "" then "export \x7b\x7d" else "export \x7b " ++ t' ++ " \x7d") := by
  simp only [beq_iff_eq, hD.empty_iff h]
  split_ifs
  · exact hD.mark (by decide)
  · exact hD.enclosed (by decide) h

theorem Discipline.Lawful.member {m m' t t' close : String} (hm : D.related D.start D.fresh m m')
    (hclose : close ∈ Tracker.lineEnds) (h : D.related D.mid D.mid t t') :
    D.related D.start D.start (if t == "" then "" else m ++ t ++ close ++ "\n")
      (if t' == "" then "" else m' ++ t' ++ close ++ "\n") := by
  have hinside := hD.append hm (hD.inline hD.inline_fresh h)
  simp only [beq_iff_eq, hD.empty_iff h]
  split_ifs
  · exact hD.nil
  · rw [String.append_assoc, @String.append_assoc (m' ++ t')]
    exact hD.append hinside (hD.text (hD.lineEnd close hclose))

theorem Discipline.Lawful.classBody :
    ∃ a b, D.margin a = some b ∧ ∀ t t' m m', D.related D.start D.start t t' →
    D.related a b m m' → D.related D.mid D.mid (if t == "" then "\x7b\x7d"
      else "\x7b\n" ++ t ++ m ++ "\x7d") (if t' == "" then "\x7b\x7d"
        else "\x7b\n" ++ t' ++ m' ++ "\x7d") := by
  have henclose := hD.enclosesLines
  unfold Tracker.enclosesLines at henclose
  split at henclose
  · next a ha =>
    obtain ⟨hlines, hclose⟩ := Bool.and_eq_true_iff.mp henclose
    obtain ⟨b, hb, hclose⟩ := Option.bind_eq_some_iff.mp (beq_iff_eq.mp hclose)
    refine ⟨a, b, hb, fun t t' m m' ht hm => ?_⟩
    have hinside := hD.append (hD.append (hD.text ha) (hD.lines hlines ht)) hm
    simp only [beq_iff_eq, hD.empty_iff ht]
    split_ifs
    · exact hD.mark (by decide)
    · exact hD.append hinside (hD.text hclose)
  · cases henclose

end Texts

def Shape.isInline : Shape → Bool
  | .last | .guarded | .renamed | .alias _ | .element _ | .clauses _ | .exportList => true
  | _ => false

theorem Discipline.Lawful.apply {D : Discipline} {layout : Layout} {P : String → Prop}
    (hD : D.Lawful layout P) {shape : Shape} {ts ts' : List String} (hshape : shape.isInline = true)
    (h : List.Forall₂ (D.related D.mid D.mid) ts ts') :
    D.related D.mid D.mid (shape.apply ts) (shape.apply ts') := by
  cases shape with
  | last =>
    induction h with
    | nil => exact hD.nil
    | cons ht hts ih =>
      cases hts with
      | nil => exact ht
      | cons hu hus => exact ih
  | guarded => exact hD.guardedText (hD.join h)
  | renamed => exact hD.attributeName (hD.join h)
  | «alias» otherFirst =>
    have hjoin := hD.join h
    rcases h with _ | ⟨ht, _ | ⟨hu, _ | _⟩⟩
    · exact hjoin
    · exact hjoin
    · exact hD.aliasText ht hu
    · exact hjoin
  | element bare =>
    have hjoin := hD.join h
    rcases h with _ | ⟨ht, _ | ⟨hu, _ | ⟨hw, _ | _⟩⟩⟩
    · exact hjoin
    · exact hjoin
    · exact hjoin
    · exact hD.elementText ht hu hw
    · exact hjoin
  | clauses outside => exact hD.clausesText h
  | exportList => exact hD.exportList (hD.join h)
  | _ => cases hshape

/-! ## Code -/

/-- Code that leads from one state to another: what it emits at two levels is related, and so are
the faults. -/
def Keeps (D : Discipline) (layout : Layout) (a b : D.State) (c : Code) : Prop :=
  ∀ l l', D.levels l l' → ∀ j, Outcomes (D.related a b) (c.emit layout l j) (c.emit layout l' j)

def KeepsAll (D : Discipline) (layout : Layout) (Q : List String → List String → Prop)
    (cs : List Code) : Prop :=
  ∀ l l', D.levels l l' → ∀ j, Outcomes Q (Code.emitAll layout l cs j) (Code.emitAll layout l' cs j)

section Code

variable {D : Discipline} {layout : Layout} {a b : D.State}

theorem keeps_stop (f : Fault) : Keeps D layout a b (.stop f) := by
  intro l l' _ j
  rw [Code.emit, Code.emit]
  exact .error

theorem keeps_deferred {code : Unit → Code} (h : Keeps D layout a b (code ())) :
    Keeps D layout a b (.deferred code) := by
  intro l l' hl j
  rw [Code.emit, Code.emit]
  exact h l l' hl j

theorem keeps_ofExcept {e : Except Fault Code} (h : ∀ c, e = .ok c → Keeps D layout a b c) :
    Keeps D layout a b (.ofExcept e) := by
  cases e with
  | error f => exact keeps_stop f
  | ok c => exact h c rfl

theorem keeps_spelling (v : Value) {c : Code} (h : Keeps D layout a b c) :
    Keeps D layout a b (.spelling v c) :=
  keeps_ofExcept fun _ hc => (Value.written_eq_ok_iff.mp hc).2 ▸ h

theorem keepsAll_nil {Q : List String → List String → Prop} (h : Q [] []) :
    KeepsAll D layout Q [] := by
  intro l l' _ j
  rw [Code.emitAll, Code.emitAll]
  exact .ok h

theorem keepsAll_cons {Q Q' : List String → List String → Prop} {c : Code} {cs : List Code}
    (hc : Keeps D layout a b c) (hcs : KeepsAll D layout Q cs)
    (h : ∀ t t' ts ts', D.related a b t t' → Q ts ts' → Q' (t :: ts) (t' :: ts')) :
    KeepsAll D layout Q' (c :: cs) := by
  intro l l' hl j
  rw [Code.emitAll_cons, Code.emitAll_cons]
  refine (hc l l' hl j).bind fun t t' ht k => ?_
  exact (hcs l l' hl k).map fun ts ts' hts => h t t' ts ts' ht hts

theorem keeps_shaped {Q : List String → List String → Prop} {shape : Shape} {cs : List Code}
    (hcs : KeepsAll D layout Q cs)
    (h : ∀ ts ts', Q ts ts' → D.related a b (shape.apply ts) (shape.apply ts')) :
    Keeps D layout a b (.shaped shape cs) := by
  intro l l' hl j
  rw [Code.emit_shaped, Code.emit_shaped]
  exact (hcs l l' hl j).map h

theorem keeps_pair {a₁ b₁ a₂ b₂ : D.State} {shape : Shape} {c d : Code}
    (hc : Keeps D layout a₁ b₁ c) (hd : Keeps D layout a₂ b₂ d)
    (h : ∀ t t' u u', D.related a₁ b₁ t t' → D.related a₂ b₂ u u' →
      D.related a b (shape.apply [t, u]) (shape.apply [t', u'])) :
    Keeps D layout a b (.shaped shape [c, d]) := by
  have hlast : KeepsAll D layout (fun us us' => ∃ u u', us = [u] ∧ us' = [u'] ∧
      D.related a₂ b₂ u u') [d] :=
    keepsAll_cons hd (keepsAll_nil (Q := fun us us' => us = [] ∧ us' = []) ⟨rfl, rfl⟩)
      fun u u' _ _ hu hnil => ⟨u, u', by rw [hnil.1], by rw [hnil.2], hu⟩
  have hboth : KeepsAll D layout (fun ts ts' => D.related a b (shape.apply ts) (shape.apply ts'))
      [c, d] := by
    refine keepsAll_cons hc hlast ?_
    rintro t t' _ _ ht ⟨u, u', rfl, rfl, hu⟩
    exact h t t' u u' ht hu
  exact keeps_shaped hboth fun _ _ hts => hts

theorem keepsAll_forall₂ {cs : List Code} (h : ∀ c ∈ cs, Keeps D layout a a c) :
    KeepsAll D layout (List.Forall₂ (D.related a a)) cs := by
  induction cs with
  | nil => exact keepsAll_nil .nil
  | cons c cs ih =>
    have hcs := ih fun d hd => h d (List.mem_cons_of_mem _ hd)
    exact keepsAll_cons (h c List.mem_cons_self) hcs fun _ _ _ _ ht hts => .cons ht hts

def KeepsJoined (D : Discipline) (layout : Layout) (a b : D.State) (cs : List Code) : Prop :=
  KeepsAll D layout (fun ts ts' => D.related a b (String.join ts) (String.join ts')) cs

theorem keeps_together {cs : List Code} (h : KeepsJoined D layout a b cs) :
    Keeps D layout a b (.together cs) :=
  keeps_shaped h fun _ _ hts => hts

variable {P : String → Prop} (hD : D.Lawful layout P)
include hD

theorem keeps_text {t : String} (h : D.text a t = some b) : Keeps D layout a b (.text t) := by
  intro l l' _ j
  rw [Code.emit, Code.emit]
  exact .ok (hD.text h)

theorem keeps_leaf {t : String} (h : P t) : Keeps D layout D.mid D.mid (.text t) := by
  intro l l' _ j
  rw [Code.emit, Code.emit]
  exact .ok (hD.leaf h)

theorem keeps_shown {v : Value} (h : P v.display) : Keeps D layout D.mid D.mid (.shown v) :=
  keeps_spelling v (keeps_leaf hD h)

theorem keeps_quoted {t : String} (h : P (layout.quoted t)) :
    Keeps D layout D.mid D.mid (.quoted t) := by
  intro l l' _ j
  rw [Code.emit, Code.emit]
  exact .ok (hD.leaf h)

theorem keeps_margin (h : D.margin a = some b) : Keeps D layout a b .margin := by
  intro l l' hl j
  rw [Code.emit, Code.emit]
  exact .ok (hD.margin h hl)

theorem keeps_report (category : String) (kind : Value) :
    Keeps D layout a a (.report category kind) := by
  intro l l' _ j
  rw [Code.emit, Code.emit]
  exact .ok hD.nil

theorem keeps_deeper {c : Code} (h : Keeps D layout a b c) : Keeps D layout a b (.deeper c) := by
  intro l l' hl j
  rw [Code.emit, Code.emit]
  exact h _ _ (hD.deeper hl) j

theorem keeps_inline {c : Code} (ha : D.inline a = true) (h : Keeps D layout D.mid D.mid c) :
    Keeps D layout a a c :=
  fun l l' hl j => (h l l' hl j).mono fun _ _ => hD.inline ha

theorem keeps_lines {c : Code} (ha : D.lines a = true) (h : Keeps D layout D.start D.start c) :
    Keeps D layout a a c :=
  fun l l' hl j => (h l l' hl j).mono fun _ _ => hD.lines ha

theorem KeepsJoined.merge {b' c : D.State} {cs : List Code} (hmerge : D.merge b b' = some c)
    (h : KeepsJoined D layout a b cs ∨ KeepsJoined D layout a b' cs) :
    KeepsJoined D layout a c cs := by
  intro l l' hl j
  rcases h with h | h
  · exact (h l l' hl j).mono fun _ _ ht => hD.merge hmerge (.inl ht)
  · exact (h l l' hl j).mono fun _ _ ht => hD.merge hmerge (.inr ht)

theorem keepsJoined_nil : KeepsJoined D layout a a [] := keepsAll_nil hD.nil

theorem keepsJoined_cons {b' : D.State} {c : Code} {cs : List Code} (hc : Keeps D layout a b' c)
    (hcs : KeepsJoined D layout b' b cs) : KeepsJoined D layout a b (c :: cs) := by
  refine keepsAll_cons hc hcs fun t t' ts ts' ht hts => ?_
  rw [String.join_cons, String.join_cons]
  exact hD.append ht hts

theorem keepsJoined_of_forall {cs : List Code} (h : ∀ c ∈ cs, Keeps D layout a a c) :
    KeepsJoined D layout a a cs :=
  fun l l' hl j => (keepsAll_forall₂ h l l' hl j).mono fun _ _ => hD.join

theorem keeps_separated {mark : String} {cs : List Code} (hmark : D.isFree mark = true)
    (h : ∀ c ∈ cs, Keeps D layout D.mid D.mid c) :
    Keeps D layout D.mid D.mid (.separated mark cs) :=
  keeps_shaped (keepsAll_forall₂ h) fun _ _ hts => hD.intercalate (hD.free hmark) hts

end Code

end Scriptwright.Script
