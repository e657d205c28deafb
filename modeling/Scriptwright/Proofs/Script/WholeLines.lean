import Scriptwright.Proofs.Script.Indentation

/-!
# Statements are whole lines

The text of a statement is empty or ends with a line break, whatever its fields are and whatever the
layout is: a rule never leaves its last line open. Of the texts between, only where they end
matters, so nothing is asked of the values.
-/

namespace Scriptwright.Script

open Text

/-! ## Texts of code -/

theorem Emission.exists_of_bind_eq_ok {α β : Type} {x : Emission α} {f : α → Emission β}
    {j k : Journal} {b : β} (h : x.bind f j = (.ok b, k)) : ∃ a j', x j = (.ok a, j') ∧
      f a j' = (.ok b, k) := by
  unfold Emission.bind at h
  split at h
  · next a j' hx => exact ⟨a, j', hx, h⟩
  · cases h

namespace Code

theorem exists_of_emit_shaped {layout : Layout} {level : Int} {shape : Shape} {parts : List Code}
    {j k : Journal} {t : String} (h : (Code.shaped shape parts).emit layout level j = (.ok t, k)) :
    ∃ ts, emitAll layout level parts j = (.ok ts, k) ∧ t = shape.apply ts := by
  rw [emit_shaped] at h
  obtain ⟨ts, j', hts, hpure⟩ := Emission.exists_of_bind_eq_ok h
  cases hpure
  exact ⟨ts, hts, rfl⟩

theorem exists_of_emitAll_cons {layout : Layout} {level : Int} {c : Code} {cs : List Code}
    {j k : Journal} {ts : List String} (h : emitAll layout level (c :: cs) j = (.ok ts, k)) :
    ∃ t us j', c.emit layout level j = (.ok t, j') ∧ emitAll layout level cs j' = (.ok us, k) ∧
      ts = t :: us := by
  rw [emitAll_cons] at h
  obtain ⟨t, j', ht, hrest⟩ := Emission.exists_of_bind_eq_ok h
  obtain ⟨us, j'', hus, hpure⟩ := Emission.exists_of_bind_eq_ok hrest
  cases hpure
  exact ⟨t, us, j', ht, hus, rfl⟩

/-- Every text of a piece of code has a property, in whatever layout and at whatever level. -/
def Yields (P : String → Prop) (c : Code) : Prop :=
  ∀ layout level j t k, c.emit layout level j = (.ok t, k) → P t

def YieldAll (Q : List String → Prop) (cs : List Code) : Prop :=
  ∀ layout level j ts k, emitAll layout level cs j = (.ok ts, k) → Q ts

variable {P : String → Prop} {Q : List String → Prop} {c : Code} {cs : List Code}

theorem yields_stop (f : Fault) : (Code.stop f).Yields P := by
  intro layout level j t k h
  rw [emit, Emission.fail] at h
  cases h

theorem yields_text {s : String} (hs : P s) : (Code.text s).Yields P := by
  intro layout level j t k h
  rw [emit, Emission.pure] at h
  cases h
  exact hs

theorem yields_report (hempty : P "") (category : String) (kind : Value) :
    (Code.report category kind).Yields P := by
  intro layout level j t k h
  rw [emit] at h
  cases h
  exact hempty

theorem yields_warn (hempty : P "") (message : String) : (Code.warn message).Yields P := by
  intro layout level j t k h
  rw [emit] at h
  cases h
  exact hempty

theorem Yields.deeper (h : c.Yields P) : (Code.deeper c).Yields P := by
  intro layout level j t k hrun
  rw [emit] at hrun
  exact h layout _ j t k hrun

theorem Yields.deferred {code : Unit → Code} (h : (code ()).Yields P) :
    (Code.deferred code).Yields P := by
  intro layout level j t k hrun
  rw [emit] at hrun
  exact h layout level j t k hrun

theorem yields_ofExcept {e : Except Fault Code} (h : ∀ c, e = .ok c → c.Yields P) :
    (ofExcept e).Yields P := by
  cases e with
  | error f => exact yields_stop f
  | ok c => exact h c rfl

theorem Yields.spelling (h : c.Yields P) (v : Value) : (Code.spelling v c).Yields P :=
  yields_ofExcept fun _ hc => (Value.written_eq_ok_iff.mp hc).2 ▸ h

theorem yieldAll_nil (h : Q []) : YieldAll Q [] := by
  intro layout level j ts k hrun
  rw [emitAll, Emission.pure] at hrun
  cases hrun
  exact h

theorem yieldAll_cons {Q' : List String → Prop} (hc : c.Yields P) (hcs : YieldAll Q cs)
    (h : ∀ t ts, P t → Q ts → Q' (t :: ts)) : YieldAll Q' (c :: cs) := by
  intro layout level j ts k hrun
  obtain ⟨t, us, j', ht, hus, rfl⟩ := exists_of_emitAll_cons hrun
  exact h t us (hc layout level j t j' ht) (hcs layout level j' us k hus)

theorem yields_shaped {shape : Shape} (hcs : YieldAll Q cs) (h : ∀ ts, Q ts → P (shape.apply ts)) :
    (Code.shaped shape cs).Yields P := by
  intro layout level j t k hrun
  obtain ⟨ts, hts, rfl⟩ := exists_of_emit_shaped hrun
  exact h ts (hcs layout level j ts k hts)

theorem yields_shaped_single {shape : Shape} {R : String → Prop} (hc : c.Yields R)
    (h : ∀ t, R t → P (shape.apply [t])) : (Code.shaped shape [c]).Yields P := by
  intro layout level j t k hrun
  obtain ⟨_, hparts, rfl⟩ := exists_of_emit_shaped hrun
  obtain ⟨s, _, j', hs, hnil, rfl⟩ := exists_of_emitAll_cons hparts
  rw [emitAll, Emission.pure] at hnil
  cases hnil
  exact h s (hc layout level j s k hs)

theorem yields_shaped_pair {shape : Shape} {d : Code} {R S : String → Prop} (hc : c.Yields R)
    (hd : d.Yields S) (h : ∀ t u, R t → S u → P (shape.apply [t, u])) :
    (Code.shaped shape [c, d]).Yields P := by
  intro layout level j t k hrun
  obtain ⟨_, hparts, rfl⟩ := exists_of_emit_shaped hrun
  obtain ⟨s, _, j', hs, hrest, rfl⟩ := exists_of_emitAll_cons hparts
  obtain ⟨u, _, k', hu, hnil, rfl⟩ := exists_of_emitAll_cons hrest
  rw [emitAll, Emission.pure] at hnil
  cases hnil
  exact h s u (hc layout level j s j' hs) (hd layout level j' u k hu)

theorem yields_together_nil (h : P "") : (together []).Yields P :=
  yields_shaped (yieldAll_nil (Q := (· = [])) rfl) fun _ hts => hts ▸ h

theorem exists_of_emit_together_cons {layout : Layout} {level : Int} {j k : Journal} {t : String}
    (h : (together (c :: cs)).emit layout level j = (.ok t, k)) :
    ∃ s u j', c.emit layout level j = (.ok s, j') ∧
      (together cs).emit layout level j' = (.ok u, k) ∧ t = s ++ u := by
  obtain ⟨ts, hts, rfl⟩ := exists_of_emit_shaped h
  obtain ⟨s, us, j', hs, hus, rfl⟩ := exists_of_emitAll_cons hts
  refine ⟨s, String.join us, j', hs, ?_, String.join_cons⟩
  rw [together, emit_shaped, Emission.map, Emission.bind, hus]
  rfl

theorem yields_together_cons {Q R : String → Prop} (hc : c.Yields Q) (hcs : (together cs).Yields R)
    (h : ∀ t u, Q t → R u → P (t ++ u)) : (together (c :: cs)).Yields P := by
  intro layout level j t k hrun
  obtain ⟨s, u, j', hs, hu, rfl⟩ := exists_of_emit_together_cons hrun
  exact h s u (hc layout level j s j' hs) (hcs layout level j' u k hu)

theorem Yields.mono {Q : String → Prop} (h : c.Yields P) (hPQ : ∀ t, P t → Q t) : c.Yields Q :=
  fun layout level j t k hrun => hPQ t (h layout level j t k hrun)

theorem yields_together_single (h : c.Yields P) : (together [c]).Yields P :=
  yields_together_cons h (yields_together_nil (P := (· = "")) rfl) fun t u ht hu => by
    rw [hu, String.append_empty]
    exact ht

theorem yieldAll_forall (h : ∀ c ∈ cs, c.Yields P) : YieldAll (fun ts => ∀ t ∈ ts, P t) cs := by
  induction cs with
  | nil => exact yieldAll_nil nofun
  | cons c cs ih =>
    have hcs := ih fun d hd => h d (List.mem_cons_of_mem _ hd)
    exact yieldAll_cons (h c List.mem_cons_self) hcs fun t ts ht hts =>
      List.forall_mem_cons.mpr ⟨ht, hts⟩

end Code

/-! ## Where texts end -/

/-- A text that leads from one side of a line to another: to the start of a line only with a line
break at its end, or with no text at all. -/
def Side.Lands (a b : Side) (t : String) : Prop :=
  b = .start → t = "" ∧ a = .start ∨ endsLine t.toList = true

namespace Side

variable {a b c : Side} {t u : String}

theorem lands_of_ne (h : b ≠ .start) (t : String) : a.Lands b t := fun hb => absurd hb h

theorem lands_nil (a : Side) : a.Lands a "" := fun ha => Or.inl ⟨rfl, ha⟩

theorem Lands.append (ht : a.Lands b t) (hu : b.Lands c u) : a.Lands c (t ++ u) := by
  intro hc
  rcases hu hc with ⟨rfl, hb⟩ | hu
  · rw [String.append_empty]
    exact ht hb
  · apply Or.inr
    have hne : u.toList ≠ [] := by
      intro hnil
      rw [hnil] at hu
      cases hu
    rwa [String.toList_append, endsLine_append hne]

theorem Lands.join {ts : List String} (h : ∀ t ∈ ts, a.Lands a t) : a.Lands a (String.join ts) := by
  induction ts with
  | nil => exact lands_nil a
  | cons t ts ih =>
    obtain ⟨ht, hts⟩ := List.forall_mem_cons.mp h
    rw [String.join_cons]
    exact ht.append (ih hts)

theorem lands_of_read (h : a.read t.toList = some b) : a.Lands b t := by
  rintro rfl
  unfold Side.read at h
  split_ifs at h with hempty hnone hends
  · exact Or.inl ⟨String.toList_injective (List.isEmpty_iff.mp hempty), Option.some.inj h⟩
  · exact Or.inr hends
  · cases h

theorem lands_lineEnd (a : Side) (t : String) : a.Lands .start (t ++ "\n") := by
  intro _
  apply Or.inr
  rw [String.toList_append, endsLine_append (by decide)]
  rfl

end Side

/-- The texts of a piece of code lead from one side of a line to another. -/
abbrev Code.Lands (a b : Side) (c : Code) : Prop := c.Yields (a.Lands b)

abbrev Code.LandAll (a b : Side) (cs : List Code) : Prop :=
  Code.YieldAll (fun ts => a.Lands b (String.join ts)) cs

section Codes

open Code

variable {a b d : Side} {c : Code} {cs : List Code}

theorem lands_of_ne (h : b ≠ .start) (c : Code) : c.Lands a b :=
  fun _ _ _ t _ _ => Side.lands_of_ne h t

theorem lands_nothing : Code.nothing.Lands a a := yields_text (Side.lands_nil a)

theorem landAll_nil : LandAll a a [] := yieldAll_nil (Side.lands_nil a)

theorem landAll_cons (hc : c.Lands a b) (hcs : LandAll b d cs) : LandAll a d (c :: cs) := by
  refine yieldAll_cons hc hcs fun t ts ht hts => ?_
  rw [String.join_cons]
  exact ht.append hts

theorem lands_together (h : LandAll a b cs) : (Code.together cs).Lands a b :=
  yields_shaped h fun _ hts => hts

theorem lands_together_of_forall (h : ∀ c ∈ cs, c.Lands a a) : (Code.together cs).Lands a a :=
  yields_shaped (yieldAll_forall h) fun _ hts => Side.Lands.join hts

/-- A member of a class body is a line or nothing. -/
theorem lands_member (close : String) (c : Code) :
    (Code.shaped (.member close) [.margin, c]).Lands .start .start := by
  have hpair : YieldAll (fun ts => ∃ margin text, ts = [margin, text]) [.margin, c] := by
    have hlast : YieldAll (fun ts => ∃ text, ts = [text]) [c] :=
      yieldAll_cons (P := fun _ => True) (fun _ _ _ _ _ _ => trivial)
        (yieldAll_nil (Q := (· = [])) rfl)
        fun t ts _ hts => ⟨t, by rw [hts]⟩
    refine yieldAll_cons (P := fun _ => True) (fun _ _ _ _ _ _ => trivial) hlast ?_
    rintro margin _ - ⟨text, rfl⟩
    exact ⟨margin, text, rfl⟩
  refine yields_shaped hpair ?_
  rintro _ ⟨margin, text, rfl⟩
  rw [Shape.apply]
  split_ifs
  · exact Side.lands_nil .start
  · exact Side.lands_lineEnd _ _

end Codes

/-! ## Rules -/

section Rules

open Code

theorem ne_start_of_inlined {a b : Side} (h : sideTracker.inlined a = some b) : b ≠ .start := by
  unfold Tracker.inlined at h
  split_ifs at h with ha
  cases h
  rintro rfl
  cases ha

theorem eq_start_of_lined {a b : Side} (h : sideTracker.lined a = some b) :
    a = .start ∧ b = .start := by
  unfold Tracker.lined at h
  split_ifs at h with ha
  cases h
  exact ⟨beq_iff_eq.mp ha, beq_iff_eq.mp ha⟩

theorem ne_start_of_ite_inlined {a b : Side} {test : Bool}
    (h : (if test then sideTracker.inlined a else none) = some b) : b ≠ .start := by
  split_ifs at h
  exact ne_start_of_inlined h

variable {bound : Nat} {x : Visitor bound}

theorem lands_each {v : Value} {h : 2 * v.depth + 1 < bound}
    {f : (w : Value) → 2 * w.depth + 1 < bound → Code} (hf : ∀ w hw, (f w hw).Lands .start .start) :
    (ofExcept ((Visitor.each v h f).map .together)).Lands .start .start := by
  refine yields_ofExcept fun c hc => ?_
  obtain ⟨cs, hcs, rfl⟩ := exists_of_map_eq_ok hc
  refine lands_together_of_forall fun d hd => ?_
  obtain ⟨_, w, hw, -, -, rfl⟩ := Visitor.exists_of_mem_each hcs hd
  exact hf w hw

theorem lands_eachStatement {v : Value} {h : 2 * v.depth + 1 < bound}
    {f : (w : Value) → 2 * w.depth + 1 < bound → Code} (hf : ∀ w hw, (f w hw).Lands .start .start) :
    (Code.together (Visitor.eachStatement v h f)).Lands .start .start := by
  refine lands_together_of_forall fun d hd => ?_
  obtain ⟨⟨w, hw⟩, -, rfl⟩ := List.mem_map.mp hd
  exact hf w _

mutual

/-- The code of a piece ends where its trace ends, if the statements among its parts are whole
lines. -/
theorem Piece.lands (hx : ∀ w hw, (x.visit .statement w hw).Lands .start .start) :
    (p : Piece) → {node : Fields} → (h : 2 * (Value.map node).depth ≤ bound) →
      {a b : sideTracker.State} →
      p.trace sideTracker a = some b → (p.code x node h).Lands a b
  | .text s, node, h, a, b, ht => by
    rw [Piece.code]
    exact yields_text (Side.lands_of_read ht)
  | .margin, node, h, a, b, ht => by
    have hne : b ≠ .start := by
      rintro rfl
      cases a <;> cases ht
    exact lands_of_ne hne _
  | .data _, _, _, _, _, ht | .attributeValue _, _, _, _, _, ht | .expression _, _, _, _, _, ht |
      .name _, _, _, _, _, ht
  | .source _, _, _, _, _, ht | .accessor _, _, _, _, _, ht | .unary _ _, _, _, _, _, ht
  | .interleaved _ _, _, _, _, _, ht | .specifiers _, _, _, _, _, ht | .itself _, _, _, _, _, ht =>
    lands_of_ne (ne_start_of_inlined ht) _
  | .shown _ _, _, _, _, _, ht | .each _ _ _ _, _, _, _, _, ht | .eachRecord _ _ _ _, _,
      _, _, _, ht => by
    rw [Piece.trace] at ht
    exact lands_of_ne (ne_start_of_ite_inlined ht) _
  | .eachCase f parts, node, h, a, b, ht => by
    rw [Piece.trace] at ht
    split_ifs at ht with hparts
    obtain ⟨rfl, rfl⟩ := eq_start_of_lined ht
    rw [Piece.code]
    refine lands_each fun w hw => ?_
    split
    · exact lands_together (Piece.landAll hx parts _ (beq_iff_eq.mp hparts))
    · exact yields_stop _
  | .members f, node, h, a, b, ht => by
    obtain ⟨rfl, rfl⟩ := eq_start_of_lined ht
    rw [Piece.code]
    exact lands_eachStatement fun w hw => lands_member _ _
  | .body f, node, h, a, b, ht => by
    obtain ⟨rfl, rfl⟩ := eq_start_of_lined ht
    rw [Piece.code, Visitor.bodyCode]
    split_ifs
    · exact yields_stop _
    · exact lands_eachStatement fun w hw => hx w _
  | .sequence f, node, h, a, b, ht => by
    obtain ⟨rfl, rfl⟩ := eq_start_of_lined ht
    rw [Piece.code]
    exact lands_each fun w hw => hx w _
  | .statement f, node, h, a, b, ht => by
    obtain ⟨rfl, rfl⟩ := eq_start_of_lined ht
    rw [Piece.code]
    exact hx _ _
  | .deeper parts, node, h, a, b, ht => by
    rw [Piece.code]
    exact (lands_together (Piece.landAll hx parts h ht)).deeper
  | .group parts, node, h, a, b, ht => by
    rw [Piece.code]
    exact lands_together (Piece.landAll hx parts h ht)
  | .choose test yes no, node, h, a, b, ht => by
    rw [Piece.trace] at ht
    obtain ⟨b₁, hyes, ht⟩ := Option.bind_eq_some_iff.mp ht
    obtain ⟨b₂, hno, hmerge⟩ := Option.bind_eq_some_iff.mp ht
    rw [Piece.code]
    rcases Side.eq_or_of_merge hmerge with ⟨rfl, rfl⟩ | ⟨rfl, -, -⟩
    · split_ifs
      · exact lands_together (Piece.landAll hx yes h hyes)
      · exact lands_together (Piece.landAll hx no h hno)
    · exact lands_of_ne (by decide) _
  | .within f parts, node, h, a, b, ht => by
    rw [Piece.code]
    split
    · exact lands_together (Piece.landAll hx parts _ ht)
    · exact lands_together (Piece.landAll hx parts _ ht)
  | .inside f parts, node, h, a, b, ht => by
    rw [Piece.code]
    split
    · exact lands_together (Piece.landAll hx parts _ ht)
    · split_ifs
      · exact yields_stop _
      · exact lands_together (Piece.landAll hx parts _ ht)
  | .shaped shape parts, node, h, a, b, ht => by
    unfold Piece.trace at ht
    split at ht
    · rw [Piece.code]
      exact yields_shaped (Piece.landBack hx _ h ht) fun _ hts => hts
    · exact lands_of_ne (ne_start_of_ite_inlined ht) _
    · exact lands_of_ne (ne_start_of_ite_inlined ht) _

theorem Piece.landAll (hx : ∀ w hw, (x.visit .statement w hw).Lands .start .start) :
    (ps : List Piece) → {node : Fields} → (h : 2 * (Value.map node).depth ≤ bound) →
      {a b : sideTracker.State} →
      Piece.traces sideTracker a ps = some b → LandAll a b (Piece.codes x ps node h)
  | [], node, h, a, b, ht => by
    cases ht
    exact landAll_nil
  | p :: ps, node, h, a, b, ht => by
    obtain ⟨c, hp, hps⟩ := Option.bind_eq_some_iff.mp ht
    rw [Piece.codes]
    exact landAll_cons (Piece.lands hx p h hp) (Piece.landAll hx ps h hps)

theorem Piece.landBack (hx : ∀ w hw, (x.visit .statement w hw).Lands .start .start) :
    (ps : List Piece) → {node : Fields} → (h : 2 * (Value.map node).depth ≤ bound) →
      {a b : sideTracker.State} →
      Piece.tracesBack sideTracker a ps = some b →
      YieldAll (fun ts => a.Lands b (String.join ts.reverse)) (Piece.codes x ps node h)
  | [], node, h, a, b, ht => by
    cases ht
    exact yieldAll_nil (Side.lands_nil a)
  | p :: ps, node, h, a, b, ht => by
    obtain ⟨c, hps, hp⟩ := Option.bind_eq_some_iff.mp ht
    rw [Piece.codes]
    refine yieldAll_cons (Piece.lands hx p h hp) (Piece.landBack hx ps h hps) fun t ts ht hts => ?_
    simp only [List.reverse_cons, String.join_append, String.join_cons, String.join_nil,
      String.append_empty]
    exact hts.append ht

end

end Rules

/-! ## Statements -/

theorem lands_of_selectRule {m : Mode} {es : Fields} {c : Code} {a : Side}
    (h : selectRule m es = .inr c) :
    c.Lands a a := by
  unfold selectRule at h
  dsimp only at h
  split at h
  · split at h
    · cases h
    · cases h
      exact (Code.yields_report (Side.lands_nil a) _ _).spelling _
  · cases h
    split_ifs
    · exact (Code.yields_report (Side.lands_nil a) _ _).spelling _
    · exact Code.yields_stop _

/-- A statement is a number of whole lines. The induction is on how deep it is. -/
theorem lands_statement (linked : Bool) (v : Value) :
    (nodeCode linked .statement v).Lands .start .start := by
  induction hn : weight .statement v using Nat.strongRecOn generalizing v with
  | ind n ih =>
    rw [nodeCode]
    split_ifs
    · exact Code.yields_stop _
    · split
      · next es hes =>
        refine Code.Yields.deferred ?_
        split
        · next rule hrule =>
          obtain ⟨t, -, hlookup⟩ := exists_lookup_of_selectRule hrule
          have htrace := beq_iff_eq.mp
            (List.all_eq_true.mp (traced_sideTracker .statement) _ (mem_of_lookup hlookup))
          refine lands_together (Piece.landAll (fun w hw => ?_) rule _ htrace)
          exact ih _ (hn ▸ hw) w rfl
        · next c hc => exact lands_of_selectRule hc
      · exact Code.yields_report (Side.lands_nil _) _ _

end Scriptwright.Script
