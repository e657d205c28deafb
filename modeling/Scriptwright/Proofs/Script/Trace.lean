import Scriptwright.Proofs.Script.Discipline

/-!
# Traces of rules

`Piece.trace` follows the pieces of a rule through the states of a discipline and looks at nothing
but their fixed texts. The main statement is that a trace tells the truth: if all texts of a value
are admissible, then its code leads from the state where the trace of its rule starts to the one
where it ends, in every role and at every depth.
-/

namespace Scriptwright.Script

open Text

/-! ## Traces -/

section Trace

variable (T : Tracker)

def Tracker.inlined (a : T.State) : Option T.State := if T.inline a then some a else none

def Tracker.lined (a : T.State) : Option T.State := if T.lines a then some a else none

mutual

def Piece.trace (a : T.State) : Piece → Option T.State
  | .text s => T.text a s
  | .margin => T.margin a
  | .shown _ absent => if T.isFree absent then T.inlined a else none
  | .data _ | .attributeValue _ | .expression _ | .name _ | .source _ | .accessor _ | .unary _ _ |
      .interleaved _ _
  | .specifiers _ | .itself _ => T.inlined a
  | .each _ before between after =>
    if T.isFree before && T.isFree between && T.isFree after then T.inlined a else none
  | .eachRecord _ _ between parts =>
    if T.isFree between && Piece.traces T.mid parts == some T.mid then T.inlined a else none
  | .eachCase _ parts => if Piece.traces T.start parts == some T.start then T.lined a else none
  | .members _ | .body _ | .sequence _ | .statement _ => T.lined a
  | .deeper parts | .within _ parts | .inside _ parts | .group parts => Piece.traces a parts
  | .choose _ yes no => (Piece.traces a yes).bind fun b =>
      (Piece.traces a no).bind fun c => T.merge b c
  | .shaped shape parts =>
    match shape, parts with
    | .swapped, parts => Piece.tracesBack a parts
    | .classBody, [lines, .margin] =>
      if Piece.trace T.start lines == some T.start then T.inlined a else none
    | shape, parts => if shape.isInline && Piece.tracesEach parts then T.inlined a else none

def Piece.traces (a : T.State) : List Piece → Option T.State
  | [] => some a
  | p :: ps => (Piece.trace a p).bind fun b => Piece.traces b ps

def Piece.tracesBack (a : T.State) : List Piece → Option T.State
  | [] => some a
  | p :: ps => (Piece.tracesBack a ps).bind fun b => Piece.trace b p

def Piece.tracesEach : List Piece → Bool
  | [] => true
  | p :: ps => Piece.trace T.mid p == some T.mid && Piece.tracesEach ps

end

end Trace

/-! ## Texts of a node -/

/-- What is asked of the texts of a value, given by `q`, so that the texts emission makes of them
have `P`. -/
structure Admits (layout : Layout) (P : String → Prop) (q : String → Bool) : Prop where
  composable : Composable P
  text : ∀ s, q s = true → P s
  dynamic : ∀ s e, q s = true → dynamicExpression? s = some e → P e
  quote : P layout.quote

section Leaves

variable {layout : Layout} {P : String → Prop} {q : String → Bool} (hA : Admits layout P q)
include hA

theorem Admits.display {v : Value} (hv : v.everyText q = true) : P v.display :=
  hA.composable.display hA.text hv

theorem Admits.shownField {node : Fields} {absent : String}
    (hnode : (Value.map node).everyText q = true) (habsent : P absent) (f : String) :
    P (Fields.getD node f (.string absent)).display := by
  unfold Fields.getD
  cases hv : Fields.get? node f with
  | none => exact habsent
  | some v => exact hA.display (Value.everyText_of_get? hnode hv)

theorem Admits.plainName {v w : Value} (hv : v.everyText q = true) (h : plainName? v = some w) :
    P w.display := by
  obtain ⟨es, hes, hname⟩ := exists_of_plainName h
  exact hA.display (Value.everyText_of_get? (Value.everyText_of_head_eq hv hes) hname)

theorem Admits.quoted {v : Value} (hv : v.everyText q = true) : P (layout.quoted v.display) :=
  hA.composable.append (hA.composable.append hA.quote (hA.display hv)) hA.quote

theorem Admits.templateText {v : Value} (hv : v.everyText q = true) :
    P (templateText v).display := by
  unfold Script.templateText
  rw [Value.head_of_everyText hv]
  cases v with
  | map es =>
    have hw := Value.everyText_getD hv hv "value"
    dsimp only
    rw [Value.head_of_everyText hw]
    generalize Fields.getD es "value" (.map es) = w at hw
    cases w with
    | map inner =>
      have hraw := Value.everyText_getD hw (Value.everyText_get hw "cooked") "raw"
      dsimp only
      split
      · exact hA.composable.empty
      · exact hA.display hraw
    | _ => exact hA.display hw
  | _ => exact hA.display hv

theorem Admits.encode {v : Value} {style : Value.DataStyle} {t : String} (hv : v.everyText q = true)
    (hitem : Plain style.item) (hkey : Plain style.key) (h : v.encode style = .ok t) : P t :=
  hA.composable.encode hA.text hitem hkey v t hv h

theorem Admits.attributeValue {v : Value} {t : String} (hv : v.everyText q = true)
    (h : attributeValue v = .ok t) : P t := by
  have hopening : "=\x7b" = "=" ++ "\x7b" := rfl
  unfold Script.attributeValue at h
  split at h
  · next s =>
    split at h
    · next e he =>
      cases h
      exact hA.composable.braced (by decide) hopening (hA.dynamic s e hv he)
    · cases h
      exact hA.composable.between (by decide) (hA.text s hv) (by decide)
  · obtain ⟨u, hu, rfl⟩ := exists_of_map_eq_ok h
    exact hA.composable.braced (by decide) hopening (hA.encode hv (by decide) (by decide) hu)

variable {D : Discipline} (hD : D.Lawful layout P)
include hD

theorem keeps_sourceCode {v : Value} (hv : v.everyText q = true) :
    Keeps D layout D.mid D.mid (sourceCode v) := by
  have hwhole := keeps_spelling v (keeps_quoted hD (hA.quoted hv))
  unfold sourceCode
  rw [Value.head_of_everyText hv]
  cases v with
  | map es =>
    dsimp only
    split
    · next w hw =>
      exact keeps_spelling w (keeps_quoted hD (hA.quoted (Value.everyText_of_get? hv hw)))
    · split
      · next w hw => exact keeps_shown hD (hA.display (Value.everyText_of_get? hv hw))
      · exact hwhole
  | _ => exact hwhole

theorem keeps_accessorCode (v : Value) : Keeps D layout D.mid D.mid (accessorCode v) := by
  have hnothing : Keeps D layout D.mid D.mid .nothing := keeps_leaf hD hA.composable.empty
  unfold accessorCode
  split
  · next s =>
    split_ifs with hs
    · rw [Bool.or_eq_true, beq_iff_eq, beq_iff_eq] at hs
      rcases hs with rfl | rfl
      · exact keeps_leaf hD (hA.composable.plain (by decide))
      · exact keeps_leaf hD (hA.composable.plain (by decide))
    · exact hnothing
  · split_ifs
    · exact hnothing
    · exact keeps_stop _

omit hA in
theorem keepsJoined_enclosed {opening closing : String} {c : Code} {cs : List Code}
    (he : (opening, closing) ∈ Tracker.enclosures) (hc : Keeps D layout D.mid D.mid c)
    (hcs : KeepsJoined D layout D.mid D.mid cs) :
    KeepsJoined D layout D.mid D.mid (.text opening :: c :: .text closing :: cs) := by
  obtain ⟨a, hopen, hinline, hclose⟩ := D.exists_of_encloses (hD.enclosures _ he)
  have hend := keepsJoined_cons hD (keeps_text hD hclose) hcs
  exact keepsJoined_cons hD (keeps_text hD hopen)
    (keepsJoined_cons hD (keeps_inline hD hinline hc) hend)

omit hA in
theorem keepsJoined_weave {ts : List Value} {cs : List Code} (hts : ∀ t ∈ ts, P t.display)
    (hcs : ∀ c ∈ cs, Keeps D layout D.mid D.mid c) :
    KeepsJoined D layout D.mid D.mid (weave ts cs) := by
  have hpair : ("$\x7b", "\x7d") ∈ Tracker.enclosures := by decide
  fun_induction weave ts cs with
  | case1 => exact keepsJoined_nil hD
  | case2 t ts ih =>
    have hrest := ih (fun u hu => hts u (List.mem_cons_of_mem _ hu)) hcs
    exact keepsJoined_cons hD (keeps_shown hD (hts t List.mem_cons_self)) hrest
  | case3 c cs ih =>
    have hrest := ih hts fun d hd => hcs d (List.mem_cons_of_mem _ hd)
    exact keepsJoined_enclosed hD hpair (hcs c List.mem_cons_self) hrest
  | case4 t ts c cs ih =>
    have hrest := ih (fun u hu => hts u (List.mem_cons_of_mem _ hu)) fun d hd =>
      hcs d (List.mem_cons_of_mem _ hd)
    have hsubstitution := keepsJoined_enclosed hD hpair (hcs c List.mem_cons_self) hrest
    exact keepsJoined_cons hD (keeps_shown hD (hts t List.mem_cons_self)) hsubstitution

end Leaves

/-! ## Pieces -/

/-- What a visitor has to give for the values that a piece uses. -/
structure Visitor.Follows {bound : Nat} (x : Visitor bound) (D : Discipline) (layout : Layout)
    (q : String → Bool) (us : List Use) : Prop where
  visit : ∀ m w hw, Use.node m w ∈ us → w.everyText q = true →
    Keeps D layout (D.side m) (D.side m) (x.visit m w hw)
  chars : ∀ v, Use.sequence v ∈ us → v.everyText q = true → v.charsHave q = true

section Pieces

variable {bound : Nat} {x : Visitor bound} {D : Discipline} {layout : Layout} {P : String → Prop}
  {q : String → Bool} {us us' : List Use} {v : Value}

theorem Visitor.Follows.mono (hx : x.Follows D layout q us') (h : ∀ u ∈ us, u ∈ us') :
    x.Follows D layout q us where
  visit m w hw hu := hx.visit m w hw (h _ hu)
  chars v hv := hx.chars v (h _ hv)

theorem Visitor.Follows.expression (hx : x.Follows D layout q us) (h : 2 * v.depth + 1 < bound)
    (hv : v.everyText q = true) (hu : Use.node .expression v ∈ us) :
    Keeps D layout D.mid D.mid (x.expression v h) := by
  unfold Visitor.expression
  split_ifs
  · exact keeps_stop _
  · exact hx.visit .expression v _ hu hv

theorem Visitor.Follows.statement (hx : x.Follows D layout q us) (h : 2 * v.depth + 1 < bound)
    (hv : v.everyText q = true) (hu : Use.node .statement v ∈ us) :
    Keeps D layout D.start D.start (x.statement v h) :=
  hx.visit .statement v _ hu hv

theorem Visitor.exists_of_mem_each {h : 2 * v.depth + 1 < bound}
    {f : (w : Value) → 2 * w.depth + 1 < bound → Code} {c : Code} {cs : List Code}
    (hcs : Visitor.each v h f = .ok cs) (hc : c ∈ cs) :
    ∃ ws w hw, v.elementsOrNone = .ok ws ∧ w ∈ ws ∧ c = f w hw := by
  unfold Visitor.each at hcs
  split at hcs
  · cases hcs
  · next ws hws =>
    cases hcs
    obtain ⟨⟨w, hw⟩, -, rfl⟩ := List.mem_map.mp hc
    exact ⟨ws, w, _, hws, hw, rfl⟩

/-- Going through an admissible value gives code for its elements, which are admissible with it. -/
theorem keeps_each {h : 2 * v.depth + 1 < bound} {f : (w : Value) → 2 * w.depth + 1 < bound → Code}
    {a : D.State} {cs : List Code} (hv : v.everyText q = true) (hchars : v.charsHave q = true)
    (hf : ∀ w hw, w ∈ v.yielded → w.everyText q = true → Keeps D layout a a (f w hw))
    (hcs : Visitor.each v h f = .ok cs) : ∀ c ∈ cs, Keeps D layout a a c := by
  intro c hc
  obtain ⟨ws, w, hw, hws, hmem, rfl⟩ := Visitor.exists_of_mem_each hcs hc
  exact hf w hw (Value.yielded_of_ok hws ▸ hmem)
    (Value.everyText_of_mem_elementsOrNone hv hchars hws hmem)

theorem Visitor.Follows.eachField {node : Fields} {f : String} (hx : x.Follows D layout q us)
    {h : 2 * (Fields.get node f).depth + 1 < bound}
    {g : (w : Value) → 2 * w.depth + 1 < bound → Code} {a : D.State} {cs : List Code}
    (hv : (Value.map node).everyText q = true) (hu : Use.sequence (Fields.get node f) ∈ us)
    (hg : ∀ w hw, w ∈ (Fields.get node f).yielded → w.everyText q = true →
    Keeps D layout a a (g w hw)) (hcs : Visitor.each (Fields.get node f) h g = .ok cs) :
    ∀ c ∈ cs, Keeps D layout a a c :=
  keeps_each (Value.everyText_get hv f) (hx.chars _ hu (Value.everyText_get hv f)) hg hcs

theorem keeps_eachStatement {h : 2 * v.depth + 1 < bound}
    {f : (w : Value) → 2 * w.depth + 1 < bound → Code} {a : D.State} (hv : v.everyText q = true)
    (hf : ∀ w hw, w ∈ v.statements → w.everyText q = true → Keeps D layout a a (f w hw)) :
    ∀ c ∈ Visitor.eachStatement v h f, Keeps D layout a a c := by
  intro c hc
  obtain ⟨⟨w, hw⟩, -, rfl⟩ := List.mem_map.mp hc
  exact hf w _ hw (Value.everyText_of_mem_statements hv hw)

section Lawful

variable (hD : D.Lawful layout P)
include hD

theorem Visitor.Follows.memberCode (hx : x.Follows D layout q us) (h : 2 * v.depth + 1 < bound)
    (hv : v.everyText q = true) (hu : Use.node .expression v ∈ us) :
    Keeps D layout D.start D.start (x.memberCode v h) := by
  have hclose : (if v.tag? = some "classProperty" then ";" else "") ∈ Tracker.lineEnds := by
    split_ifs
    · decide
    · decide
  have hmargin : Keeps D layout D.start D.fresh .margin := keeps_margin hD hD.margin_start
  exact keeps_pair hmargin (hx.expression h hv hu) fun _ _ _ _ hm ht => hD.member hm hclose ht

omit hD in
theorem Tracker.inlined_eq_some {a b : D.State} (h : D.inlined a = some b) :
    D.inline a = true ∧ a = b := by
  unfold Tracker.inlined at h
  split_ifs at h with ha
  exact ⟨ha, Option.some.inj h⟩

omit hD in
theorem Tracker.lined_eq_some {a b : D.State} (h : D.lined a = some b) :
    D.lines a = true ∧ a = b := by
  unfold Tracker.lined at h
  split_ifs at h with ha
  exact ⟨ha, Option.some.inj h⟩

theorem keeps_of_inlined {a b : D.State} {c : Code} (h : D.inlined a = some b)
    (hc : Keeps D layout D.mid D.mid c) :
    Keeps D layout a b c := by
  obtain ⟨ha, rfl⟩ := Tracker.inlined_eq_some h
  exact keeps_inline hD ha hc

theorem keeps_of_lined {a b : D.State} {c : Code} (h : D.lined a = some b)
    (hc : Keeps D layout D.start D.start c) :
    Keeps D layout a b c := by
  obtain ⟨ha, rfl⟩ := Tracker.lined_eq_some h
  exact keeps_lines hD ha hc

section Codes

variable (hA : Admits layout P q)
include hA

theorem Visitor.Follows.name (hx : x.Follows D layout q us) (h : 2 * v.depth + 1 < bound)
    (hv : v.everyText q = true) (hu : plainName? v = none → Use.node .expression v ∈ us) :
    Keeps D layout D.mid D.mid (x.name v h) := by
  unfold Visitor.name
  split_ifs
  · exact keeps_stop _
  · split
    · next w hw => exact keeps_shown hD (hA.plainName hv hw)
    · next hnone => exact hx.visit .expression v _ (hu hnone) hv

omit hA in
theorem Visitor.Follows.specifiersCode (hx : x.Follows D layout q us) (h : 2 * v.depth + 1 < bound)
    (hv : v.everyText q = true) (hseq : Use.sequence v ∈ us)
    (hu : ∀ w ∈ v.yielded, Use.node .expression w ∈ us) :
    Keeps D layout D.mid D.mid (x.specifiersCode v h) := by
  unfold Visitor.specifiersCode
  split
  · next vs cs _ hcs =>
    have hparts := keeps_each hv (hx.chars v hseq hv) (fun w hw hmem htexts =>
      hx.expression hw htexts (hu w hmem)) hcs
    exact keeps_shaped (keepsAll_forall₂ hparts) fun ts ts' hts => hD.clausesText hts
  · exact keeps_stop _
  · exact keeps_stop _

theorem Visitor.Follows.templateCode {texts : Value} (hx : x.Follows D layout q us)
    (h : 2 * v.depth + 1 < bound) (hv : v.everyText q = true) (htexts : texts.everyText q = true)
    (hseq : Use.sequence v ∈ us) (hseq' : Use.sequence texts ∈ us)
    (hu : ∀ w ∈ v.yielded, Use.node .expression w ∈ us) :
    Keeps D layout D.mid D.mid (x.templateCode texts v h) := by
  unfold Visitor.templateCode
  split
  · next ts cs hts hcs =>
    have hparts := keeps_each hv (hx.chars v hseq hv) (fun w hw hmem htexts =>
      hx.expression hw htexts (hu w hmem)) hcs
    refine keeps_together (keepsJoined_weave hD (fun t ht => ?_) hparts)
    obtain ⟨w, hw, rfl⟩ := List.mem_map.mp ht
    exact hA.templateText (Value.everyText_of_mem_elementsOrNone htexts
      (hx.chars texts hseq' htexts) hts hw)
  · exact keeps_stop _
  · exact keeps_stop _

end Codes

end Lawful

mutual

theorem Piece.keeps (hA : Admits layout P q) (hD : D.Lawful layout P) :
    (p : Piece) → {node : Fields} → (h : 2 * (Value.map node).depth ≤ bound) → {a b : D.State} →
      p.trace D.toTracker a = some b → (Value.map node).everyText q = true →
        x.Follows D layout q (p.uses node) →
      Keeps D layout a b (p.code x node h)
  | .text s, node, h, a, b, ht, hv, hx => by
    rw [Piece.code]
    exact keeps_text hD ht
  | .margin, node, h, a, b, ht, hv, hx => by
    rw [Piece.code]
    exact keeps_margin hD ht
  | .shown f absent, node, h, a, b, ht, hv, hx => by
    rw [Piece.trace] at ht
    split_ifs at ht with habsent
    rw [Piece.code]
    refine keeps_of_inlined hD ht (keeps_spelling _ ?_)
    unfold Fields.getD
    cases hf : Fields.get? node f with
    | none => exact keeps_text hD (beq_iff_eq.mp habsent)
    | some w => exact keeps_leaf hD (hA.display (Value.everyText_of_get? hv hf))
  | .data f, node, h, a, b, ht, hv, hx => by
    rw [Piece.code]
    refine keeps_of_inlined hD ht (keeps_ofExcept fun c hc => ?_)
    obtain ⟨t, ht, rfl⟩ := exists_of_map_eq_ok hc
    exact keeps_leaf hD (hA.encode (Value.everyText_get hv f) (by decide) (by decide) ht)
  | .attributeValue f, node, h, a, b, ht, hv, hx => by
    rw [Piece.code]
    refine keeps_of_inlined hD ht (keeps_ofExcept fun c hc => ?_)
    obtain ⟨t, ht, rfl⟩ := exists_of_map_eq_ok hc
    exact keeps_leaf hD (hA.attributeValue (Value.everyText_get hv f) ht)
  | .expression f, node, h, a, b, ht, hv, hx => by
    rw [Piece.code]
    exact keeps_of_inlined hD ht (hx.expression _ (Value.everyText_get hv f) List.mem_cons_self)
  | .name f, node, h, a, b, ht, hv, hx => by
    rw [Piece.code]
    refine keeps_of_inlined hD ht (hx.name hD hA _ (Value.everyText_get hv f) fun hnone => ?_)
    rw [Piece.uses, hnone]
    exact List.mem_cons_self
  | .source f, node, h, a, b, ht, hv, hx => by
    rw [Piece.code]
    exact keeps_of_inlined hD ht (keeps_sourceCode hA hD (Value.everyText_get hv f))
  | .accessor f, node, h, a, b, ht, hv, hx => by
    rw [Piece.code]
    exact keeps_of_inlined hD ht (keeps_accessorCode hA hD _)
  | .unary operator operand, node, h, a, b, ht, hv, hx => by
    rw [Piece.code]
    refine keeps_of_inlined hD ht (keeps_spelling _ ?_)
    have hoperand := hx.expression (two_mul_depth_field_lt h operand)
      (Value.everyText_get hv operand)
      (List.mem_cons_of_mem _ List.mem_cons_self)
    have hsign := hA.shownField hv hA.composable.empty operator
    exact keeps_shaped (keepsAll_forall₂ fun c hc => List.mem_singleton.mp hc ▸ hoperand)
      fun ts ts' hts =>
      hD.operatorText hsign (hD.join hts)
  | .interleaved texts substitutions, node, h, a, b, ht, hv, hx => by
    rw [Piece.code]
    refine keeps_of_inlined hD ht (hx.templateCode hD hA _ (Value.everyText_get hv substitutions)
      (Value.everyText_get hv texts) ?_ List.mem_cons_self fun w hw => ?_)
    · exact List.mem_cons_of_mem _ List.mem_cons_self
    · refine List.mem_cons_of_mem _ (List.mem_cons_of_mem _ (List.mem_append_right _ ?_))
      exact List.mem_map_of_mem hw
  | .specifiers f, node, h, a, b, ht, hv, hx => by
    rw [Piece.code]
    refine keeps_of_inlined hD ht
      (hx.specifiersCode hD _ (Value.everyText_get hv f) List.mem_cons_self fun w hw => ?_)
    exact List.mem_cons_of_mem _ (List.mem_map_of_mem hw)
  | .itself missing, node, h, a, b, ht, hv, hx => by
    rw [Piece.code]
    refine keeps_of_inlined hD ht ?_
    split_ifs
    · exact keeps_stop _
    · exact hx.visit .expression _ _ List.mem_cons_self hv
    · exact keeps_leaf hD hA.composable.empty
  | .each f before between after, node, h, a, b, ht, hv, hx => by
    rw [Piece.trace] at ht
    split_ifs at ht with hfixed
    obtain ⟨⟨hbefore, hbetween⟩, hafter⟩ : (D.isFree before = true ∧ D.isFree between = true) ∧
      D.isFree after = true := by
      simpa only [Bool.and_eq_true] using hfixed
    rw [Piece.code]
    refine keeps_of_inlined hD ht (keeps_ofExcept fun c hc => ?_)
    obtain ⟨cs, hcs, rfl⟩ := exists_of_map_eq_ok hc
    refine keeps_separated hD hbetween (hx.eachField hv List.mem_cons_self ?_ hcs)
    intro w hw hmem htexts
    have helement := hx.expression hw htexts (List.mem_cons_of_mem _ (List.mem_map_of_mem hmem))
    have hend := keepsJoined_cons hD (keeps_text hD (beq_iff_eq.mp hafter)) (keepsJoined_nil hD)
    exact keeps_together
      (keepsJoined_cons hD (keeps_text hD (beq_iff_eq.mp hbefore))
        (keepsJoined_cons hD helement hend))
  | .eachRecord f untagged between parts, node, h, a, b, ht, hv, hx => by
    rw [Piece.trace] at ht
    split_ifs at ht with hfixed
    obtain ⟨hbetween, hparts⟩ := Bool.and_eq_true_iff.mp hfixed
    rw [Piece.code]
    refine keeps_of_inlined hD ht (keeps_ofExcept fun c hc => ?_)
    obtain ⟨cs, hcs, rfl⟩ := exists_of_map_eq_ok hc
    refine keeps_separated hD hbetween (hx.eachField hv List.mem_cons_self ?_ hcs)
    intro w hw hmem htexts
    split
    · next es hes =>
      have hfields := Value.everyText_of_head_eq htexts hes
      split_ifs with htag
      · refine hx.expression hw htexts (List.mem_cons_of_mem _ (List.mem_flatMap.mpr ⟨w, hmem, ?_⟩))
        simp only [hes, if_pos htag, List.mem_singleton]
      · refine keeps_together (Piece.keepsJoined hA hD parts _ (beq_iff_eq.mp hparts) hfields
          (hx.mono fun u hu => ?_))
        refine List.mem_cons_of_mem _ (List.mem_flatMap.mpr ⟨w, hmem, ?_⟩)
        simpa only [hes, if_neg htag] using hu
    · next hother =>
      refine hx.expression hw htexts (List.mem_cons_of_mem _ (List.mem_flatMap.mpr ⟨w, hmem, ?_⟩))
      split
      · next es hes => exact absurd hes (hother es)
      · exact List.mem_cons_self
  | .eachCase f parts, node, h, a, b, ht, hv, hx => by
    rw [Piece.trace] at ht
    split_ifs at ht with hparts
    rw [Piece.code]
    refine keeps_of_lined hD ht (keeps_ofExcept fun c hc => ?_)
    obtain ⟨cs, hcs, rfl⟩ := exists_of_map_eq_ok hc
    refine keeps_together (keepsJoined_of_forall hD (hx.eachField hv List.mem_cons_self ?_ hcs))
    intro w hw hmem htexts
    split
    · next es hes =>
      have hfields := Value.everyText_of_head_eq htexts hes
      refine keeps_together (Piece.keepsJoined hA hD parts _ (beq_iff_eq.mp hparts) hfields
        (hx.mono fun u hu => ?_))
      refine List.mem_cons_of_mem _ (List.mem_flatMap.mpr ⟨w, hmem, ?_⟩)
      simpa only [hes] using hu
    · exact keeps_stop _
  | .members f, node, h, a, b, ht, hv, hx => by
    rw [Piece.code]
    refine keeps_of_lined hD ht (keeps_together
      (keepsJoined_of_forall hD (keeps_eachStatement (Value.everyText_get hv f)
      fun w hw hmem htexts => ?_)))
    exact hx.memberCode hD hw htexts (List.mem_map_of_mem hmem)
  | .body f, node, h, a, b, ht, hv, hx => by
    rw [Piece.code]
    refine keeps_of_lined hD ht ?_
    unfold Visitor.bodyCode
    split_ifs
    · exact keeps_stop _
    · refine keeps_together (keepsJoined_of_forall hD
        (keeps_eachStatement (Value.everyText_get hv f)
        fun w hw hmem htexts => ?_))
      exact hx.statement hw htexts (List.mem_map_of_mem hmem)
  | .sequence f, node, h, a, b, ht, hv, hx => by
    rw [Piece.code]
    refine keeps_of_lined hD ht (keeps_ofExcept fun c hc => ?_)
    obtain ⟨cs, hcs, rfl⟩ := exists_of_map_eq_ok hc
    refine keeps_together (keepsJoined_of_forall hD (hx.eachField hv List.mem_cons_self ?_ hcs))
    intro w hw hmem htexts
    exact hx.statement hw htexts (List.mem_cons_of_mem _ (List.mem_map_of_mem hmem))
  | .statement f, node, h, a, b, ht, hv, hx => by
    rw [Piece.code]
    exact keeps_of_lined hD ht (hx.statement _ (Value.everyText_get hv f) List.mem_cons_self)
  | .deeper parts, node, h, a, b, ht, hv, hx => by
    rw [Piece.code]
    exact keeps_deeper hD (keeps_together (Piece.keepsJoined hA hD parts h ht hv hx))
  | .group parts, node, h, a, b, ht, hv, hx => by
    rw [Piece.code]
    exact keeps_together (Piece.keepsJoined hA hD parts h ht hv hx)
  | .choose test yes no, node, h, a, b, ht, hv, hx => by
    rw [Piece.trace] at ht
    obtain ⟨b₁, hyes, ht⟩ := Option.bind_eq_some_iff.mp ht
    obtain ⟨b₂, hno, hmerge⟩ := Option.bind_eq_some_iff.mp ht
    rw [Piece.code]
    rw [Piece.uses] at hx
    refine keeps_together (KeepsJoined.merge hD hmerge ?_)
    split_ifs at hx ⊢ with htest
    · exact .inl (Piece.keepsJoined hA hD yes h hyes hv hx)
    · exact .inr (Piece.keepsJoined hA hD no h hno hv hx)
  | .within f parts, node, h, a, b, ht, hv, hx => by
    have hfield := Value.everyText_get hv f
    rw [Piece.code]
    rw [Piece.uses] at hx
    split
    · next es hes =>
      have hfields := Value.everyText_of_head_eq hfield hes
      rw [hes] at hx
      exact keeps_together (Piece.keepsJoined hA hD parts _ ht hfields hx)
    · next hother =>
      split at hx
      · next es hes => exact absurd hes (hother es)
      · exact keeps_together (Piece.keepsJoined hA hD parts _ ht rfl hx)
  | .inside f parts, node, h, a, b, ht, hv, hx => by
    have hfield := Value.everyText_get hv f
    rw [Piece.code]
    rw [Piece.uses] at hx
    split
    · next es hes =>
      have hfields := Value.everyText_of_head_eq hfield hes
      rw [hes] at hx
      exact keeps_together (Piece.keepsJoined hA hD parts _ ht hfields hx)
    · next hother =>
      split_ifs
      · exact keeps_stop _
      · split at hx
        · next es hes => exact absurd hes (hother es)
        · have hparts := hx.mono fun u hu => List.mem_cons_of_mem _ hu
          exact keeps_together (Piece.keepsJoined hA hD parts _ ht rfl hparts)
  | .shaped shape parts, node, h, a, b, ht, hv, hx => by
    rw [Piece.code]
    unfold Piece.trace at ht
    split at ht
    · exact keeps_shaped (Piece.keepsBack hA hD _ h ht hv hx) fun ts ts' hts => hts
    · next lines =>
      split_ifs at ht with hlines
      obtain ⟨a', b', hmargin, hbody⟩ := hD.classBody
      have hfirst := Piece.keeps hA hD lines h (beq_iff_eq.mp hlines) hv
        (hx.mono fun u hu => List.mem_append_left _ hu)
      exact keeps_of_inlined hD ht (keeps_pair hfirst (keeps_margin hD hmargin) hbody)
    · split_ifs at ht with hparts
      obtain ⟨hshape, hparts⟩ := Bool.and_eq_true_iff.mp hparts
      have heach := Piece.keepsEach hA hD _ h hparts hv hx
      exact keeps_of_inlined hD ht (keeps_shaped heach fun ts ts' hts => hD.apply hshape hts)
termination_by p => sizeOf p

theorem Piece.keepsJoined (hA : Admits layout P q) (hD : D.Lawful layout P) :
    (ps : List Piece) → {node : Fields} → (h : 2 * (Value.map node).depth ≤ bound) →
      {a b : D.State} →
      Piece.traces D.toTracker a ps = some b → (Value.map node).everyText q = true →
        x.Follows D layout q (Piece.usesAll ps node) →
      KeepsJoined D layout a b (Piece.codes x ps node h)
  | [], node, h, a, b, ht, hv, hx => by
    cases ht
    exact keepsJoined_nil hD
  | p :: ps, node, h, a, b, ht, hv, hx => by
    obtain ⟨c, hp, hps⟩ := Option.bind_eq_some_iff.mp ht
    rw [Piece.codes]
    have hfirst := Piece.keeps hA hD p h hp hv (hx.mono fun u hu => List.mem_append_left _ hu)
    have hrest :=
      Piece.keepsJoined hA hD ps h hps hv (hx.mono fun u hu => List.mem_append_right _ hu)
    exact keepsJoined_cons hD hfirst hrest
termination_by ps => sizeOf ps

theorem Piece.keepsBack (hA : Admits layout P q) (hD : D.Lawful layout P) :
    (ps : List Piece) → {node : Fields} → (h : 2 * (Value.map node).depth ≤ bound) →
      {a b : D.State} →
      Piece.tracesBack D.toTracker a ps = some b → (Value.map node).everyText q = true →
      x.Follows D layout q (Piece.usesAll ps node) →
      KeepsAll D layout (fun ts ts' => D.related a b (String.join ts.reverse)
        (String.join ts'.reverse)) (Piece.codes x ps node h)
  | [], node, h, a, b, ht, hv, hx => by
    cases ht
    exact keepsAll_nil hD.nil
  | p :: ps, node, h, a, b, ht, hv, hx => by
    obtain ⟨c, hps, hp⟩ := Option.bind_eq_some_iff.mp ht
    rw [Piece.codes]
    have hfirst := Piece.keeps hA hD p h hp hv (hx.mono fun u hu => List.mem_append_left _ hu)
    have hrest := Piece.keepsBack hA hD ps h hps hv (hx.mono fun u hu => List.mem_append_right _ hu)
    refine keepsAll_cons hfirst hrest fun t t' ts ts' ht hts => ?_
    simp only [List.reverse_cons, String.join_append, String.join_cons, String.join_nil,
      String.append_empty]
    exact hD.append hts ht
termination_by ps => sizeOf ps

theorem Piece.keepsEach (hA : Admits layout P q) (hD : D.Lawful layout P) :
    (ps : List Piece) → {node : Fields} → (h : 2 * (Value.map node).depth ≤ bound) →
      Piece.tracesEach D.toTracker ps = true → (Value.map node).everyText q = true →
        x.Follows D layout q (Piece.usesAll ps node) →
      KeepsAll D layout (List.Forall₂ (D.related D.mid D.mid)) (Piece.codes x ps node h)
  | [], node, h, ht, hv, hx => keepsAll_nil .nil
  | p :: ps, node, h, ht, hv, hx => by
    obtain ⟨hp, hps⟩ := Bool.and_eq_true_iff.mp ht
    rw [Piece.codes]
    have hfirst := Piece.keeps hA hD p h (beq_iff_eq.mp hp) hv
      (hx.mono fun u hu => List.mem_append_left _ hu)
    have hrest := Piece.keepsEach hA hD ps h hps hv (hx.mono fun u hu => List.mem_append_right _ hu)
    exact keepsAll_cons hfirst hrest fun _ _ _ _ ht hts => .cons ht hts
termination_by ps => sizeOf ps

end

end Pieces

end Scriptwright.Script
