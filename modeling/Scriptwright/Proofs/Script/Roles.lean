import Scriptwright.Proofs.Script.Equations
import Scriptwright.Proofs.Script.Trace

/-!
# Traces and values

A discipline that the rules of both tables keep is kept by the code of every value, in whatever role
it is written: as a node, as a sequence of statements or as markup. The induction is on what is
written as a part of what.
-/

namespace Scriptwright.Script

open Text

def Tracker.traced (T : Tracker) (m : Mode) : Bool :=
  m.rules.all fun r => Piece.traces T (T.side m) r.2 == some (T.side m)

def Tracker.roleSide (T : Tracker) : Role → T.State
  | .node m => T.side m
  | _ => T.start

/-- Whether the characters of all texts that a role goes through have `q`. -/
def Spelled (q : String → Bool) (r : Role) (v : Value) : Prop :=
  ∀ w, Use.sequence w ∈ r.uses v → w.everyText q = true → w.charsHave q = true

section Nodes

variable {D : Discipline} {layout : Layout} {P : String → Prop} {q : String → Bool}

section Lawful

variable (hD : D.Lawful layout P)
include hD

theorem keeps_unhandled {a : D.State} (category : String) (kind : Value) :
    Keeps D layout a a (unhandled category kind) :=
  keeps_spelling kind (keeps_report hD _ _)

theorem keeps_of_selectRule {m : Mode} {es : Fields} {c : Code} {a : D.State}
    (h : selectRule m es = .inr c) :
    Keeps D layout a a c := by
  unfold selectRule at h
  dsimp only at h
  split at h
  · split at h
    · cases h
    · cases h
      exact keeps_unhandled hD _ _
  · cases h
    split_ifs
    · exact keeps_unhandled hD _ _
    · exact keeps_stop _

theorem keepsJoined_lineEnd {cs : List Code} (h : ∀ c ∈ cs, Keeps D layout D.mid D.mid c) :
    KeepsJoined D layout D.fresh D.start (cs ++ [Code.text "\n"]) := by
  induction cs with
  | nil =>
    have hbreak : D.text D.fresh "\n" = some D.start := hD.lineEnd "" (by decide)
    exact keepsJoined_cons hD (keeps_text hD hbreak) (keepsJoined_nil hD)
  | cons c cs ih =>
    have hfirst := keeps_inline hD hD.inline_fresh (h c List.mem_cons_self)
    exact keepsJoined_cons hD hfirst (ih fun d hd => h d (List.mem_cons_of_mem _ hd))

theorem keeps_line {cs : List Code} (h : ∀ c ∈ cs, Keeps D layout D.mid D.mid c) :
    Keeps D layout D.start D.start (.line cs) :=
  keeps_together (keepsJoined_cons hD (keeps_margin hD hD.margin_start) (keepsJoined_lineEnd hD h))

theorem keeps_elements {v : Value} {f : Value → Code} {a : D.State} (hv : v.everyText q = true)
    (hchars : v.charsHave q = true)
    (hf : ∀ w ∈ v.yielded, w.everyText q = true → Keeps D layout a a (f w)) :
    Keeps D layout a a (.ofExcept (v.elementsOrNone.map fun vs => .together (vs.map f))) := by
  refine keeps_ofExcept fun c hc => ?_
  obtain ⟨vs, hvs, rfl⟩ := exists_of_map_eq_ok hc
  refine keeps_together (keepsJoined_of_forall hD fun d hd => ?_)
  obtain ⟨w, hw, rfl⟩ := List.mem_map.mp hd
  exact hf w (Value.yielded_of_ok hvs ▸ hw) (Value.everyText_of_mem_elementsOrNone hv hchars hvs hw)

variable (hA : Admits layout P q)
include hA

theorem keeps_atomCode {v : Value} (m : Mode) (hv : v.everyText q = true) :
    Keeps D layout (D.side m) (D.side m) (atomCode m v) := by
  unfold atomCode
  split
  · exact keeps_leaf hD hA.composable.empty
  · exact keeps_leaf hD (hA.text _ hv)
  · next b =>
    cases b with
    | false => exact keeps_leaf hD (hA.composable.plain (by decide))
    | true => exact keeps_leaf hD (hA.composable.plain (by decide))
  · exact keeps_shown hD (hA.composable.plain (plain_int _))
  · exact keeps_leaf hD (hA.composable.plain (Double.plain_encoded _))
  · exact keeps_report hD _ _

theorem keeps_nodeCode {linked : Bool} {m : Mode} {v : Value} (htraced : D.traced m = true)
    (hv : v.everyText q = true) (hspelled : Spelled q (.node m) v)
    (hparts : ∀ m' w, weight m' w < weight m v → Use.node m' w ∈ Role.uses (.node m) v →
      w.everyText q = true →
      Keeps D layout (D.side m') (D.side m') (nodeCode linked m' w)) :
    Keeps D layout (D.side m) (D.side m) (nodeCode linked m v) := by
  have hhead := Value.head_of_everyText hv
  rw [nodeCode]
  split_ifs
  · exact keeps_stop _
  · split
    · next es hes =>
      have hfields := Value.everyText_of_head_eq hv hes
      refine keeps_deferred ?_
      split
      · next rule hrule =>
        obtain ⟨t, -, hlookup⟩ := exists_lookup_of_selectRule hrule
        have htrace := beq_iff_eq.mp (List.all_eq_true.mp htraced _ (mem_of_lookup hlookup))
        have huses : ∀ u ∈ Piece.usesAll rule es, u ∈ Role.uses (.node m) v := by
          intro u hu
          simp only [Role.uses, hes, hrule]
          exact List.mem_cons_of_mem _ hu
        refine keeps_together (Piece.keepsJoined hA hD rule _ htrace hfields ⟨?_, ?_⟩)
        · intro m' w hw hu htexts
          exact hparts m' w hw (huses _ hu) htexts
        · intro w hu
          exact hspelled w (huses _ hu)
      · next c hc => exact keeps_of_selectRule hD hc
    · rw [hhead]
      exact keeps_atomCode hD hA m hv

theorem keeps_propsCode {props : Value} (hprops : props.everyText q = true) :
    Keeps D layout D.mid D.mid (propsCode props) := by
  unfold propsCode
  split_ifs
  · rw [Value.head_of_everyText hprops]
    split
    · next es =>
      refine keeps_together (keepsJoined_of_forall hD fun c hc => ?_)
      obtain ⟨e, he, rfl⟩ := List.mem_map.mp hc
      refine keeps_spelling e.1 (keeps_ofExcept fun d hd => ?_)
      obtain ⟨t, ht, rfl⟩ := exists_of_map_eq_ok hd
      obtain ⟨u, hu, rfl⟩ := exists_of_map_eq_ok ht
      have hname : P (attributeName e.1.display) := by
        unfold attributeName
        split_ifs
        · exact hA.composable.plain (by decide)
        · exact hA.composable.plain (by decide)
        · exact hA.display (Value.everywhere_key_of_mem_entries hprops he)
      have hvalue := hA.attributeValue (Value.everywhere_of_mem_entries hprops he) hu
      exact keeps_leaf hD (hA.composable.append (hA.composable.plain (by decide))
        (hA.composable.append hname hvalue))
    · exact keeps_stop _
  · exact keeps_leaf hD hA.composable.empty

omit hD in
theorem Admits.leafText {s : String} (hs : q s = true) : P (leafText s) := by
  unfold Script.leafText
  split
  · next e he => exact hA.composable.curly (hA.dynamic s e hs he)
  · exact hA.text s hs

omit hA in
theorem keeps_lineOf {c : Code} (h : Keeps D layout D.mid D.mid c) :
    Keeps D layout D.start D.start (.line [c]) :=
  keeps_line hD fun _ hc => List.mem_singleton.mp hc ▸ h

omit hA in
theorem keeps_leafLine {t : String} (ht : P t) : Keeps D layout D.start D.start (.line [.text t]) :=
  keeps_lineOf hD (keeps_leaf hD ht)

theorem keeps_tagLine {tag closing : String} {props : Value} (htag : P tag)
    (hprops : props.everyText q = true) (hclosing : P closing) :
    Keeps D layout D.start D.start
      (.line [.text ("<" ++ tag), propsCode props, .text closing]) := by
  refine keeps_line hD fun c hc => ?_
  simp only [List.mem_cons, List.not_mem_nil, or_false] at hc
  rcases hc with rfl | rfl | rfl
  · exact keeps_leaf hD (hA.composable.append (hA.composable.plain (by decide)) htag)
  · exact keeps_propsCode hD hA hprops
  · exact keeps_leaf hD hclosing

theorem keeps_elementCode {tag : String} {props : Value} {body : Code} (htag : P tag)
    (hprops : props.everyText q = true) (hbody : Keeps D layout D.start D.start body) :
    Keeps D layout D.start D.start (.together
      [.line [.text ("<" ++ tag), propsCode props, .text ">"], body,
        .line [.text ("</" ++ tag ++ ">")]]) := by
  refine keeps_together (keepsJoined_of_forall hD fun c hc => ?_)
  simp only [List.mem_cons, List.not_mem_nil, or_false] at hc
  rcases hc with rfl | rfl | rfl
  · exact keeps_tagLine hD hA htag hprops (hA.composable.plain (by decide))
  · exact hbody
  · exact keeps_leafLine hD (hA.composable.between (by decide) htag (by decide))

theorem keeps_markupCode {v : Value} (hv : v.everyText q = true) (hspelled : Spelled q .markup v)
    (hparts : ∀ w, w.depth < v.depth → Use.part .markup w ∈ Role.uses .markup v →
      w.everyText q = true →
      Keeps D layout D.start D.start (markupCode w)) :
    Keeps D layout D.start D.start (markupCode v) := by
  rw [markupCode]
  split_ifs
  · exact keeps_stop _
  · split
    · next s hs =>
      have htext : (Value.string s).everyText q = true := Value.everyText_of_head_eq hv hs
      exact keeps_leafLine hD (hA.leafText htext)
    · exact keeps_lineOf hD (keeps_shown hD (hA.composable.plain (plain_int _)))
    · exact keeps_leafLine hD (hA.composable.plain (Double.plain_shown _))
    · next es hes =>
      have hfields := Value.everyText_of_head_eq hv hes
      have hprops := Value.everyText_get hfields "props"
      refine keeps_deferred ?_
      split
      · next tag htag =>
        have hname : P tag := by
          have htype := Value.everyText_get hfields "type"
          rw [htag] at htype
          exact hA.text tag htype
        split_ifs with hchildren
        · have huses : Role.uses .markup v = .props (Fields.get es "props") :: .sequence
              (Fields.get es "children") ::
              (Fields.get es "children").yielded.map (Use.part .markup) := by
            simp only [Role.uses, hes, htag, if_pos hchildren]
          have hfield := Value.everyText_get hfields "children"
          have hchars := hspelled (Fields.get es "children") (by simp [huses]) hfield
          refine keeps_elementCode hD hA hname hprops (keeps_ofExcept fun c hc => ?_)
          obtain ⟨cs, hcs, rfl⟩ := exists_of_map_eq_ok hc
          refine keeps_deeper hD (keeps_together
            (keepsJoined_of_forall hD (keeps_each hfield hchars ?_ hcs)))
          intro w hdepth hw htexts
          have hlighter : w.depth < v.depth := by
            rw [← Value.head_of_everyText hv, hes]
            omega
          exact hparts w hlighter (by simpa [huses] using hw) htexts
        · exact keeps_tagLine hD hA hname hprops (hA.composable.plain (by decide))
      · exact keeps_unhandled hD _ _
    · exact keeps_report hD _ _

end Lawful

section Values

variable {H : Role → Value → Prop} (hA : Admits layout P q) (hD : D.Lawful layout P)
  (hdown : PassesDown H) (hspelled : ∀ r v, H r v → Spelled q r v)
include hA hD hdown hspelled

theorem keeps_node (linked : Bool) (htraced : ∀ m, D.traced m = true) {m : Mode} {v : Value}
    (h : H (.node m) v) (hv : v.everyText q = true) :
    Keeps D layout (D.side m) (D.side m) (nodeCode linked m v) := by
  induction hn : weight m v using Nat.strongRecOn generalizing m v with
  | ind n ih =>
    refine keeps_nodeCode hD hA (htraced m) hv (hspelled _ _ h) fun m' w hw hu htexts => ?_
    exact ih _ (hn ▸ hw) (hdown _ _ _ _ h hu) htexts rfl

theorem keeps_markup {v : Value} (h : H .markup v) (hv : v.everyText q = true) :
    Keeps D layout D.start D.start (markupCode v) := by
  induction hn : v.depth using Nat.strongRecOn generalizing v with
  | ind n ih =>
    refine keeps_markupCode hD hA hv (hspelled _ _ h) fun w hw hu htexts => ?_
    exact ih _ (hn ▸ hw) (hdown _ _ _ _ h hu) htexts rfl

/-- A discipline that the rules of both tables keep is kept by every value in every role. -/
theorem keeps_code (linked : Bool) (htraced : ∀ m, D.traced m = true) {r : Role}
    {v : Value} (h : H r v) (hv : v.everyText q = true) :
    Keeps D layout (D.roleSide r) (D.roleSide r) (r.code linked v) := by
  cases r with
  | node m => exact keeps_node hA hD hdown hspelled linked htraced h hv
  | markup => exact keeps_markup hA hD hdown hspelled h hv
  | statements =>
    refine keeps_elements hD hv (hspelled _ _ h v List.mem_cons_self hv) fun w hw htexts => ?_
    have hpart := hdown _ _ (.node .statement) w h (List.mem_cons_of_mem _ (List.mem_map_of_mem hw))
    exact keeps_node hA hD hdown hspelled linked htraced hpart htexts
  | forest =>
    refine keeps_elements hD hv (hspelled _ _ h v List.mem_cons_self hv) fun w hw htexts => ?_
    have hpart := hdown _ _ .markup w h (List.mem_cons_of_mem _ (List.mem_map_of_mem hw))
    exact keeps_markup hA hD hdown hspelled hpart htexts

end Values

end Nodes

end Scriptwright.Script
