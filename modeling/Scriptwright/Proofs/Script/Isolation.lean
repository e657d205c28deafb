import Scriptwright.Proofs.Script.Emission
import Scriptwright.Proofs.Script.Equations
import Scriptwright.Proofs.Script.Frame
import Scriptwright.Proofs.Script.WholeLines

/-!
# Statements stand alone

A statement is either a number of whole lines, the first of which is indented as its level asks for,
or it is of a kind that has no rule: then it leaves no text and one diagnostic. `Piece.opensLine` is
a check of rules for the first line. It follows that a statement without a rule can be taken out of
a sequence: the text stays as it is, and the diagnostics lose the one of that statement.
-/

namespace Scriptwright.Script

open Text

/-! ## The first line -/

/-- A text that begins with a margin and goes on to the end of that line at least. -/
def OpensLine (margin t : String) : Prop := ∃ line rest, t = margin ++ line ++ "\n" ++ rest

theorem OpensLine.append {margin t : String} (h : OpensLine margin t) (u : String) :
    OpensLine margin (t ++ u) := by
  obtain ⟨line, rest, rfl⟩ := h
  exact ⟨line, rest ++ u, by simp only [String.append_assoc]⟩

/-- A text whose first and last lines are complete lies between its margin and its last line break.
-/
theorem OpensLine.exists_body {margin t : String} (h : OpensLine margin t)
    (hends : endsLine t.toList = true) :
    ∃ body, t = margin ++ body ++ "\n" := by
  obtain ⟨line, rest, rfl⟩ := h
  rcases List.eq_nil_or_concat rest.toList with hnil | ⟨cs, c, hconcat⟩
  · obtain rfl : rest = "" := String.toList_injective hnil
    exact ⟨line, String.append_empty⟩
  · have hne : rest.toList ≠ [] := by simp [hconcat]
    rw [String.toList_append, endsLine_append hne, endsLine, hconcat] at hends
    obtain rfl : c = '\n' := by simpa using hends
    refine ⟨line ++ "\n" ++ String.ofList cs, String.toList_injective ?_⟩
    simp [hconcat]

namespace Code

/-- Every text of a piece of code opens a line at the level at which it stands. -/
def Opens (c : Code) : Prop :=
  ∀ layout level j t k, c.emit layout level j = (.ok t, k) → OpensLine (layout.margin level) t

/-- The texts of several pieces, put together in some order, open a line. -/
def OpenAll (order : List String → List String) (cs : List Code) : Prop :=
  ∀ layout level j ts k, emitAll layout level cs j = (.ok ts, k) →
    OpensLine (layout.margin level) (String.join (order ts))

variable {c : Code} {cs : List Code}

theorem opens_stop (f : Fault) : (Code.stop f).Opens := by
  intro layout level j t k h
  rw [emit, Emission.fail] at h
  cases h

theorem Opens.deferred {code : Unit → Code} (h : (code ()).Opens) : (Code.deferred code).Opens := by
  intro layout level j t k hrun
  rw [emit] at hrun
  exact h layout level j t k hrun

theorem opens_shaped {shape : Shape} {order : List String → List String}
    (hshape : ∀ ts, shape.apply ts = String.join (order ts)) (h : OpenAll order cs) :
    (Code.shaped shape cs).Opens := by
  intro layout level j t k hrun
  obtain ⟨ts, hts, rfl⟩ := exists_of_emit_shaped hrun
  rw [hshape]
  exact h layout level j ts k hts

theorem opens_together (h : OpenAll id cs) : (Code.together cs).Opens :=
  opens_shaped (fun _ => rfl) h

theorem Opens.first (h : c.Opens) (cs : List Code) : OpenAll id (c :: cs) := by
  intro layout level j ts k hrun
  obtain ⟨t, us, j', ht, -, rfl⟩ := exists_of_emitAll_cons hrun
  rw [id, String.join_cons]
  exact (h layout level j t j' ht).append _

theorem Opens.last (h : c.Opens) : OpenAll List.reverse [c] := by
  intro layout level j ts k hrun
  obtain ⟨t, us, j', ht, hus, rfl⟩ := exists_of_emitAll_cons hrun
  obtain ⟨hnil, -⟩ := Prod.mk.inj hus
  cases hnil
  simpa using h layout level j t j' ht

theorem OpenAll.cons (h : OpenAll List.reverse cs) (c : Code) : OpenAll List.reverse (c :: cs) := by
  intro layout level j ts k hrun
  obtain ⟨t, us, j', -, hus, rfl⟩ := exists_of_emitAll_cons hrun
  rw [List.reverse_cons, String.join_append]
  exact (h layout level j' us k hus).append _

end Code

/-! ## Rules -/

def Piece.endInBreak : List Piece → Bool
  | [] => false
  | [.text s] => s == "\n"
  | _ :: ps => Piece.endInBreak ps

def Piece.areLine : List Piece → Bool
  | .margin :: ps => Piece.endInBreak ps
  | _ => false

mutual

def Piece.opensLine : Piece → Bool
  | .group ps => Piece.areLine ps || Piece.firstOpens ps
  | .choose _ yes no => Piece.firstOpens yes && Piece.firstOpens no
  | .shaped .swapped ps => Piece.lastOpens ps
  | _ => false

def Piece.firstOpens : List Piece → Bool
  | [] => false
  | p :: _ => p.opensLine

def Piece.lastOpens : List Piece → Bool
  | [] => false
  | [p] => p.opensLine
  | _ :: ps => Piece.lastOpens ps

end

section Rules

open Code

variable (linked : Bool) (m : Mode) (es : Fields)

theorem exists_of_endInBreak {ps : List Piece} (h : Piece.endInBreak ps = true) {layout : Layout}
    {level : Int} {j k : Journal} {ts : List String}
    (hrun : emitAll layout level (Piece.writtenAll linked m ps es) j = (.ok ts, k)) :
    ∃ line, String.join ts = line ++ "\n" := by
  fun_induction Piece.endInBreak ps generalizing j ts with
  | case1 => cases h
  | case2 s =>
    obtain ⟨t, us, j', ht, hus, rfl⟩ := exists_of_emitAll_cons hrun
    cases ht
    cases hus
    obtain rfl := beq_iff_eq.mp h
    exact ⟨"", rfl⟩
  | case3 p ps _ ih =>
    obtain ⟨t, us, j', -, hus, rfl⟩ := exists_of_emitAll_cons hrun
    obtain ⟨line, hline⟩ := ih h hus
    exact ⟨t ++ line, by rw [String.join_cons, hline, String.append_assoc]⟩

theorem openAll_of_areLine {ps : List Piece} (h : Piece.areLine ps = true) :
    OpenAll id (Piece.writtenAll linked m ps es) := by
  unfold Piece.areLine at h
  split at h
  · intro layout level j ts k hrun
    obtain ⟨t, us, j', ht, hus, rfl⟩ := exists_of_emitAll_cons hrun
    cases ht
    obtain ⟨line, hline⟩ := exists_of_endInBreak linked m es h hus
    refine ⟨line, "", ?_⟩
    rw [id, String.join_cons, hline, String.append_empty, String.append_assoc]
  · cases h

mutual

theorem Piece.opens : (p : Piece) → p.opensLine = true → (p.written linked m es).Opens
  | .group ps, h => by
    rw [Piece.opensLine, Bool.or_eq_true] at h
    rw [Piece.written]
    rcases h with hline | hfirst
    · exact opens_together (openAll_of_areLine linked m es hline)
    · exact opens_together (Piece.openAll_of_first ps hfirst)
  | .choose test yes no, h => by
    rw [Piece.opensLine, Bool.and_eq_true] at h
    rw [Piece.written]
    split_ifs
    · exact opens_together (Piece.openAll_of_first yes h.1)
    · exact opens_together (Piece.openAll_of_first no h.2)
  | .shaped .swapped ps, h => by
    rw [Piece.written]
    exact opens_shaped (fun _ => rfl) (Piece.openAll_of_last ps h)

theorem Piece.openAll_of_first : (ps : List Piece) → Piece.firstOpens ps = true →
    OpenAll id (Piece.writtenAll linked m ps es)
  | p :: ps, h => by
    rw [Piece.writtenAll]
    exact (Piece.opens p h).first _

theorem Piece.openAll_of_last : (ps : List Piece) → Piece.lastOpens ps = true →
    OpenAll List.reverse (Piece.writtenAll linked m ps es)
  | [p], h => (Piece.opens p h).last
  | _ :: q :: ps, h => (Piece.openAll_of_last (q :: ps) h).cons _

end

theorem firstOpens_of_mem_statementRules : ∀ r ∈ statementRules, Piece.firstOpens r.2 = true := by
  decide +kernel

end Rules

/-! ## Statements without a rule -/

/-- Whether a tag can be looked up and noted, and has no rule for statements. -/
def lacksRule : Value → Bool
  | .string t => !Mode.statement.kinds.contains t
  | tag => tag.hashable && tag.writable

/-- Whether a value is noted instead of being written as a statement: it is no mapping, or its tag
has no rule. -/
def isUnhandled (v : Value) : Bool :=
  !v.exhausted &&
    match v.head with
    | .map es => lacksRule (Fields.get es "type")
    | _ => true

theorem lookup_eq_none_iff {t : String} :
    Mode.statement.rules.lookup t = none ↔ Mode.statement.kinds.contains t = false := by
  rw [List.lookup_eq_none_iff, Mode.kinds, ← Bool.not_eq_true, List.contains_iff_mem, List.mem_map]
  constructor
  · rintro hall ⟨r, hr, rfl⟩
    simpa using hall r hr
  · intro hno r hr
    exact bne_iff_ne.mpr fun ht => hno ⟨r, hr, ht.symm⟩

theorem selectRule_of_lacksRule {es : Fields} (h : lacksRule (Fields.get es "type") = true) :
    ∃ kind, selectRule .statement es = .inr (.report "statement" kind) := by
  rw [selectRule]
  cases htag : Fields.get es "type" with
  | string t =>
    rw [htag, lacksRule, Bool.not_eq_true'] at h
    simp only [lookup_eq_none_iff.mpr h]
    exact ⟨.string t, rfl⟩
  | _ =>
    rw [htag, lacksRule] at h
    · obtain ⟨hhashable, hwritable⟩ := Bool.and_eq_true_iff.mp h
      simp only [hhashable, if_true, unhandled, Code.spelling_of_writable hwritable]
      exact ⟨_, rfl⟩
    · simp

/-- A tag has no rule, has one, or cannot be looked up or noted. -/
theorem selectRule_of_not_lacksRule {es : Fields} (h : lacksRule (Fields.get es "type") = false) :
    (∃ rule, selectRule .statement es = .inl rule) ∨
      ∃ f, selectRule .statement es = .inr (.stop f) := by
  rw [selectRule]
  cases htag : Fields.get es "type" with
  | string t =>
    rw [htag, lacksRule] at h
    cases hlookup : Mode.statement.rules.lookup t with
    | some rule => exact .inl ⟨rule, by simp only [hlookup]⟩
    | none =>
      rw [lookup_eq_none_iff.mp hlookup] at h
      cases h
  | _ =>
    rw [htag, lacksRule] at h
    · rcases Bool.and_eq_false_iff.mp h with hhashable | hwritable
      · simp only [hhashable]
        exact .inr ⟨_, rfl⟩
      · simp only [unhandled, Code.spelling_of_not_writable hwritable]
        split
        · exact .inr ⟨_, rfl⟩
        · exact .inr ⟨_, rfl⟩
    · simp

/-- A statement without a rule leaves no text and one diagnostic. -/
theorem exists_report_of_isUnhandled (linked : Bool) {v : Value} (h : isUnhandled v = true) :
    ∃ kind, ∀ layout level, (nodeCode linked .statement v).emit layout level =
      (Code.report "statement" kind).emit layout level := by
  rw [isUnhandled, Bool.and_eq_true, Bool.not_eq_true'] at h
  obtain ⟨hv, htag⟩ := h
  cases hhead : v.head with
  | map es =>
    rw [hhead] at htag
    obtain ⟨kind, hselect⟩ := selectRule_of_lacksRule htag
    rw [nodeCode_of_head linked .statement hv hhead, hselect]
    exact ⟨kind, fun _ _ => rfl⟩
  | _ =>
    rw [nodeCode_of_atom linked .statement hv (by simp [hhead]), hhead]
    exact ⟨_, fun _ _ => rfl⟩

/-- A statement with a rule opens a line. -/
theorem opens_of_not_isUnhandled (linked : Bool) {v : Value} (h : isUnhandled v = false) :
    (nodeCode linked .statement v).Opens := by
  cases hv : v.exhausted with
  | true =>
    rw [nodeCode, hv]
    exact Code.opens_stop _
  | false =>
    rw [isUnhandled, hv] at h
    cases hhead : v.head with
    | map es =>
      rw [hhead] at h
      rw [nodeCode_of_head linked .statement hv hhead]
      apply Code.Opens.deferred
      rcases selectRule_of_not_lacksRule h with ⟨rule, hrule⟩ | ⟨f, hstop⟩
      · obtain ⟨t, -, hlookup⟩ := exists_lookup_of_selectRule hrule
        have hfirst := firstOpens_of_mem_statementRules _ (mem_of_lookup hlookup)
        rw [hrule]
        exact Code.opens_together (Piece.openAll_of_first linked _ es rule hfirst)
      · rw [hstop]
        exact Code.opens_stop _
    | _ =>
      rw [hhead] at h
      cases h

/-- A statement is a number of whole lines, or it is noted and leaves no text. -/
theorem lines_or_report (linked : Bool) {v : Value} {layout : Layout} {level : Int} {j k : Journal}
    {t : String} (h : (nodeCode linked .statement v).emit layout level j = (.ok t, k)) :
    if isUnhandled v then t = "" ∧ ∃ kind, k = j.report "statement" kind
    else ∃ body, t = layout.margin level ++ body ++ "\n" := by
  split_ifs with hv
  · obtain ⟨kind, hreport⟩ := exists_report_of_isUnhandled linked hv
    rw [hreport] at h
    cases h
    exact ⟨rfl, kind, rfl⟩
  · have hopens := opens_of_not_isUnhandled linked (Bool.eq_false_iff.mpr hv) layout level j t k h
    rcases lands_statement linked v layout level j t k h rfl with ⟨rfl, -⟩ | hends
    · obtain ⟨line, rest, hempty⟩ := hopens
      have hlength := congrArg (fun s => s.toList.length) hempty
      simp at hlength
    · exact hopens.exists_body hends

/-! ## Sequences -/

namespace Code

/-- A piece that is noted makes no difference to the texts around it, and its note stands between
theirs. -/
theorem emit_around {layout : Layout} {level : Int} {u : Code} {category : String} {kind : Value}
    (hu : u.emit layout level = (report category kind).emit layout level) (cs ds : List Code)
    (source : Option String) :
    let emitted := fun cs => (together cs).emit layout level (.empty source)
    (emitted (cs ++ [u] ++ ds)).1 = (emitted (cs ++ ds)).1 ∧
      ((emitted cs).1.isOk = true →
        (emitted (cs ++ [u] ++ ds)).2.notes =
          (emitted cs).2.notes ++ (emitted [u]).2.notes ++ (emitted ds).2.notes) := by
  obtain ⟨before, notes, hcs⟩ := framed_emitAll layout cs level source
  obtain ⟨after, notes', hds⟩ := framed_emitAll layout ds level source
  have halone : emitAll layout level [u] = fun j => (.ok [""], j.report category kind) := by
    rw [emitAll_cons, hu]
    rfl
  simp only [together, emit_shaped, Emission.map, emitAll_append, halone, Emission.bind,
    Journal.empty, hcs, hds, Journal.report, Journal.add]
  cases before with
  | error f => exact ⟨rfl, fun hok => absurd hok Bool.false_ne_true⟩
  | ok ts =>
    cases after with
    | error f => simp [hds, Emission.pure]
    | ok us => simp [hds, Emission.pure, Shape.apply]

end Code

theorem sequenceCode_list (linked : Bool) (vs : List Value) :
    sequenceCode linked (.list vs) = .together (vs.map (nodeCode linked .statement)) := by
  rw [sequenceCode, Value.elementsOrNone_of_head rfl]
  rfl

/-- Every statement that is written is a number of whole lines, from the margin of its level to a
line break, unless it has no rule: then it leaves no text and exactly one diagnostic. Such a
statement can stand anywhere in a sequence: the outcome is the one without it, and its diagnostic
comes between those of the statements before and after it. -/
theorem emit_statement_isolated (o : Options) (level : Int) :
    (∀ (s : Value) (j k : Journal) (t : String),
      (nodeCode true .statement s).emit o.layout level j = (.ok t, k) →
      if isUnhandled s then
        t = "" ∧ ∃ d : Diagnostic, d.category = "statement" ∧ k.diagnostics = j.diagnostics ++ [d]
      else ∃ body, t = o.layout.margin level ++ body ++ "\n") ∧
    ∀ (xs ys : List Value) (u : Value) (source : Option String), isUnhandled u = true →
      let emitted := fun vs => (sequenceCode true (.list vs)).emit o.layout level (.empty source)
      (emitted [u]).1 = .ok "" ∧
        (emitted (xs ++ [u] ++ ys)).1 = (emitted (xs ++ ys)).1 ∧
        ((emitted xs).1.isOk = true →
          (emitted (xs ++ [u] ++ ys)).2.diagnostics =
            (emitted xs).2.diagnostics ++ (emitted [u]).2.diagnostics ++
              (emitted ys).2.diagnostics) := by
  constructor
  · intro s j k t h
    have hlines := lines_or_report true h
    split_ifs at hlines ⊢ with hs
    · obtain ⟨ht, kind, rfl⟩ := hlines
      exact ⟨ht, ⟨"statement", kind, j.source⟩, rfl, List.filterMap_append⟩
    · exact hlines
  · intro xs ys u source hu
    obtain ⟨kind, hreport⟩ := exists_report_of_isUnhandled true hu
    have haround := Code.emit_around (hreport o.layout level) (xs.map (nodeCode true .statement))
      (ys.map (nodeCode true .statement)) source
    simp only [sequenceCode_list, List.map_append, List.map_cons, List.map_nil]
    refine ⟨?_, haround.1, fun hok => ?_⟩
    · rw [Code.together, Code.emit_shaped, Code.emitAll_cons, hreport]
      rfl
    · simp only [Journal.diagnostics, haround.2 hok, List.filterMap_append]

/-- A statement of an unknown kind behind one whose operand is of an unknown kind, in front of a
bare text. -/
theorem emit_statement_isolated_unknown :
    let first := Value.record [("type", .string "returnStatement"),
  ("argument", .record [("type", .string "odd")])]
    let unknown := Value.record [("type", .string "whenStatement")]
    let options : Options := { indentStyle := "tabs" }
    let emitted := fun vs => (sequenceCode true (.list vs)).emit options.layout 2 (.empty none)
    isUnhandled first = false ∧ isUnhandled unknown = true ∧
      (∃ t k, (nodeCode true .statement first).emit options.layout 2 (.empty none) = (.ok t, k) ∧
        ∃ body, t = "\t\t" ++ body ++ "\n") ∧
      (emitted [first, unknown, .string "x"]).1 = (emitted [first, .string "x"]).1 ∧
      (emitted [first, unknown, .string "x"]).2.diagnostics =
        (emitted [first]).2.diagnostics ++ (emitted [unknown]).2.diagnostics ++
          (emitted [.string "x"]).2.diagnostics := by
  intro first unknown options emitted
  have hfirst : isUnhandled first = false := by decide
  have hunknown : isUnhandled unknown = true := by decide
  have hok : (emitted [first]).1.isOk = true := by decide +kernel
  obtain ⟨hlines, hisolated⟩ := emit_statement_isolated options 2
  obtain ⟨-, houtcome, hdiagnostics⟩ := hisolated [first] [.string "x"] unknown none hunknown
  refine ⟨hfirst, hunknown, ?_, houtcome, hdiagnostics hok⟩
  cases hemit : (nodeCode true .statement first).emit options.layout 2 (.empty none) with
  | mk outcome k =>
    cases outcome with
    | error f =>
      have hrun : ((nodeCode true .statement first).emit options.layout 2 (.empty none)).1.isOk =
          true := by
        decide +kernel
      rw [hemit] at hrun
      cases hrun
    | ok t =>
      have hbody := hlines first _ k t hemit
      rw [hfirst] at hbody
      exact ⟨t, k, rfl, hbody⟩

end Scriptwright.Script
