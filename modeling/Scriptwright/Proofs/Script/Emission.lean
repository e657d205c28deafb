import Scriptwright.Script.Code

/-!
# Equations of emission

Emission that only gives a text is `Emission.pure` of it, so that the text of code is found by
rewriting from its parts upwards.
-/

namespace Scriptwright.Script

namespace Emission

variable {α β γ : Type}

@[simp]
theorem pure_bind (a : α) (f : α → Emission β) : (pure a).bind f = f a := rfl

@[simp]
theorem map_pure (f : α → β) (a : α) : (pure a).map f = pure (f a) := rfl

@[simp]
theorem fail_bind (e : Fault) (f : α → Emission β) : (fail e).bind f = fail e := rfl

@[simp]
theorem map_fail (f : α → β) (e : Fault) : (fail e).map f = fail e := rfl

theorem bind_bind (x : Emission α) (f : α → Emission β) (g : β → Emission γ) :
    (x.bind f).bind g = x.bind fun a => (f a).bind g := by
  funext j
  unfold Emission.bind
  cases x j with
  | mk outcome k => cases outcome <;> rfl

theorem map_apply (x : Emission α) (f : α → β) (j : Journal) :
    x.map f j = ((x j).1.map f, (x j).2) := by
  rw [Emission.map, Emission.bind]
  cases x j with
  | mk outcome k =>
    cases outcome with
    | error f => rfl
    | ok a => rfl

end Emission

namespace Code

variable (layout : Layout) (level : Int)

@[simp]
theorem emit_text (s : String) : (text s).emit layout level = .pure s := by rw [emit]

@[simp]
theorem emit_margin : margin.emit layout level = .pure (layout.margin level) := by rw [emit]

@[simp]
theorem emit_quoted (s : String) : (quoted s).emit layout level = .pure (layout.quoted s) :=
  by rw [emit]

theorem emit_stop (f : Fault) : (stop f).emit layout level = .fail f := by rw [emit]

theorem spelling_of_writable {v : Value} (h : v.writable = true) (c : Code) : spelling v c = c := by
  rw [spelling, Value.written_of_writable h, ofExcept]

theorem spelling_of_not_writable {v : Value} (h : v.writable = false) (c : Code) :
    spelling v c = stop .badValue := by
  rw [spelling, Value.written, h]
  rfl

@[simp]
theorem shown_string (s : String) : shown (.string s) = text s := rfl

@[simp]
theorem emit_deeper (c : Code) : (deeper c).emit layout level = c.emit layout (level + 1) :=
  by rw [emit]

theorem emit_deferred (c : Unit → Code) :
    (deferred c).emit layout level = (c ()).emit layout level := by rw [emit]

@[simp]
theorem emit_together (cs : List Code) :
    (together cs).emit layout level = (emitAll layout level cs).map String.join := by
  rw [together, emit_shaped]
  rfl

@[simp]
theorem emit_separated (mark : String) (cs : List Code) :
    (separated mark cs).emit layout level = (emitAll layout level cs).map mark.intercalate := by
  rw [separated, emit_shaped]
  rfl

@[simp]
theorem emitAll_nil : emitAll layout level [] = .pure [] := by rw [emitAll]

theorem emitAll_map {α : Type} {layout : Layout} {level : Int} {f : α → Code} {t : α → String}
    {as : List α} (h : ∀ a ∈ as, (f a).emit layout level = .pure (t a)) :
    emitAll layout level (as.map f) = .pure (as.map t) := by
  induction as with
  | nil => exact emitAll_nil layout level
  | cons a as ih =>
    obtain ⟨ha, has⟩ := List.forall_mem_cons.mp h
    rw [List.map_cons, emitAll_cons, ha, ih has]
    rfl

theorem emitAll_append (cs ds : List Code) :
    emitAll layout level (cs ++ ds) =
      (emitAll layout level cs).bind fun ts => (emitAll layout level ds).bind fun us =>
        .pure (ts ++ us) := by
  induction cs with
  | nil =>
    funext j
    rw [List.nil_append, emitAll_nil, Emission.pure_bind, Emission.bind]
    cases emitAll layout level ds j with
    | mk outcome k => cases outcome <;> rfl
  | cons c cs ih =>
    rw [List.cons_append, emitAll_cons, emitAll_cons, ih]
    simp only [Emission.map, Emission.bind_bind, Emission.pure_bind, List.cons_append]

theorem emit_together_cons (c : Code) (cs : List Code) :
    (together (c :: cs)).emit layout level =
      (c.emit layout level).bind fun t => ((together cs).emit layout level).map (t ++ ·) := by
  rw [emit_together, emitAll_cons, emit_together]
  simp only [Emission.map, Emission.bind_bind, Emission.pure_bind, String.join_cons]

theorem emit_together_together (cs ds : List Code) :
    (together (together cs :: ds)).emit layout level = (together (cs ++ ds)).emit layout level := by
  rw [emit_together_cons, emit_together, emit_together, emit_together, emitAll_append]
  simp only [Emission.map, Emission.bind_bind, Emission.pure_bind, String.join_append]

theorem emit_together_append (cs ds : List Code) :
    (together (cs ++ ds)).emit layout level =
      ((together cs).emit layout level).bind fun t =>
        ((together ds).emit layout level).map (t ++ ·) := by
  rw [← emit_together_together, emit_together_cons]

theorem emit_together_single (c : Code) :
    (together [c]).emit layout level = c.emit layout level := by
  funext j
  rw [emit_together_cons, emit_together, emitAll_nil, Emission.map_pure, Emission.bind]
  cases c.emit layout level j with
  | mk outcome k =>
    cases outcome with
    | error f => rfl
    | ok t => simp [Emission.pure, String.join_nil]

end Code

/-! ## What is asked of a layout -/

/-- Whether two layouts indent one level by the same text and have the same quotation mark. -/
structure Layout.Alike (l l' : Layout) : Prop where
  unit : l.unit = l'.unit
  quote : l.quote = l'.quote

namespace Layout.Alike

variable {l l' : Layout}

theorem margin_eq (h : l.Alike l') (level : Int) : l.margin level = l'.margin level :=
  by rw [margin, margin, h.unit]

theorem quoted_eq (h : l.Alike l') (s : String) : l.quoted s = l'.quoted s :=
  by rw [quoted, quoted, h.quote]

mutual

/-- Code cannot tell such layouts apart, whatever options they come from. -/
theorem emit_eq (h : l.Alike l') : (c : Code) → (level : Int) → c.emit l level = c.emit l' level
  | .text _, _ | .report _ _, _ | .warn _, _ | .stop _, _ => by rw [Code.emit, Code.emit]
  | .margin, level => by rw [Code.emit, Code.emit, h.margin_eq]
  | .quoted s, level => by rw [Code.emit, Code.emit, h.quoted_eq]
  | .deeper c, level => by rw [Code.emit, Code.emit, emit_eq h c]
  | .deferred code, level => by rw [Code.emit, Code.emit, emit_eq h (code ())]
  | .shaped shape parts, level => by rw [Code.emit_shaped, Code.emit_shaped, emitAll_eq h parts]

theorem emitAll_eq (h : l.Alike l') :
    (cs : List Code) → (level : Int) → Code.emitAll l level cs = Code.emitAll l' level cs
  | [], _ => by rw [Code.emitAll, Code.emitAll]
  | c :: cs, level => by rw [Code.emitAll_cons, Code.emitAll_cons, emit_eq h c, emitAll_eq h cs]

end

end Layout.Alike

end Scriptwright.Script
