import Scriptwright.Proofs.Document.Written
import Scriptwright.Proofs.Text.Pieces

/-!
# Lists of names to import

A module that is imported by names gives them in one text: parts between commas, each a name or a
name and the local name it is bound to. There are many ways to write one list of bindings. Whichever
is chosen, the import that is written binds just these names, in their order.
-/

namespace Scriptwright

namespace Document

open Script Text

/-! ## Bindings and their spellings -/

/-- A name that can stand in a list: it is not empty and has neither commas nor blanks. -/
structure ListedName where
  chars : List Char
  nonempty : chars ≠ []
  plain : ∀ c ∈ chars, c ≠ ',' ∧ isBlank c = false

def ListedName.text (n : ListedName) : String := String.ofList n.chars

/-- A name of a module and the name that it has in the document. -/
structure Binding where
  imported : ListedName
  own : ListedName

def Binding.text (b : Binding) : String :=
  if b.imported.text = b.own.text then b.own.text else b.imported.text ++ " as " ++ b.own.text

def blanks (n : Nat) : List Char := List.replicate n ' '

/-- The ways to write a binding: one name for both, or both names with the word `as` between them.
-/
inductive Spells : Binding → List Char → Prop where
  | single (n : ListedName) : Spells ⟨n, n⟩ n.chars
  | aliased (b : Binding) (before after : Nat) :
    Spells b (b.imported.chars ++
      (blanks (before + 1) ++ "as".toList ++ blanks (after + 1) ++ b.own.chars))

/-- The parts of a list that give bindings. Blanks can stand around a part, and parts of blanks
count for nothing. -/
inductive SpellsAll : List Binding → List (List Char) → Prop where
  | nil : SpellsAll [] []
  | blank {bs : List Binding} {part : List Char} {parts : List (List Char)}
      (hpart : ∀ c ∈ part, isBlank c = true)
    (h : SpellsAll bs parts) : SpellsAll bs (part :: parts)
  | binding {b : Binding} {bs : List Binding} {l cs r : List Char} {parts : List (List Char)}
    (hl : ∀ c ∈ l, isBlank c = true) (hr : ∀ c ∈ r, isBlank c = true) (hcs : Spells b cs)
    (h : SpellsAll bs parts) : SpellsAll (b :: bs) ((l ++ cs ++ r) :: parts)

/-! ## Reading one part -/

theorem isBlank_of_mem_blanks {n : Nat} {c : Char} (h : c ∈ blanks n) : isBlank c = true := by
  rw [List.eq_of_mem_replicate h]
  decide

namespace ListedName

variable (n : ListedName)

theorem blank_not_mem : ' ' ∉ n.chars := fun h => absurd (n.plain ' ' h).2 (by decide)

theorem isBlank_head : ∀ c ∈ n.chars.head?, isBlank c = false :=
  fun c hc => (n.plain c (List.mem_of_mem_head? hc)).2

theorem isBlank_last : ∀ c ∈ n.chars.getLast?, isBlank c = false :=
  fun c hc => (n.plain c (List.mem_of_mem_getLast? hc)).2

theorem trim_chars {l r : List Char} (hl : ∀ c ∈ l, isBlank c = true)
    (hr : ∀ c ∈ r, isBlank c = true) :
    trim (l ++ n.chars ++ r) = n.chars :=
  trim_padded hl hr n.isBlank_head n.isBlank_last

end ListedName

/-- A mark that begins with a blank is not found before the first blank. -/
theorem cutAt?_append {m a : List Char} (cs : List Char) (ha : ' ' ∉ a) :
    cutAt? (' ' :: m) (a ++ cs) = (cutAt? (' ' :: m) cs).map fun p => (a ++ p.1, p.2) := by
  induction a with
  | nil => simp
  | cons c a ih =>
    have hc : ' ' ≠ c := fun he => ha (he ▸ List.mem_cons_self)
    have hno : (' ' :: m).isPrefixOf (c :: (a ++ cs)) = false := by
      rw [List.isPrefixOf, beq_eq_false_iff_ne.mpr hc, Bool.false_and]
    rw [List.cons_append, cutAt?, hno, if_neg Bool.false_ne_true, ih fun h =>
      ha (List.mem_cons_of_mem _ h), Option.map_map]
    rfl

theorem cutAt?_of_not_mem {m a : List Char} (ha : ' ' ∉ a) : cutAt? (' ' :: m) a = none := by
  have hcut := cutAt?_append (m := m) [] ha
  rw [List.append_nil] at hcut
  rw [hcut]
  rfl

/-- Of several blanks before the word, the last one belongs to the mark. -/
theorem cutAt?_blanks (n : Nat) (cs : List Char) :
    cutAt? " as ".toList (blanks (n + 1) ++ 'a' :: 's' :: ' ' :: cs) = some (blanks n, cs) := by
  induction n with
  | zero => rfl
  | succ n ih =>
    have hno : " as ".toList.isPrefixOf (' ' :: (blanks (n + 1) ++ 'a' :: 's' :: ' ' :: cs)) =
        false := rfl
    change cutAt? " as ".toList (' ' :: (blanks (n + 1) ++ 'a' :: 's' :: ' ' :: cs)) = _
    rw [cutAt?, hno, if_neg Bool.false_ne_true, ih]
    rfl

def Binding.node (b : Binding) : Value :=
  Document.node "importSpecifier"
    [("imported", identifierNode (.string b.imported.text)),
      ("local", identifierNode (.string b.own.text))]

/-- Each way to write a binding is read as this binding. -/
theorem aliasNode_of_spells {b : Binding} {cs : List Char} (h : Spells b cs) :
    aliasNode cs = b.node := by
  cases h with
  | single n =>
    have hcut : cutAt? " as ".toList n.chars = none := cutAt?_of_not_mem n.blank_not_mem
    have htrim : trim n.chars = n.chars := by
      simpa using n.trim_chars (l := []) (r := []) (by simp) (by simp)
    simp only [aliasNode, hcut, htrim, List.isEmpty_nil, if_true]
    rfl
  | aliased _ before after =>
    have hcut : cutAt? " as ".toList (b.imported.chars ++
        (blanks (before + 1) ++ "as".toList ++ blanks (after + 1) ++ b.own.chars)) =
        some (b.imported.chars ++ blanks before, blanks after ++ b.own.chars) := by
      have hafter : blanks (before + 1) ++ "as".toList ++ blanks (after + 1) ++ b.own.chars =
          blanks (before + 1) ++ 'a' :: 's' :: ' ' :: (blanks after ++ b.own.chars) := by
        simp [blanks, List.replicate_succ]
      rw [hafter]
      change cutAt? (' ' :: _) _ = _
      rw [cutAt?_append _ b.imported.blank_not_mem]
      change (cutAt? " as ".toList _).map _ = _
      rw [cutAt?_blanks]
      rfl
    have himported : trim (b.imported.chars ++ blanks before) = b.imported.chars := by
      simpa using b.imported.trim_chars (l := []) (by simp) fun c => isBlank_of_mem_blanks
    have hown : trim (blanks after ++ b.own.chars) = b.own.chars := by
      simpa using b.own.trim_chars (r := []) (fun c => isBlank_of_mem_blanks) (by simp)
    have hgiven : b.own.chars.isEmpty = false := List.isEmpty_eq_false_iff.mpr b.own.nonempty
    simp only [aliasNode, hcut, himported, hown, hgiven, Bool.false_eq_true, if_false]
    rfl

/-! ## Reading the list -/

namespace Spells

variable {b : Binding} {cs : List Char} (h : Spells b cs)
include h

theorem ne_nil : cs ≠ [] := by
  cases h with
  | single n => exact n.nonempty
  | aliased _ _ _ => exact List.append_ne_nil_of_left_ne_nil b.imported.nonempty _

theorem isBlank_head : ∀ c ∈ cs.head?, isBlank c = false := by
  cases h with
  | single n => exact n.isBlank_head
  | aliased _ _ _ =>
    rw [List.head?_append_of_ne_nil _ b.imported.nonempty]
    exact b.imported.isBlank_head

theorem isBlank_last : ∀ c ∈ cs.getLast?, isBlank c = false := by
  cases h with
  | single n => exact n.isBlank_last
  | aliased _ _ _ =>
    rw [← List.append_assoc, List.getLast?_append_of_ne_nil _ b.own.nonempty]
    exact b.own.isBlank_last

theorem comma_not_mem : ',' ∉ cs := by
  have hname : ∀ n : ListedName, ',' ∉ n.chars := fun n hn => (n.plain ',' hn).1 rfl
  have hblanks : ∀ n, ',' ∉ blanks n := fun n hn => absurd (isBlank_of_mem_blanks hn) (by decide)
  cases h with
  | single n => exact hname n
  | aliased _ before after => simp [hname, hblanks]

end Spells

/-- The bindings of a list are read from its parts. The induction is on the parts: a part of blanks
is left out, and any other is read after the blanks around it are gone. -/
theorem map_aliasNode_of_spellsAll {bs : List Binding} {parts : List (List Char)}
    (h : SpellsAll bs parts) :
    ((parts.map trim).filter fun p => !p.isEmpty).map aliasNode = bs.map Binding.node := by
  induction h with
  | nil => rfl
  | @blank bs part parts hpart _ ih =>
    have htrim : trim (part ++ [] ++ []) = [] := trim_padded hpart (by simp) (by simp) (by simp)
    rw [List.append_nil, List.append_nil] at htrim
    rw [List.map_cons, htrim]
    exact ih
  | @binding b bs l cs r parts hl hr hcs _ ih =>
    have htrim : trim (l ++ cs ++ r) = cs := trim_padded hl hr hcs.isBlank_head hcs.isBlank_last
    have hink : (!cs.isEmpty) = true := by
      rw [List.isEmpty_eq_false_iff.mpr hcs.ne_nil]
      rfl
    rw [List.map_cons, htrim, List.filter_cons, if_pos hink, List.map_cons, ih,
      aliasNode_of_spells hcs]
    rfl

theorem SpellsAll.comma_not_mem {bs : List Binding} {parts : List (List Char)}
    (h : SpellsAll bs parts) :
    ∀ p ∈ parts, ',' ∉ p := by
  have hblank : ∀ cs : List Char, (∀ c ∈ cs, isBlank c = true) → ',' ∉ cs :=
    fun cs hcs hc => absurd (hcs ',' hc) (by decide)
  induction h with
  | nil => exact List.forall_mem_nil _
  | blank hpart _ ih => exact List.forall_mem_cons.mpr ⟨hblank _ hpart, ih⟩
  | binding hl hr hcs _ ih =>
    refine List.forall_mem_cons.mpr ⟨?_, ih⟩
    simp [hblank _ hl, hblank _ hr, hcs.comma_not_mem]

theorem aliasNodes_of_spellsAll {bs : List Binding} {parts : List (List Char)} {names : String}
    (h : SpellsAll bs parts) (hnames : names.toList = joinWith [','] parts) :
    aliasNodes (.string names) = .ok (bs.map Binding.node) := by
  have hread := map_aliasNode_of_spellsAll h
  rw [aliasNodes, aliasParts, hnames]
  by_cases hparts : parts = []
  · subst hparts
    cases h
    rfl
  · rw [splitAt_joinWith ',' parts hparts h.comma_not_mem, hread]

/-! ## Writing the import -/

section Emission

variable {layout : Layout} {level : Int}

theorem emit_bindingNode (b : Binding) :
    (nodeCode true .expression b.node).emit layout level = .pure b.text := by
  rw [Binding.node, emit_node rfl]
  change (Code.together [.together
    [.shaped (.alias true) [.text b.own.text, .text b.imported.text]]]).emit layout
    level = _
  simp [Code.emitAll_cons, Code.emit_shaped, Shape.apply, aliasText, Binding.text]

def clauseOf (names : List String) : String :=
  if names = [] then "" else "\x7b " ++ ", ".intercalate names ++ " \x7d from "

theorem clausesText_names (names : List String) :
    clausesText (names.map fun _ => false) names = clauseOf names := by
  unfold clausesText clauseOf
  rw [flagged_map_const, flagged_map_const, if_pos rfl, if_neg Bool.false_ne_true]
  by_cases hnames : names = []
  · subst hnames
    rfl
  · simp [hnames, String.append_assoc]

/-- The import that binds the names of a list. -/
theorem emit_importNode_bindings (bs : List Binding) (path : String) :
    (nodeCode true .statement (importNode (bs.map Binding.node) (.string path))).emit layout level =
      .pure (layout.margin level ++ "import " ++ clauseOf (bs.map Binding.text) ++
        layout.quoted path ++ ";\n") := by
  have hall : Code.emitAll layout level ((bs.map Binding.node).map (nodeCode true .expression)) =
      .pure (bs.map Binding.text) := by
    rw [List.map_map]
    exact Code.emitAll_map fun b _ => emit_bindingNode b
  have hinside : (bs.map Binding.node).map Visitor.isClause = (bs.map Binding.text).map fun _ =>
      false := by
    rw [List.map_map, List.map_map]
    rfl
  rw [emit_importNode path hall, hinside, clausesText_names]

theorem emit_code_module {module n : Value} {t : String}
    (hmodule : moduleImport module = .ok (.inl n))
    (hemit : (nodeCode true .statement n).emit layout level = .pure t) (ht : t ≠ "") :
    (code (.record [("modules", .list [module])])).emit layout level = .pure t := by
  have hfields : (Value.record [("modules", .list [module])]).fields =
      .ok (Fields.ofTexts [("modules", .list [module])]) :=
    rfl
  have himports : (Section.imports.code (Fields.ofTexts [("modules", .list [module])])).emit layout
      level = .pure t := by
    have hnote : moduleNote module = .nothing := by rw [moduleNote, hmodule]
    have hnode : moduleNode? module = some n := by rw [moduleNode?, hmodule]
    change (Code.together [.together [moduleNote module],
      sectionCode (.ok ([module].filterMap moduleNode? ++ []))]).emit
      layout level = _
    rw [hnote, List.append_nil, List.filterMap_cons_some hnode]
    change (Code.together [.together [.text ""], .together [nodeCode true .statement n]]).emit
      layout level = _
    simp [Code.emitAll_cons, hemit]
  have hother : ∀ s, s ≠ Section.imports →
      (s.code (Fields.ofTexts [("modules", .list [module])])).emit layout level = .pure "" := by
    intro s hs
    cases s with
    | imports => exact absurd rfl hs
    | _ => rfl
  rw [code_of_fields hfields, Code.emit_shaped]
  simp [Section.all, Code.emitAll_cons, himports, hother, Shape.apply, ht]

end Emission

/-- A module that is imported by names is written as one statement that binds the names of its list
in their order, or that binds nothing if there are none. It is all that is written of a document
that has only this module. -/
theorem emit_named_import (layout : Layout) (level : Int) (module : Value) (es : Fields)
    (names path : String) (bs : List Binding) (parts : List (List Char))
    (hmodule : module.head = .map es) (hkind : Fields.get es "type" = .string "named")
    (hnames : Fields.getD es "alias" (.string "") = .string names)
    (hpath : Fields.getD es "path" (.string "") = .string path) (hparts : SpellsAll bs parts)
    (hspelled : names.toList = joinWith [','] parts) :
    ∃ n, moduleImport module = .ok (.inl n) ∧
      (nodeCode true .statement n).emit layout level = .pure (layout.margin level ++ "import " ++
        clauseOf (bs.map Binding.text) ++ layout.quoted path ++ ";\n") ∧
      (code (.record [("modules", .list [module])])).emit layout level =
        .pure (layout.margin level ++ "import " ++
        clauseOf (bs.map Binding.text) ++ layout.quoted path ++ ";\n") := by
  have himport : moduleImport module =
      .ok (.inl (importNode (bs.map Binding.node) (.string path))) := by
    have hread := aliasNodes_of_spellsAll hparts hspelled
    simp only [moduleImport, hmodule, hkind, hnames, hpath, hread]
    rfl
  have hemit : (nodeCode true .statement _).emit layout level = _ :=
    emit_importNode_bindings bs path
  exact ⟨_, himport, hemit, emit_code_module himport hemit (by simp)⟩

theorem plain_of_all {cs : List Char} (h : cs.all (fun c => c != ',' && !isBlank c) = true) :
    ∀ c ∈ cs, c ≠ ',' ∧ isBlank c = false := by
  intro c hc
  have hplain := List.all_eq_true.mp h c hc
  simpa using hplain

/-- A name alone, a part without a name, the word itself as a name, and a name that is bound to
itself. -/
theorem emit_named_import_padded :
    let module :=
  Value.record [("type", .string "named"), ("alias", .string " a ,,as   as  c,b as b\t"),
      ("path", .string "./x")]
    let a : ListedName := ⟨['a'], by simp, plain_of_all rfl⟩
    let b : ListedName := ⟨['b'], by simp, plain_of_all rfl⟩
    let c : ListedName := ⟨['c'], by simp, plain_of_all rfl⟩
    let word : ListedName := ⟨['a', 's'], by simp, plain_of_all rfl⟩
    let bs : List Binding := [⟨a, a⟩, ⟨word, c⟩, ⟨b, b⟩]
    SpellsAll bs [" a ".toList, [], "as   as  c".toList, "b as b\t".toList] ∧
      ∃ n, moduleImport module = .ok (.inl n) ∧
        (nodeCode true .statement n).emit ⟨{}⟩ 0 =
          .pure "import \x7b a, as as c, b \x7d from './x';\n" ∧
        (code (.record [("modules", .list [module])])).emit ⟨{}⟩ 0 =
          .pure "import \x7b a, as as c, b \x7d from './x';\n" := by
  intro module a b c word bs
  have hparts : SpellsAll bs [" a ".toList, [], "as   as  c".toList, "b as b\t".toList] :=
    .binding (l := [' ']) (r := [' ']) (List.all_eq_true.mp rfl) (List.all_eq_true.mp rfl)
      (.single a) <|
      .blank (by simp) <|
      .binding (l := []) (r := []) (by simp) (by simp) (.aliased ⟨word, c⟩ 2 1) <|
      .binding (l := []) (r := ['\t']) (by simp) (List.all_eq_true.mp rfl)
        (.aliased ⟨b, b⟩ 0 0) .nil
  exact ⟨hparts, emit_named_import _ 0 module _ _ "./x" bs _ rfl rfl rfl rfl hparts (by decide)⟩

end Document

end Scriptwright
