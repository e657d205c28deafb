import Scriptwright.Proofs.Script.Emission
import Scriptwright.Proofs.Script.Equations
import Scriptwright.Proofs.Script.Literal
import Scriptwright.Proofs.Text.Margin
import Scriptwright.Proofs.Text.Pieces

/-!
# Markup is read back from its lines

A reader goes through the lines of written markup with a stack of the elements that are open. It
knows the indentation of one level and the level at which the text starts, so that it can tell the
blanks of a leaf from the indentation of its line. The main statement is that it finds again every
forest of elements without properties, plain leaves and dynamic ones.
-/

namespace Scriptwright.Script

open Text

/-! ## Trees and their reader -/

/-- Markup as it can be told from its lines. An element without a name is a fragment. -/
inductive Markup where
  | text (s : String)
  | dynamic (e : String)
  | element (tag : String) (children : List Markup)

/-- The letters and numerals of any script, the underscore and the point. -/
def isTagChar (c : Char) : Bool := isWordChar c || c == '.'

/-- What a single line holds. -/
inductive Item where
  | opening (tag : String)
  | whole (m : Markup)

/-- Reads a line from which the indentation has been taken off. -/
def readItem (cs : List Char) : Option Item :=
  match cs with
  | '<' :: rest =>
    let tag := String.ofList (rest.takeWhile isTagChar)
    match rest.dropWhile isTagChar with
    | ['>'] => some (.opening tag)
    | [' ', '/', '>'] => some (.whole (.element tag []))
    | _ => none
  | '{' :: rest =>
    match rest.reverse with
    | '}' :: e => some (.whole (.dynamic (String.ofList e.reverse)))
    | _ => none
  | _ => some (.whole (.text (String.ofList cs)))

/-- Where a reader stands: the nodes read since the innermost open element, and the open elements
from the inside out, each with the nodes in front of it. -/
structure Reading where
  nodes : List Markup
  opened : List (String × List Markup)

namespace Reading

def start : Reading := ⟨[], []⟩

def add (r : Reading) : Item → Reading
  | .opening tag => ⟨[], (tag, r.nodes) :: r.opened⟩
  | .whole m => { r with nodes := r.nodes ++ [m] }

def close (r : Reading) : Option Reading :=
  match r.opened with
  | (tag, before) :: outer => some ⟨before ++ [.element tag r.nodes], outer⟩
  | [] => none

end Reading

def marginOf (unit : List Char) (level : Int) : List Char :=
  (List.replicate level.toNat unit).flatten

def closingLine (tag : String) : List Char := ['<', '/'] ++ tag.toList ++ ['>']

/-- Whether a line closes the innermost open element of a text that starts at `level`. -/
def closes (unit : List Char) (level : Int) (r : Reading) (line : List Char) : Bool :=
  match r.opened with
  | (tag, _) :: outer => line == marginOf unit (level + outer.length) ++ closingLine tag
  | [] => false

def readLine (unit : List Char) (level : Int) (r : Reading) (line : List Char) : Option Reading :=
  if closes unit level r line then r.close
  else
    let margin := marginOf unit (level + r.opened.length)
    if margin.isPrefixOf line then (readItem (line.drop margin.length)).map r.add else none

/-- The forest that a text of whole lines holds. -/
def readForest (unit : String) (level : Int) (text : String) : Option (List Markup) :=
  match (splitAt '\n' text.toList).getLast? with
  | some [] => do
    let r ← (splitAt '\n' text.toList).dropLast.foldlM (readLine unit.toList level) .start
    if r.opened.isEmpty then some r.nodes else none
  | _ => none

/-! ## Texts that are read as nodes -/

/-- A text of whole lines at a level that are read as the given nodes, whatever has been read in
front of them. -/
def ReadsAs (unit : List Char) (level : Int) (text : List Char) (ms : List Markup) : Prop :=
  ∃ lines : List (List Char), text = lines.flatMap (· ++ ['\n']) ∧ (∀ l ∈ lines, '\n' ∉ l) ∧
    ∀ (base : Int) (r : Reading), base + r.opened.length = level →
      lines.foldlM (readLine unit base) r = some { r with nodes := r.nodes ++ ms }

theorem ReadsAs.nil (unit : List Char) (level : Int) : ReadsAs unit level [] [] :=
  ⟨[], rfl, by simp, fun base r _ => by simp⟩

theorem ReadsAs.append {unit : List Char} {level : Int} {t u : List Char} {ms ns : List Markup}
    (ht : ReadsAs unit level t ms) (hu : ReadsAs unit level u ns) :
    ReadsAs unit level (t ++ u) (ms ++ ns) := by
  obtain ⟨ls, rfl, hls, hms⟩ := ht
  obtain ⟨ks, rfl, hks, hns⟩ := hu
  refine ⟨ls ++ ks, by rw [List.flatMap_append], ?_, ?_⟩
  · intro l hl
    exact (List.mem_append.mp hl).elim (hls l) (hks l)
  · intro base r hlevel
    rw [List.foldlM_append, hms base r hlevel]
    simpa using hns base { r with nodes := r.nodes ++ ms } hlevel

theorem splitAt_flatMap_break (lines : List (List Char)) (h : ∀ l ∈ lines, '\n' ∉ l) :
    splitAt '\n' (lines.flatMap (· ++ ['\n'])) = lines ++ [[]] := by
  induction lines with
  | nil => rfl
  | cons l ls ih =>
    rw [List.flatMap_cons, List.append_assoc, List.singleton_append,
      splitAt_append_cons _ _ _ (h l List.mem_cons_self), ih fun k hk =>
        h k (List.mem_cons_of_mem _ hk)]
    rfl

theorem ReadsAs.readForest_eq {unit text : String} {level : Int} {ms : List Markup}
    (h : ReadsAs unit.toList level text.toList ms) : readForest unit level text = some ms := by
  obtain ⟨lines, htext, hlines, hread⟩ := h
  have hrun := hread level .start (by simp [Reading.start])
  rw [readForest, htext, splitAt_flatMap_break lines hlines, List.getLast?_concat,
    List.dropLast_concat]
  simp only [hrun]
  rfl

/-! ## Single lines -/

/-- A unit of indentation from which a closing line can be told. -/
structure Indents (unit : List Char) : Prop where
  noBreak : '\n' ∉ unit
  noBracket : unit.head? ≠ some '<'

theorem not_mem_marginOf {unit : List Char} (h : '\n' ∉ unit) (level : Int) :
    '\n' ∉ marginOf unit level := by
  simp only [marginOf, List.mem_flatten, List.mem_replicate]
  rintro ⟨l, ⟨-, rfl⟩, hl⟩
  exact h hl

theorem marginOf_succ (unit : List Char) (level : Int) :
    marginOf unit (level + 1) = marginOf unit level ∨
      marginOf unit (level + 1) = marginOf unit level ++ unit := by
  by_cases hlevel : 0 ≤ level
  · have hsucc : (level + 1).toNat = level.toNat + 1 := by omega
    exact .inr (by simp [marginOf, hsucc, List.replicate_succ'])
  · have hzero : (level + 1).toNat = level.toNat := by omega
    exact .inl (by rw [marginOf, marginOf, hzero])

/-- A line that is indented for the innermost open element does not close it, unless it reads so
behind its indentation. -/
theorem closes_eq_false {unit cs : List Char} {base level : Int} {r : Reading}
    (hunit : Indents unit) (hlevel : base + r.opened.length = level) (hcs : ¬ ['<', '/'] <+: cs) :
    closes unit base r (marginOf unit level ++ cs) = false := by
  unfold closes
  split
  · next tag before outer hopened =>
    have hsucc : level = (base + outer.length) + 1 := by
      rw [hopened, List.length_cons] at hlevel
      push_cast at hlevel
      omega
    refine beq_eq_false_iff_ne.mpr fun he => ?_
    rcases marginOf_succ unit (base + outer.length) with hsame | hmore
    · rw [hsucc, hsame] at he
      refine hcs ?_
      rw [List.append_cancel_left he]
      exact ⟨tag.toList ++ ['>'], rfl⟩
    · rw [hsucc, hmore, List.append_assoc] at he
      have hrest := List.append_cancel_left he
      cases hu : unit with
      | nil =>
        rw [hu, List.nil_append] at hrest
        exact hcs (hrest ▸ ⟨tag.toList ++ ['>'], rfl⟩)
      | cons u us =>
        rw [hu] at hrest
        have hhead : u = '<' := (List.cons.inj hrest).1
        exact hunit.noBracket (by rw [hu, hhead]; rfl)
  · rfl

theorem readLine_item {unit cs : List Char} {base level : Int} {r : Reading} {i : Item}
    (hunit : Indents unit) (hlevel : base + r.opened.length = level) (hcs : ¬ ['<', '/'] <+: cs)
    (hitem : readItem cs = some i) :
    readLine unit base r (marginOf unit level ++ cs) = some (r.add i) := by
  have hmargin : (marginOf unit level).isPrefixOf (marginOf unit level ++ cs) = true := by simp
  rw [readLine, closes_eq_false hunit hlevel hcs, if_neg Bool.false_ne_true, hlevel]
  simp only [hmargin, if_true, List.drop_left, hitem, Option.map_some]

theorem ReadsAs.line {unit cs : List Char} {level : Int} {m : Markup} (hunit : Indents unit)
    (hbreak : '\n' ∉ cs) (hcs : ¬ ['<', '/'] <+: cs) (hitem : readItem cs = some (.whole m)) :
    ReadsAs unit level (marginOf unit level ++ cs ++ ['\n']) [m] := by
  refine ⟨[marginOf unit level ++ cs], by simp, ?_, ?_⟩
  · intro l hl
    rw [List.mem_singleton.mp hl, List.mem_append]
    exact fun h => h.elim (not_mem_marginOf hunit.noBreak level) hbreak
  · intro base r hlevel
    rw [List.foldlM_cons, readLine_item hunit hlevel hcs hitem]
    rfl

/-! ## Kinds of nodes -/

theorem not_isPrefixOf_of_head? {c : Char} {cs ds : List Char} (h : cs.head? ≠ some c) :
    ¬ (c :: ds) <+: cs := by
  rintro ⟨rest, rfl⟩
  exact h rfl

theorem readItem_text {cs : List Char} (hbracket : cs.head? ≠ some '<')
    (hbrace : cs.head? ≠ some '{') :
    readItem cs = some (.whole (.text (String.ofList cs))) := by
  unfold readItem
  split
  · exact absurd rfl hbracket
  · exact absurd rfl hbrace
  · rfl

theorem readItem_dynamic (e : List Char) :
    readItem ('{' :: (e ++ ['}'])) = some (.whole (.dynamic (String.ofList e))) := by
  simp [readItem]

section Tags

variable {tag : String}

theorem takeWhile_tag (h : tag.toList.all isTagChar = true) {c : Char} (hc : isTagChar c = false)
    (rest : List Char) :
    (tag.toList ++ c :: rest).takeWhile isTagChar = tag.toList := by
  rw [List.takeWhile_append_of_pos (List.all_eq_true.mp h), List.takeWhile_cons,
    if_neg (by simp [hc]), List.append_nil]

theorem dropWhile_tag (h : tag.toList.all isTagChar = true) {c : Char} (hc : isTagChar c = false)
    (rest : List Char) :
    (tag.toList ++ c :: rest).dropWhile isTagChar = c :: rest := by
  rw [List.dropWhile_append_of_pos (List.all_eq_true.mp h), List.dropWhile_cons,
    if_neg (by simp [hc])]

theorem readItem_opening (h : tag.toList.all isTagChar = true) :
    readItem ('<' :: (tag.toList ++ ['>'])) = some (.opening tag) := by
  simp only [readItem, takeWhile_tag h (show isTagChar '>' = false by decide),
    dropWhile_tag h (show isTagChar '>' = false by decide), String.ofList_toList]

theorem readItem_childless (h : tag.toList.all isTagChar = true) :
    readItem ('<' :: (tag.toList ++ [' ', '/', '>'])) = some (.whole (.element tag [])) := by
  simp only [readItem, takeWhile_tag h (show isTagChar ' ' = false by decide),
    dropWhile_tag h (show isTagChar ' ' = false by decide), String.ofList_toList]

theorem not_mem_tag (h : tag.toList.all isTagChar = true) {c : Char} (hc : isTagChar c = false) :
    c ∉ tag.toList := by
  intro hmem
  rw [List.all_eq_true.mp h c hmem] at hc
  cases hc

/-- A line that opens an element is not one that closes an element. -/
theorem not_isPrefixOf_opening (h : tag.toList.all isTagChar = true) {rest : List Char}
    (hrest : rest.head? ≠ some '/') :
    ¬ ['<', '/'] <+: '<' :: (tag.toList ++ rest) := by
  rw [List.cons_prefix_cons]
  rintro ⟨-, hslash⟩
  refine not_isPrefixOf_of_head? ?_ hslash
  cases htag : tag.toList with
  | nil => exact hrest
  | cons c cs =>
    intro hc
    obtain rfl : c = '/' := Option.some.inj hc
    exact not_mem_tag h (show isTagChar '/' = false by decide)
      (by rw [htag]; exact List.mem_cons_self)

/-- What stands between the opening and the closing line of an element becomes its children. -/
theorem ReadsAs.element {unit t : List Char} {level : Int} {ms : List Markup} (hunit : Indents unit)
    (htag : tag.toList.all isTagChar = true) (h : ReadsAs unit (level + 1) t ms) :
    ReadsAs unit level
      (marginOf unit level ++ '<' :: (tag.toList ++ ['>']) ++ ['\n'] ++ t ++
        (marginOf unit level ++ closingLine tag ++ ['\n'])) [.element tag ms] := by
  obtain ⟨lines, rfl, hlines, hread⟩ := h
  have hmargin := not_mem_marginOf hunit.noBreak level
  have htagBreak := not_mem_tag htag (show isTagChar '\n' = false by decide)
  refine ⟨(marginOf unit level ++ '<' :: (tag.toList ++ ['>'])) ::
    (lines ++ [marginOf unit level ++ closingLine tag]), by simp, ?_, ?_⟩
  · intro l hl
    rcases List.mem_cons.mp hl with rfl | hl
    · simp [hmargin, htagBreak]
    · rcases List.mem_append.mp hl with hl | hl
      · exact hlines l hl
      · rw [List.mem_singleton.mp hl]
        simp [hmargin, htagBreak, closingLine]
  · intro base r hlevel
    have hinner : base + ((tag, r.nodes) :: r.opened).length = level + 1 := by
      rw [List.length_cons]
      push_cast
      omega
    have hclose : closes unit base ⟨ms, (tag, r.nodes) :: r.opened⟩
        (marginOf unit level ++ closingLine tag) = true := by
      simp only [closes, hlevel, BEq.rfl]
    rw [List.foldlM_cons, readLine_item hunit hlevel (not_isPrefixOf_opening htag (by simp))
      (readItem_opening htag)]
    simp only [Option.bind_eq_bind, Option.bind_some, Reading.add]
    rw [List.foldlM_append, hread base ⟨[], (tag, r.nodes) :: r.opened⟩ hinner]
    simp only [Option.bind_eq_bind, Option.bind_some, List.nil_append, List.foldlM_cons,
      List.foldlM_nil, readLine, hclose, if_true, Reading.close]
    rfl

end Tags

/-! ## Written markup -/

mutual

/-- The markup that a node stands for: a plain leaf, a dynamic one, or an element without
properties. -/
inductive Depicts : Value → Markup → Prop where
  | text {s : String} : '\n' ∉ s.toList → dynamicExpression? s = none → s.toList.head? ≠ some '<' →
      s.toList.head? ≠ some '{' → Depicts (.string s) (.text s)
  | dynamic {s e : String} : '\n' ∉ s.toList → dynamicExpression? s = some e →
      Depicts (.string s) (.dynamic e)
  | element {node : Fields} {tag : String} {children : List Value} {ms : List Markup} :
      Fields.get node "type" = .string tag → tag.toList.all isTagChar = true →
      (Fields.get node "props").truthy = false →
        (Fields.get node "children").elementsOrNone = .ok children →
      DepictsAll children ms → Depicts (.map node) (.element tag ms)

inductive DepictsAll : List Value → List Markup → Prop where
  | nil : DepictsAll [] []
  | cons {v : Value} {vs : List Value} {m : Markup} {ms : List Markup} : Depicts v m →
      DepictsAll vs ms →
      DepictsAll (v :: vs) (m :: ms)

end

theorem DepictsAll.eq_nil {vs : List Value} {ms : List Markup} (h : DepictsAll vs ms)
    (hvs : vs = []) : ms = [] := by
  subst hvs
  cases h with
  | nil => rfl

/-- The forest that sibling nodes stand for; absent nodes are an empty one. -/
def DepictsForest (nodes : Value) (ms : List Markup) : Prop :=
  ∃ vs, nodes.elementsOrNone = .ok vs ∧ DepictsAll vs ms

/-- Code that only gives a text, which is read as the given nodes. -/
def Code.WritesMarkup (layout : Layout) (level : Int) (c : Code) (ms : List Markup) : Prop :=
  ∃ t, c.emit layout level = .pure t ∧ ReadsAs layout.unit.toList level t.toList ms

theorem toList_margin (layout : Layout) (level : Int) :
    (layout.margin level).toList = marginOf layout.unit.toList level := by
  rw [Layout.margin, marginOf, String.toList_join, List.flatMap_def, List.map_replicate]

section Written

variable {layout : Layout} {level : Int}

theorem emit_line_text (t : String) :
    (Code.line [.text t]).emit layout level = .pure (layout.margin level ++ t ++ "\n") := by
  simp [Code.line, Code.emitAll_cons, String.append_assoc]

theorem emit_line_tag {props : Value} (h : props.truthy = false) (opening closing : String) :
    (Code.line [.text opening, propsCode props, .text closing]).emit layout level =
      .pure (layout.margin level ++ (opening ++ closing) ++ "\n") := by
  have hprops : propsCode props = .text "" := by
    rw [propsCode, h]
    rfl
  simp [Code.line, Code.emitAll_cons, hprops, String.append_assoc]

theorem writesMarkup_line (hunit : Indents layout.unit.toList) {c : Code} {t : String} {m : Markup}
    (hemit : c.emit layout level = .pure (layout.margin level ++ t ++ "\n"))
    (hbreak : '\n' ∉ t.toList) (hclosing : ¬ ['<', '/'] <+: t.toList)
    (hitem : readItem t.toList = some (.whole m)) :
    c.WritesMarkup layout level [m] := by
  refine ⟨_, hemit, ?_⟩
  rw [String.toList_append, String.toList_append, toList_margin]
  exact ReadsAs.line hunit hbreak hclosing hitem

theorem markupCode_string (s : String) : markupCode (.string s) = .line [.text (leafText s)] := by
  rw [markupCode]
  rfl

theorem writesMarkup_text (hunit : Indents layout.unit.toList) {s : String}
    (hbreak : '\n' ∉ s.toList) (hplain : dynamicExpression? s = none)
    (hbracket : s.toList.head? ≠ some '<') (hbrace : s.toList.head? ≠ some '{') :
    (markupCode (.string s)).WritesMarkup layout level [.text s] := by
  have hitem := readItem_text hbracket hbrace
  rw [String.ofList_toList] at hitem
  rw [markupCode_string, leafText, hplain]
  exact writesMarkup_line hunit (emit_line_text s) hbreak (not_isPrefixOf_of_head? hbracket) hitem

theorem writesMarkup_dynamic (hunit : Indents layout.unit.toList) {s e : String}
    (hbreak : '\n' ∉ s.toList) (hdynamic : dynamicExpression? s = some e) :
    (markupCode (.string s)).WritesMarkup layout level [.dynamic e] := by
  have hchars : ("\x7b" ++ e ++ "\x7d").toList = '{' :: (e.toList ++ ['}']) := by simp
  have hitem := readItem_dynamic e.toList
  rw [String.ofList_toList] at hitem
  rw [markupCode_string, leafText, hdynamic]
  refine writesMarkup_line hunit (emit_line_text _) ?_ ?_ ?_
  · have he : '\n' ∉ e.toList := fun h => hbreak (mem_of_dynamicExpression hdynamic _ h)
    simp [hchars, he]
  · rw [hchars]
    exact not_isPrefixOf_of_head? (by simp)
  · rw [hchars]
    exact hitem

theorem writesMarkup_element (hunit : Indents layout.unit.toList) {tag : String}
    (htag : tag.toList.all isTagChar = true) {opening inner closing : Code} {ms : List Markup}
    (hopening : opening.emit layout level =
      .pure (layout.margin level ++ ("<" ++ tag ++ ">") ++ "\n"))
    (hinner : inner.WritesMarkup layout (level + 1) ms)
    (hclosing : closing.emit layout level =
      .pure (layout.margin level ++ ("</" ++ tag ++ ">") ++ "\n")) :
    (Code.together [opening, .deeper inner, closing]).WritesMarkup layout level
      [.element tag ms] := by
  obtain ⟨t, ht, hread⟩ := hinner
  refine ⟨layout.margin level ++ ("<" ++ tag ++ ">") ++ "\n" ++ t ++
    (layout.margin level ++ ("</" ++ tag ++ ">") ++ "\n"), ?_, ?_⟩
  · simp [Code.emitAll_cons, hopening, ht, hclosing, String.append_assoc]
  · have hwhole := ReadsAs.element hunit htag hread
    simpa [toList_margin, closingLine] using hwhole

/-- The children of an element that has some are written between its opening and its closing line,
and an element that has none is a line of its own. -/
theorem writesMarkup_elementCode (hunit : Indents layout.unit.toList) {node : Fields} {tag : String}
    {vs : List Value} {ms : List Markup} (htype : Fields.get node "type" = .string tag)
    (htag : tag.toList.all isTagChar = true) (hprops : (Fields.get node "props").truthy = false)
    (hchildren : (Fields.get node "children").elementsOrNone = .ok vs) (hnone : vs = [] → ms = [])
    (h : (Code.together (vs.map markupCode)).WritesMarkup layout (level + 1) ms) :
    (elementCode node).WritesMarkup layout level [.element tag ms] := by
  rw [elementCode, htype]
  dsimp only
  split_ifs with htruthy
  · rw [hchildren]
    exact writesMarkup_element hunit htag (emit_line_tag hprops _ _) h (emit_line_text _)
  · obtain rfl : vs = [] := by
      rw [Value.elementsOrNone, if_neg htruthy] at hchildren
      exact (Except.ok.inj hchildren).symm
    obtain rfl := hnone rfl
    have hchars : ("<" ++ tag ++ " />").toList = '<' :: (tag.toList ++ [' ', '/', '>']) := by simp
    have htagBreak := not_mem_tag htag (show isTagChar '\n' = false by decide)
    refine writesMarkup_line hunit (emit_line_tag hprops _ _) ?_ ?_ ?_
    · simp [hchars, htagBreak]
    · rw [hchars]
      exact not_isPrefixOf_opening htag (by simp)
    · rw [hchars]
      exact readItem_childless htag

end Written

mutual

theorem Depicts.writesMarkup {layout : Layout} (hunit : Indents layout.unit.toList) :
    {v : Value} → {m : Markup} → Depicts v m → (level : Int) →
      (markupCode v).WritesMarkup layout level [m]
  | _, _, .text hbreak hplain hbracket hbrace, _ =>
      writesMarkup_text hunit hbreak hplain hbracket hbrace
  | _, _, .dynamic hbreak hdynamic, _ => writesMarkup_dynamic hunit hbreak hdynamic
  | _, _, .element htype htag hprops hchildren hall, level => by
    have hnone : _ = [] → _ = [] := hall.eq_nil
    obtain ⟨t, ht, hread⟩ :=
      writesMarkup_elementCode hunit htype htag hprops hchildren hnone
        (hall.writesMarkup hunit (level + 1))
    refine ⟨t, ?_, hread⟩
    rw [markupCode_of_head rfl rfl, Code.emit_deferred]
    exact ht

theorem DepictsAll.writesMarkup {layout : Layout} (hunit : Indents layout.unit.toList) :
    {vs : List Value} → {ms : List Markup} → DepictsAll vs ms → (level : Int) →
      (Code.together (vs.map markupCode)).WritesMarkup layout level ms
  | _, _, .nil, level => ⟨"", by simp, .nil _ _⟩
  | _, _, .cons hv hvs, level => by
    obtain ⟨t, ht, hread⟩ := hv.writesMarkup hunit level
    obtain ⟨u, hu, hreads⟩ := hvs.writesMarkup hunit level
    refine ⟨t ++ u, ?_, ?_⟩
    · rw [List.map_cons, Code.emit_together_cons, ht, hu]
      rfl
    · rw [String.toList_append]
      exact hread.append hreads

end

theorem Options.indents (o : Options) : Indents o.layout.unit.toList := by
  have hunit := o.eq_of_mem_indentUnit
  refine ⟨fun h => ?_, fun h => ?_⟩
  · rcases hunit _ h with h | h <;> cases h
  · rcases hunit _ (List.mem_of_mem_head? h) with h | h <;> cases h

/-- Siblings are written as a forest, and as a fragment around it. -/
theorem DepictsForest.writesMarkup {nodes : Value} {ms : List Markup} (h : DepictsForest nodes ms)
    {layout : Layout} (hunit : Indents layout.unit.toList) (level : Int) :
    (forestCode nodes).WritesMarkup layout level ms ∧
      (fragmentCode nodes).WritesMarkup layout level [.element "" ms] := by
  obtain ⟨vs, hvs, hall⟩ := h
  have hforest : forestCode nodes = .together (vs.map markupCode) := by
    rw [forestCode, hvs]
    rfl
  rw [fragmentCode, hforest]
  refine ⟨hall.writesMarkup hunit level, ?_⟩
  exact writesMarkup_element hunit (by simp) (emit_line_text "<>")
    (hall.writesMarkup hunit (level + 1))
    (emit_line_text "</>")

/-- Markup without properties is written without a fault or a note, and it is read back from its
lines at every level and with every indentation. In a fragment it is read as the children of an
element without a name. -/
theorem readForest_emit (o : Options) (level : Int) {nodes : Value} {ms : List Markup}
    (h : DepictsForest nodes ms) (j : Journal) :
    (∃ text, (forestCode nodes).emit o.layout level j = (.ok text, j) ∧
      readForest o.indentUnit level text = some ms) ∧
    ∃ text, (fragmentCode nodes).emit o.layout level j = (.ok text, j) ∧
      readForest o.indentUnit level text = some [.element "" ms] := by
  obtain ⟨⟨t, ht, hforest⟩, u, hu, hfragment⟩ := h.writesMarkup o.indents level
  refine ⟨⟨t, ?_, hforest.readForest_eq⟩, u, ?_, hfragment.readForest_eq⟩
  · rw [ht]
    rfl
  · rw [hu]
    rfl

/-- Elements of one name inside each other, an empty leaf, and a leaf that looks like the end of the
element around it. -/
def listNodes : Value :=
  .list [.record [("type", .string "ul"),
    ("children", .list [.record [("type", .string "ul")], .string "", .string " </ul>",
      .string "\x7b\x7bitems\x7d\x7d"])]]

def listMarkup : List Markup :=
  [.element "ul" [.element "ul" [], .text "", .text " </ul>", .dynamic "items"]]

theorem depictsForest_listNodes : DepictsForest listNodes listMarkup :=
  ⟨_, rfl, .cons
    (.element rfl (by decide) rfl rfl
      (.cons (.element rfl (by decide) rfl rfl .nil)
        (.cons (.text (by decide) (by decide) (by decide) (by decide))
          (.cons (.text (by decide) (by decide) (by decide) (by decide))
            (.cons (.dynamic (by decide) (by decide)) .nil)))))
    .nil⟩

theorem readForest_emit_list :
    DepictsForest listNodes listMarkup ∧
      ∃ text, (forestCode listNodes).emit (Options.layout ⟨1, "spaces", "'", false⟩) 1
        (Journal.empty none) =
          (.ok text, Journal.empty none) ∧
        readForest " " 1 text = some listMarkup :=
  ⟨depictsForest_listNodes,
    (readForest_emit ⟨1, "spaces", "'", false⟩ 1 depictsForest_listNodes (Journal.empty none)).1⟩

end Scriptwright.Script
