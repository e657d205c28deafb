import Scriptwright.Proofs.Script.Emission
import Scriptwright.Proofs.Script.Spelling
import Scriptwright.Proofs.Script.Vouched

/-!
# Loosely shaped nodes

Emission does not need a node to be complete. Fields may be missing, null or of a wrong type: a tree
is written as long as tags can be looked up, what is gone through is a list, what is asked for
fields is a mapping, and integers are spelled out. `loose` says this of a tree without regard to
what emission will use. `Piece.tolerant` checks a rule against it, and the check of the two tables
is a computation.
-/

namespace Scriptwright

namespace Value

def isListOrNull : Value → Bool
  | .null | .list _ => true
  | _ => false

def isRecordOrNull : Value → Bool
  | .null | .map _ => true
  | _ => false

end Value

namespace Script

/-! ## Loose shapes -/

def sequenceFields : List String := [
  "arguments", "elements", "expressions", "params", "specifiers", "properties", "quasis",
    "decorators", "declarations",
  "children", "attributes", "cases"]

def ownSequences : String → List String
  | "ifStatement" => ["consequent", "alternate"]
  | "blockStatement" => ["body"]
  | _ => []

def caseSequences : List String := ["consequent", "alternate"]

def recordFields : List String := ["openingElement", "handler"]

def keyFields : List String := ["type", "kind"]

def switchKind : String := "switchStatement"

def areLists (fs : List String) (es : Fields) : Bool :=
  fs.all fun f => (Fields.get es f).isListOrNull

def isCase : Value → Bool
  | .map es => areLists caseSequences es
  | _ => false

def areCases : Value → Bool
  | .list items => items.all isCase
  | _ => true

/-- Whether the fields of a node have the shapes that only nodes of its kind need. -/
def fitsKind (es : Fields) : Bool :=
  match Fields.get es "type" with
  | .string t => areLists (ownSequences t) es &&
      (t != switchKind || areCases (Fields.get es "cases"))
  | _ => true

/-- Whether a value is of a kind that trees are made of and, if it is a mapping, has texts for keys
and fields that can be used as they are. Integers must not have too many digits. -/
def hasLooseShape : Value → Bool
  | .null | .bool _ | .float _ | .string _ | .list _ => true
  | .int n => (Value.int n).writable
  | .map es =>
    es.all (fun e => e.1.asText?.isSome) && keyFields.all (fun f => (Fields.get es f).hashable) &&
      areLists sequenceFields es && recordFields.all (fun f => (Fields.get es f).isRecordOrNull) &&
        fitsKind es
  | _ => false

/-- Whether a value is a tree with loose shapes everywhere. -/
def loose (v : Value) : Bool := v.everywhere hasLooseShape

/-- What is known of the fields of a mapping in a loosely shaped tree. -/
structure LooseFields (es : Fields) : Prop where
  texts : ∀ e ∈ es, ∃ s, e.1 = .string s
  keys : ∀ f ∈ keyFields, (Fields.get es f).hashable = true
  lists : ∀ f ∈ sequenceFields, (Fields.get es f).isListOrNull = true
  records : ∀ f ∈ recordFields, (Fields.get es f).isRecordOrNull = true
  kind : fitsKind es = true

section Loose

variable {v w : Value} {es : Fields}

theorem looseFields (h : loose (.map es) = true) : LooseFields es := by
  have hshape : hasLooseShape (.map es) = true := Value.of_everywhere h
  simp only [hasLooseShape, areLists, Bool.and_eq_true, List.all_eq_true] at hshape
  obtain ⟨⟨⟨⟨htexts, hkeys⟩, hlists⟩, hrecords⟩, hkind⟩ := hshape
  refine ⟨fun e he => ?_, hkeys, hlists, hrecords, hkind⟩
  have htext := htexts e he
  cases hkey : e.1 with
  | string s => exact ⟨s, rfl⟩
  | _ =>
    rw [hkey] at htext
    cases htext

theorem head_of_loose (h : loose v = true) : v.head = v := by
  cases v with
  | knot => cases h
  | _ => rfl

theorem exhausted_of_loose (h : loose v = true) : v.exhausted = false := by
  cases v with
  | knot => cases h
  | _ => rfl

theorem loose_get (h : loose (.map es) = true) (f : String) : loose (Fields.get es f) = true :=
  Value.everywhere_field rfl h f

theorem loose_of_mem_statements (h : loose v = true) (hw : w ∈ v.statements) : loose w = true := by
  unfold Value.statements at hw
  rw [head_of_loose h] at hw
  cases v with
  | list items => exact Value.everywhere_of_mem_items h hw
  | map es =>
    have hbody := loose_get h "body"
    dsimp only at hw
    rw [head_of_loose hbody] at hw
    split at hw
    · next items hitems =>
      rw [hitems] at hbody
      exact Value.everywhere_of_mem_items hbody hw
    · cases hw
  | _ => cases hw

theorem loose_of_mem_yielded (h : loose v = true) (hw : w ∈ v.yielded) : loose w = true := by
  unfold Value.yielded Value.elementsOrNone at hw
  split at hw
  · unfold Value.elements at hw
    rw [head_of_loose h] at hw
    cases v with
    | list items => exact Value.everywhere_of_mem_items h hw
    | map es =>
      obtain ⟨e, he, rfl⟩ := List.mem_map.mp hw
      exact Value.everywhere_key_of_mem_entries h he
    | string s =>
      obtain ⟨c, -, rfl⟩ := List.mem_map.mp hw
      rfl
    | bytes | date | moment | pair | set | knot => cases h
    | _ => cases hw
  · cases hw

theorem loose_sourceText (h : loose v = true) : loose (sourceText v) = true := by
  unfold sourceText
  rw [head_of_loose h]
  cases v with
  | map es => exact Value.everywhere_getD h (Value.everywhere_getD h h "raw") "value"
  | _ => exact h

theorem loose_templateText (h : loose v = true) : loose (templateText v) = true := by
  unfold templateText
  rw [head_of_loose h]
  cases v with
  | map es =>
    have hw : loose (Fields.getD es "value" (.map es)) = true := Value.everywhere_getD h h "value"
    dsimp only
    rw [head_of_loose hw]
    generalize Fields.getD es "value" (.map es) = w at hw
    cases w with
    | map inner =>
      have hraw : loose (Fields.getD inner "raw" (Fields.get inner "cooked")) = true :=
        Value.everywhere_getD hw (loose_get hw "cooked") "raw"
      dsimp only
      split
      · rfl
      · exact hraw
    | _ => exact hw
  | _ => exact h

theorem isOk_elementsOrNone (h : v.isListOrNull = true) : v.elementsOrNone.isOk = true := by
  cases v with
  | null => rfl
  | list items =>
    rw [Value.elementsOrNone_of_head rfl]
    rfl
  | _ => cases h

theorem findable_of_hashable (h : v.hashable = true) : v.findable = true := by
  cases v with
  | set ms => rfl
  | _ => exact h

end Loose

/-! ## Data -/

mutual

/-- A loosely shaped tree is spelled out. -/
theorem writable_of_loose : (v : Value) → loose v = true → v.writable = true
  | .null, _ | .bool _, _ | .float _, _ | .string _, _ => rfl
  | .int _, h => h
  | .list items, h => by
    rw [loose] at h
    exact writableItems_of_loose items (Bool.and_eq_true_iff.mp h).2
  | .map es, h => by
    rw [loose] at h
    exact writableEntries_of_loose es (Bool.and_eq_true_iff.mp h).2
  | .bytes _, h | .date _, h | .moment _, h | .set _, h | .knot _ _ _, h => nomatch h
  | .pair _ _, h => by simp [loose, Value.everywhere, hasLooseShape] at h

theorem writableItems_of_loose :
    (items : List Value) → Value.everywhereItems hasLooseShape items = true →
    Value.writableItems items = true
  | [], _ => rfl
  | v :: vs, h => by
    obtain ⟨hv, hvs⟩ := Bool.and_eq_true_iff.mp h
    exact Bool.and_eq_true_iff.mpr ⟨writable_of_loose v hv, writableItems_of_loose vs hvs⟩

theorem writableEntries_of_loose : (es : Fields) → Value.everywhereEntries hasLooseShape es = true →
    Value.writableEntries es = true
  | [], _ => rfl
  | (k, v) :: es, h => by
    obtain ⟨hkv, hes⟩ := Bool.and_eq_true_iff.mp h
    obtain ⟨hk, hv⟩ := Bool.and_eq_true_iff.mp hkv
    refine Bool.and_eq_true_iff.mpr ⟨Bool.and_eq_true_iff.mpr ⟨?_, ?_⟩,
      writableEntries_of_loose es hes⟩
    · exact writable_of_loose k hk
    · exact writable_of_loose v hv

end

mutual

/-- A loosely shaped tree has a text as data. -/
theorem isOk_encode (style : Value.DataStyle) :
    (v : Value) → loose v = true → (v.encode style).isOk = true
  | .null, _ | .bool _, _ | .float _, _ | .string _, _ => rfl
  | .int n, h => by
    rw [Value.encode_int, Value.written_of_writable h]
    rfl
  | .list items, h => by
    rw [loose] at h
    obtain ⟨texts, htexts⟩ :=
      isOk_iff.mp (isOk_encodeItems style items (Bool.and_eq_true_iff.mp h).2)
    rw [Value.encode, htexts]
    rfl
  | .map es, h => by
    have hkeys := (looseFields h).texts
    rw [loose] at h
    obtain ⟨texts, htexts⟩ :=
      isOk_iff.mp (isOk_encodeEntries style es (Bool.and_eq_true_iff.mp h).2 hkeys)
    rw [Value.encode, htexts]
    rfl
  | .bytes _, h | .date _, h | .moment _, h | .set _, h | .knot _ _ _, h => nomatch h
  | .pair _ _, h => by simp [loose, Value.everywhere, hasLooseShape] at h

theorem isOk_encodeItems (style : Value.DataStyle) : (items : List Value) →
    Value.everywhereItems hasLooseShape items = true → (Value.encodeItems style items).isOk = true
  | [], _ => rfl
  | v :: vs, h => by
    obtain ⟨hv, hvs⟩ := Bool.and_eq_true_iff.mp h
    obtain ⟨text, htext⟩ := isOk_iff.mp (isOk_encode style v hv)
    obtain ⟨texts, htexts⟩ := isOk_iff.mp (isOk_encodeItems style vs hvs)
    rw [Value.encodeItems, htext, htexts]
    rfl

theorem isOk_encodeEntries (style : Value.DataStyle) : (es : Fields) →
    Value.everywhereEntries hasLooseShape es = true → (∀ e ∈ es, ∃ s, e.1 = .string s) →
    (Value.encodeEntries style es).isOk = true
  | [], _, _ => rfl
  | (k, v) :: es, h, hkeys => by
    obtain ⟨hkv, hes⟩ := Bool.and_eq_true_iff.mp h
    obtain ⟨⟨s, hs⟩, hrest⟩ := List.forall_mem_cons.mp hkeys
    obtain ⟨text, htext⟩ := isOk_iff.mp (isOk_encode style v (Bool.and_eq_true_iff.mp hkv).2)
    obtain ⟨texts, htexts⟩ := isOk_iff.mp (isOk_encodeEntries style es hes hrest)
    dsimp only at hs
    rw [hs, Value.encodeEntries, Value.encodeKey, htext, htexts]
    rfl

end

theorem isOk_attributeValue {v : Value} (h : loose v = true) : (attributeValue v).isOk = true := by
  obtain ⟨text, htext⟩ := isOk_iff.mp (isOk_encode .tight v h)
  unfold attributeValue
  split
  · split
    · rfl
    · rfl
  · rw [htext]
    rfl

/-! ## Tolerant rules -/

/-- What a rule may rely on: fields that are null or lists, whether the cases are those of a switch,
and fields whose kind has been asked for. -/
structure Known where
  lists : List String
  cases : Bool
  kinds : List (String × String)

namespace Known

def ofAny : Known := ⟨sequenceFields, false, []⟩

def ofKind (t : String) : Known := ⟨sequenceFields ++ ownSequences t, t == switchKind, []⟩

def ofCase : Known := ⟨sequenceFields ++ caseSequences, false, []⟩

def learn (k : Known) : Test → Known
  | .tagged f [t] => { k with kinds := (f, t) :: k.kinds }
  | _ => k

structure Holds (k : Known) (es : Fields) : Prop where
  loose : Script.loose (.map es) = true
  lists : ∀ f ∈ k.lists, (Fields.get es f).isListOrNull = true
  cases : k.cases = true → areCases (Fields.get es "cases") = true
  kinds : ∀ f t, (f, t) ∈ k.kinds → (Fields.get es f).tag? = some t

variable {es : Fields}

theorem holds_ofAny (h : Script.loose (.map es) = true) : ofAny.Holds es :=
  ⟨h, (looseFields h).lists, (fun hcases => nomatch hcases), fun _ _ hmem => nomatch hmem⟩

theorem holds_ofKind {t : String} (h : Script.loose (.map es) = true)
    (ht : Fields.get es "type" = .string t) :
    (ofKind t).Holds es := by
  have hkind := (looseFields h).kind
  rw [fitsKind, ht] at hkind
  obtain ⟨hlists, hcases⟩ := Bool.and_eq_true_iff.mp hkind
  refine ⟨h, fun f hf => ?_, fun hswitch => ?_, fun _ _ hmem => nomatch hmem⟩
  · rcases List.mem_append.mp hf with hf | hf
    · exact (looseFields h).lists f hf
    · exact List.all_eq_true.mp hlists f hf
  · have hne : (t != switchKind) = false := by simp [beq_iff_eq.mp hswitch]
    rwa [hne, Bool.false_or] at hcases

theorem holds_ofCase (h : Script.loose (.map es) = true) (hcase : isCase (.map es) = true) :
    ofCase.Holds es := by
  refine ⟨h, fun f hf => ?_, (fun hcases => nomatch hcases), fun _ _ hmem => nomatch hmem⟩
  rcases List.mem_append.mp hf with hf | hf
  · exact (looseFields h).lists f hf
  · exact List.all_eq_true.mp hcase f hf

theorem Holds.learn {k : Known} {test : Test} (h : k.Holds es) (htest : test.holds es = true) :
    (k.learn test).Holds es := by
  unfold Known.learn
  split
  · next f t =>
    refine ⟨h.loose, h.lists, h.cases, fun g u hmem => ?_⟩
    rcases List.mem_cons.mp hmem with heq | hmem
    · cases heq
      obtain ⟨t', ht', htag⟩ := exists_of_tagged htest
      rwa [List.mem_singleton.mp ht'] at htag
    · exact h.kinds g u hmem
  · exact h

end Known

mutual

/-- Whether a piece uses the fields of a node in ways that are known to be possible. -/
def Piece.tolerant (k : Known) : Piece → Bool
  | .text _ | .margin | .shown _ _ | .source _ | .data _ | .attributeValue _ => true
  | .expression _ | .name _ | .unary _ _ | .statement _ | .members _ | .body _ | .itself _ => true
  | .accessor f => keyFields.contains f
  | .each f _ _ _ | .specifiers f | .sequence f => k.lists.contains f
  | .interleaved texts f => k.lists.contains texts && k.lists.contains f
  | .eachRecord f _ _ parts => k.lists.contains f && Piece.allTolerant .ofAny parts
  | .eachCase f parts => f == "cases" && k.cases && Piece.allTolerant .ofCase parts
  | .within _ parts => Piece.allTolerant .ofAny parts
  | .inside f parts =>
    recordFields.contains f && Piece.allTolerant .ofAny parts ||
      k.kinds.any fun g => g.1 == f && Piece.allTolerant (.ofKind g.2) parts
  | .deeper parts | .shaped _ parts | .group parts => Piece.allTolerant k parts
  | .choose test yes no => Piece.allTolerant (k.learn test) yes && Piece.allTolerant k no

def Piece.allTolerant (k : Known) : List Piece → Bool
  | [] => true
  | p :: ps => Piece.tolerant k p && Piece.allTolerant k ps

end

/-- Whether a use fits or, for a part, the part is a loosely shaped node. -/
def Use.Tolerated : Use → Prop
  | .part (.node _) v => loose v = true
  | .part _ _ => False
  | u => u.sound = true

section Tolerated

variable {v : Value} {es : Fields} {k : Known} {f : String} {m : Mode}

theorem tolerated_field (h : k.Holds es) (m : Mode) (f : String) :
    (Use.node m (Fields.get es f)).Tolerated :=
  loose_get h.loose f

theorem tolerated_spelled (h : loose v = true) : (Use.spelled v).Tolerated := writable_of_loose v h

theorem tolerated_sequence (h : k.Holds es) (hf : k.lists.contains f = true) :
    (Use.sequence (Fields.get es f)).Tolerated :=
  isOk_elementsOrNone (h.lists f (List.contains_iff_mem.mp hf))

theorem tolerated_yielded (h : k.Holds es) (m : Mode) (f : String) :
    ∀ u ∈ (Fields.get es f).yielded.map (Use.node m), u.Tolerated :=
  List.forall_mem_map.mpr fun _ hw => loose_of_mem_yielded (loose_get h.loose f) hw

theorem tolerated_statements (h : k.Holds es) (m : Mode) (f : String) :
    ∀ u ∈ (Fields.get es f).statements.map (Use.node m), u.Tolerated :=
  List.forall_mem_map.mpr fun _ hw => loose_of_mem_statements (loose_get h.loose f) hw

theorem exists_case {w : Value} (h : k.Holds es) (hcases : k.cases = true)
    (hw : w ∈ (Fields.get es "cases").yielded) :
    ∃ inner, w = .map inner ∧ Known.ofCase.Holds inner := by
  have hloose := loose_of_mem_yielded (loose_get h.loose "cases") hw
  have hlist := (looseFields h.loose).lists "cases" (by decide)
  have hall := h.cases hcases
  cases hget : Fields.get es "cases" with
  | list items =>
    rw [hget] at hw hall
    rw [Value.yielded_of_ok (Value.elementsOrNone_of_head rfl)] at hw
    have hcase := List.all_eq_true.mp hall w hw
    cases w with
    | map inner => exact ⟨inner, rfl, Known.holds_ofCase hloose hcase⟩
    | _ => cases hcase
  | null =>
    rw [hget] at hw
    cases hw
  | _ =>
    rw [hget] at hlist
    cases hlist

end Tolerated

mutual

theorem Piece.tolerated {k : Known} {es : Fields} (h : k.Holds es) :
    (p : Piece) → p.tolerant k = true → ∀ u ∈ p.uses es, u.Tolerated
  | .text _, _ | .margin, _ => List.forall_mem_nil _
  | .shown f _, _ =>
    List.forall_mem_singleton.mpr (tolerated_spelled (Value.everywhere_getD h.loose rfl f))
  | .source f, _ => List.forall_mem_singleton.mpr
      (tolerated_spelled (loose_sourceText (loose_get h.loose f)))
  | .data f, _ => List.forall_mem_singleton.mpr (isOk_encode .wide _ (loose_get h.loose f))
  | .attributeValue f, _ => List.forall_mem_singleton.mpr
      (isOk_attributeValue (loose_get h.loose f))
  | .accessor f, hp => by
    have hkey := (looseFields h.loose).keys f (List.contains_iff_mem.mp hp)
    exact List.forall_mem_singleton.mpr (findable_of_hashable hkey)
  | .expression f, _ => List.forall_mem_singleton.mpr (tolerated_field h .expression f)
  | .unary operator f, _ => by
    have hsign : loose (Fields.getD es operator (.string "")) = true :=
      Value.everywhere_getD h.loose rfl operator
    have hoperand := tolerated_field h .expression f
    exact List.forall_mem_cons.mpr ⟨tolerated_spelled hsign, List.forall_mem_singleton.mpr hoperand⟩
  | .statement f, _ => List.forall_mem_singleton.mpr (tolerated_field h .statement f)
  | .itself _, _ => List.forall_mem_singleton.mpr h.loose
  | .name f, _ => by
    rw [Piece.uses]
    split
    · next w hw =>
      obtain ⟨inner, hinner, hname⟩ := exists_of_plainName hw
      have hfield := loose_get h.loose f
      rw [head_of_loose hfield] at hinner
      rw [hinner] at hfield
      exact List.forall_mem_singleton.mpr
        (tolerated_spelled (Value.everywhere_of_get? hfield hname))
    · exact List.forall_mem_singleton.mpr (tolerated_field h .expression f)
  | .members f, _ => tolerated_statements h .expression f
  | .body f, _ => tolerated_statements h .statement f
  | .each f _ _ _, hp | .specifiers f, hp =>
    List.forall_mem_cons.mpr ⟨tolerated_sequence h hp, tolerated_yielded h .expression f⟩
  | .sequence f, hp => List.forall_mem_cons.mpr ⟨tolerated_sequence h hp,
      tolerated_yielded h .statement f⟩
  | .interleaved texts f, hp => by
    obtain ⟨htexts, hf⟩ := Bool.and_eq_true_iff.mp hp
    refine List.forall_mem_cons.mpr ⟨tolerated_sequence h htexts,
      List.forall_mem_cons.mpr ⟨tolerated_sequence h hf, ?_⟩⟩
    refine List.forall_mem_append.mpr ⟨List.forall_mem_map.mpr fun t ht => ?_,
      tolerated_yielded h .expression f⟩
    exact tolerated_spelled (loose_templateText (loose_of_mem_yielded (loose_get h.loose texts) ht))
  | .eachRecord f untagged _ parts, hp => by
    obtain ⟨hf, hparts⟩ := Bool.and_eq_true_iff.mp hp
    refine List.forall_mem_cons.mpr
      ⟨tolerated_sequence h hf, List.forall_mem_flatMap.mpr fun w hw => ?_⟩
    have hloose := loose_of_mem_yielded (loose_get h.loose f) hw
    rw [head_of_loose hloose]
    split
    · split
      · exact List.forall_mem_singleton.mpr hloose
      · exact Piece.allTolerated (Known.holds_ofAny hloose) parts hparts
    · exact List.forall_mem_singleton.mpr hloose
  | .eachCase f parts, hp => by
    obtain ⟨hfield, hparts⟩ := Bool.and_eq_true_iff.mp hp
    obtain ⟨hf, hcases⟩ := Bool.and_eq_true_iff.mp hfield
    obtain rfl := beq_iff_eq.mp hf
    have hlist := (looseFields h.loose).lists "cases" (by decide)
    refine List.forall_mem_cons.mpr ⟨isOk_elementsOrNone hlist,
      List.forall_mem_flatMap.mpr fun w hw => ?_⟩
    obtain ⟨inner, rfl, hinner⟩ := exists_case h hcases hw
    exact Piece.allTolerated hinner parts hparts
  | .within f parts, hp => by
    have hloose := loose_get h.loose f
    rw [Piece.uses, head_of_loose hloose]
    split
    · next inner hinner =>
      rw [hinner] at hloose
      exact Piece.allTolerated (Known.holds_ofAny hloose) parts hp
    · exact Piece.allTolerated (Known.holds_ofAny rfl) parts hp
  | .inside f parts, hp => by
    have hloose := loose_get h.loose f
    rw [Piece.uses, head_of_loose hloose]
    rcases Bool.or_eq_true_iff.mp hp with hrecord | hkind
    · obtain ⟨hf, hparts⟩ := Bool.and_eq_true_iff.mp hrecord
      have hshape := (looseFields h.loose).records f (List.contains_iff_mem.mp hf)
      cases hget : Fields.get es f with
      | map inner =>
        rw [hget] at hloose
        exact Piece.allTolerated (Known.holds_ofAny hloose) parts hparts
      | null =>
        exact List.forall_mem_cons.mpr
          ⟨rfl, Piece.allTolerated (Known.holds_ofAny rfl) parts hparts⟩
      | _ =>
        rw [hget] at hshape
        cases hshape
    · obtain ⟨g, hg, hgparts⟩ := List.any_eq_true.mp hkind
      obtain ⟨hgf, hparts⟩ := Bool.and_eq_true_iff.mp hgparts
      obtain ⟨inner, hinner, htag⟩ := exists_of_tag (h.kinds g.1 g.2 hg)
      rw [beq_iff_eq.mp hgf, head_of_loose hloose] at hinner
      rw [hinner] at hloose ⊢
      exact Piece.allTolerated (Known.holds_ofKind hloose htag) parts hparts
  | .deeper parts, hp => Piece.allTolerated h parts hp
  | .shaped _ parts, hp => Piece.allTolerated h parts hp
  | .group parts, hp => Piece.allTolerated h parts hp
  | .choose test yes no, hp => by
    obtain ⟨hyes, hno⟩ := Bool.and_eq_true_iff.mp hp
    rw [Piece.uses]
    split
    · next htest => exact Piece.allTolerated (h.learn htest) yes hyes
    · exact Piece.allTolerated h no hno

theorem Piece.allTolerated {k : Known} {es : Fields} (h : k.Holds es) :
    (ps : List Piece) → Piece.allTolerant k ps = true → ∀ u ∈ Piece.usesAll ps es, u.Tolerated
  | [], _ => List.forall_mem_nil _
  | p :: ps, hps => by
    obtain ⟨hp, hps⟩ := Bool.and_eq_true_iff.mp hps
    exact List.forall_mem_append.mpr ⟨Piece.tolerated h p hp, Piece.allTolerated h ps hps⟩

end

/-! ## The tables -/

/-- Every rule tolerates all loosely shaped nodes of its kind. -/
theorem Mode.tolerant (m : Mode) :
    m.rules.all (fun r => Piece.allTolerant (.ofKind r.1) r.2) = true := by
  cases m with
  | expression => decide +kernel
  | statement => decide +kernel

theorem tolerated_node (m : Mode) {v : Value} (h : loose v = true) :
    ∀ u ∈ Role.uses (.node m) v, u.Tolerated := by
  rw [Role.uses, head_of_loose h]
  cases v with
  | map es =>
    refine List.forall_mem_cons.mpr ⟨(looseFields h).keys "type" (by decide), ?_⟩
    split
    · next rule hrule =>
      obtain ⟨t, ht, hlookup⟩ := exists_lookup_of_selectRule hrule
      have htolerant := List.all_eq_true.mp m.tolerant _ (mem_of_lookup hlookup)
      exact Piece.allTolerated (Known.holds_ofKind h ht) rule htolerant
    · exact List.forall_mem_singleton.mpr (tolerated_spelled (loose_get h "type"))
  | int n =>
    cases m with
    | expression => exact List.forall_mem_singleton.mpr h
    | statement => exact List.forall_mem_nil _
  | _ => cases m <;> exact List.forall_mem_nil _

/-- A loosely shaped tree can be written in both modes. -/
theorem returns_loose (m : Mode) {v : Value} (h : loose v = true) :
    (nodeCode true m v).Returns := by
  refine returns_of_passesDown (P := fun r w => (∃ m, r = .node m) ∧ loose w = true) ?_ ?_
    (r := .node m) ⟨⟨m, rfl⟩, h⟩
  · rintro r v r' w ⟨⟨m, rfl⟩, hv⟩ hu
    have hpart := tolerated_node m hv _ hu
    cases r' with
    | node m' => exact ⟨⟨m', rfl⟩, hpart⟩
    | _ => exact hpart.elim
  · rintro r v ⟨⟨m, rfl⟩, hv⟩
    rw [Role.sound, Role.lost, exhausted_of_loose hv]
    refine List.all_eq_true.mpr fun u hu => ?_
    have hfits := tolerated_node m hv u hu
    cases u with
    | part r w => rfl
    | _ => exact hfits

/-- Whether a tree can be gone through: all can, except for truth and numbers other than zero. -/
def canBeSequence : Value → Bool
  | .bool b => !b
  | .int n => n == 0
  | .float x => x.isZero
  | _ => true

theorem isOk_elementsOrNone_eq {v : Value} (h : loose v = true) :
    v.elementsOrNone.isOk = canBeSequence v := by
  rw [Value.elementsOrNone, Value.truthy, Value.elements, head_of_loose h]
  cases v with
  | bytes | date | moment | pair | set | knot => cases h
  | bool b => cases b <;> rfl
  | int n => by_cases hn : n = 0 <;> simp [hn, canBeSequence, Except.isOk, Except.toBool]
  | float x => cases hx : x.isZero <;> simp [hx, canBeSequence, Except.isOk, Except.toBool]
  | null => rfl
  | string s => by_cases hs : s = "" <;> simp [hs, canBeSequence, Except.isOk, Except.toBool]
  | list items => cases items <;> rfl
  | map es => cases es <;> rfl

/-- Statements are written one after the other, so the sequence can be written if there is one. -/
theorem returns_sequenceCode_loose {v : Value} (h : loose v = true) :
    (sequenceCode true v).Returns ↔ canBeSequence v = true := by
  rw [sequenceCode, returns_elements, succeeds_sequence, isOk_elementsOrNone_eq h,
    Code.returns_together]
  refine and_iff_left (List.forall_mem_map.mpr fun w hw => ?_)
  exact returns_loose .statement (loose_of_mem_yielded h hw)

/-- A loosely shaped tree is written as an expression and as a statement, whatever else is missing
or of a wrong type. As a sequence of statements it is written exactly if it can be gone through. -/
theorem emit_loose (v : Value) (h : loose v = true) (layout : Layout) (level : Int) (j : Journal) :
    (∃ text, ((nodeCode true .expression v).emit layout level j).1 = .ok text) ∧
      (∃ text, ((nodeCode true .statement v).emit layout level j).1 = .ok text) ∧
      ((∃ text, ((sequenceCode true v).emit layout level j).1 = .ok text) ↔
        canBeSequence v = true) := by
  simp only [← isOk_iff, Code.isOk_emit]
  exact ⟨returns_loose .expression h, returns_loose .statement h, returns_sequenceCode_loose h⟩

/-- A switch on nothing, with a case of a numbered kind that holds a list for a label and a block
without a body. -/
theorem emit_loose_switch :
    let v := Value.list [.record [("type", .string "switchStatement"),
  ("cases", .list [.record [("type", .int 5),
      ("consequent", .list [.record [("type", .string "breakStatement"), ("label", .list [.null])],
        .record [("type", .string "withStatement"),
          ("body", .record [("type", .string "blockStatement")])],
        .string "x"])]])]]
    let options : Options := {}
    loose v = true ∧ canBeSequence v = true ∧
      ∃ text, ((sequenceCode true v).emit options.layout 0 (.empty none)).1 = .ok text := by
  intro v options
  have hloose : loose v = true := by decide +kernel
  exact ⟨hloose, rfl, (emit_loose v hloose _ _ _).2.2.mpr rfl⟩

/-- A number is no sequence of statements, and one with too many digits no expression. -/
theorem emit_number_as_statements :
    loose (.int 5) = true ∧ ∀ layout level j,
      ((sequenceCode true (.int 5)).emit layout level j).1 = .error .notIterable ∧
        ((nodeCode true .expression (.int (10 ^ mostDigits))).emit layout level j).1 =
          .error .badValue := by
  refine ⟨rfl, fun layout level j => ⟨rfl, ?_⟩⟩
  rw [nodeCode_int, Code.shown, Code.spelling_of_not_writable Value.not_writable_power,
    Code.emit_stop]
  rfl

end Script

end Scriptwright
