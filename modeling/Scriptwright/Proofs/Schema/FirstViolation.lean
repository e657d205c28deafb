import Scriptwright.Proofs.Schema.Tour

/-!
# The first violation

What a rejected document has at the place that the message names. The way to this place leads in the
document to a mapping without a required field or to a value of another type, everything that the
check has entered before has the right type, and everything that it has left before meets its
descriptor.

Three properties of tours are proved, each by going along a tour once: `TourLaw` says what has to be
shown for that.
-/

namespace Scriptwright.Schema

/-! ## Going along a tour -/

def touring (definitions : Fields) (bound : Nat) : Touring bound :=
  fun d v way _ => tour definitions d v way

theorem tour_eq (definitions d : Fields) (v : Value) (way : List Step) :
    tour definitions d v way =
      .enter ⟨way, d, some v⟩ ::
        (tourInside definitions d way v.head (touring definitions v.head.depth) ++
          [Event.leave ⟨way, d, some v⟩]) := by
  rw [tour]
  rfl

/-- A property of lists of events that all tours have, if they start at a value in a context where
`C` holds. -/
structure TourLaw (definitions : Fields) (C : Value → List Step → Prop) (P : List Event → Prop) :
    Prop where
  nil : P []
  append : ∀ {es fs : List Event}, P es → P fs → P (es ++ fs)
  key : ∀ {v : Value} {es : Fields} {way : List Step} {name : String}, C v way → v.head = .map es →
    Fields.has es name = true → C (Fields.get es name) (way ++ [Step.key name])
  index : ∀ {v w : Value} {items : List Value} {way : List Step} {i : Nat}, C v way →
    v.head = .list items →
    items[i]? = some w → C w (way ++ [Step.index i])
  missing : ∀ {v : Value} {es d : Fields} {way : List Step} {name : String}, C v way →
    v.head = .map es →
    Fields.has es name = false → wellFormedDescriptor definitions (.map d) = true →
    P [.enter ⟨way ++ [Step.key name], d, none⟩, .leave ⟨way ++ [Step.key name], d, none⟩]
  node : ∀ {v ref : Value} {es definition : Fields} {way : List Step} {kinds : List Event},
    C v way →
    v.head = .map es → Fields.find? definitions ref = some (.map definition) →
    P (tourFields es (touring definitions _) way (fieldMap (Fields.get definition "schema"))) →
      P kinds →
    P (tourFields es (touring definitions _) way (fieldMap (Fields.get definition "schema")) ++
      Event.lookUp way ref (Fields.get es "type") :: kinds)
  around : ∀ {v : Value} {d : Fields} {way : List Step}, C v way →
    wellFormedDescriptor definitions (.map d) = true →
    P (tourInside definitions d way v.head (touring definitions _)) → P (tour definitions d v way)

theorem wellFormedEntries_fieldMap {definitions : Fields} {v : Value}
    (h : wellFormedFields definitions v = true) :
    wellFormedEntries definitions (fieldMap v) = true := by
  obtain ⟨s, rfl, hs⟩ := exists_of_wellFormedFields h
  exact hs

theorem wellFormedEntries_field {definitions definition : Fields} {f : String}
    (h : (Fields.get? definition f).all (wellFormedFields definitions) = true) :
    wellFormedEntries definitions (fieldMap (Fields.get definition f)) = true := by
  rw [Fields.get]
  cases hv : Fields.get? definition f with
  | none => rfl
  | some v =>
    rw [hv] at h
    exact wellFormedEntries_fieldMap h

theorem wellFormedEntries_variantMap {definitions : Fields} {variants : Value} (tag : Value)
    (hwf : wellFormedVariants definitions variants = true) (h : variants.truthy = true) :
    wellFormedEntries definitions (variantMap variants tag) = true := by
  obtain ⟨vs, rfl, hvs⟩ := exists_of_wellFormedVariants hwf h
  rw [variantMap]
  cases hfound : Fields.find? vs tag with
  | none => rfl
  | some variant =>
    rcases hvs _ _ hfound with rfl | ⟨s, rfl, hs⟩
    · rfl
    · exact hs

namespace TourLaw

variable {definitions schema : Fields} {C : Value → List Step → Prop} {P : List Event → Prop}

section Mapping

variable {es : Fields} {way : List Step} {go : Touring (Value.map es).depth}

theorem fields (law : TourLaw definitions C P) {s : Fields}
    (hs : wellFormedEntries definitions s = true)
    (hentry : ∀ name d, wellFormedDescriptor definitions (.map d) = true →
    P (tourEntry es go way (.string name, .map d))) :
    P (tourFields es go way s) := by
  induction s with
  | nil => exact law.nil
  | cons e s ih =>
    obtain ⟨name, d, rfl, hd, hs'⟩ := exists_of_wellFormedEntries_cons hs
    rw [tourFields, List.flatMap_cons]
    exact law.append (hentry name d hd) (ih hs')

theorem ref (law : TourLaw definitions C P) (hwf : wellFormed definitions schema = true) {v : Value}
    (ref : Value) (hC : C v way) (hhead : v.head = .map es)
    (hentry : ∀ name d, wellFormedDescriptor definitions (.map d) = true →
      P (tourEntry es (touring definitions _) way (.string name, .map d))) :
    P (tourRef es (touring definitions _) way definitions ref) := by
  rw [tourRef]
  split
  · exact law.nil
  · split
    · next definition hfound =>
      have hdefinition := wellFormedDefinition_of_find? hwf hfound
      rw [wellFormedDefinition, Bool.and_eq_true, Bool.and_eq_true] at hdefinition
      obtain ⟨⟨hcommon, huntagged⟩, hvariants⟩ := hdefinition
      have hshared := law.fields (wellFormedEntries_field hcommon) hentry
      rw [tourNode]
      split
      · exact law.append hshared (law.fields (wellFormedEntries_field huntagged) hentry)
      · split
        · next htruthy =>
          exact law.node hC hhead hfound hshared
            (law.fields (wellFormedEntries_variantMap _ hvariants htruthy) hentry)
        · exact law.append hshared law.nil
    · exact law.nil

end Mapping

theorem items (law : TourLaw definitions C P) {bound : Nat} {go : Touring bound} {item : Fields}
    {way : List Step} {items : List Value} (i : Nat) (hdepth : ∀ v ∈ items, v.depth < bound)
    (hitem : ∀ j w (hw : w ∈ items), items[j]? = some w →
      P (go item w (way ++ [Step.index (i + j)]) (hdepth w hw))) :
    P (tourItems bound go item way i items hdepth) := by
  induction items generalizing i with
  | nil => exact law.nil
  | cons v vs ih =>
    rw [tourItems]
    refine law.append (hitem 0 v List.mem_cons_self rfl) (ih (i + 1) _ fun j w hw hj => ?_)
    have hnext := hitem (j + 1) w (List.mem_cons_of_mem _ hw) hj
    rwa [← Nat.add_assoc, Nat.add_right_comm] at hnext

theorem tour (law : TourLaw definitions C P) (hwf : wellFormed definitions schema = true)
    (d : Fields) (v : Value) (way : List Step)
    (hd : wellFormedDescriptor definitions (.map d) = true) (hC : C v way) :
    P (Schema.tour definitions d v way) := by
  induction hn : v.depth using Nat.strongRecOn generalizing d v way with
  | _ n ih =>
    subst hn
    refine law.around hC hd ?_
    have hwell := wellDescribed hd
    have hdepth := v.depth_head_le
    cases hhead : v.head with
    | map es =>
      rw [hhead] at hdepth
      have hentry : ∀ name d', wellFormedDescriptor definitions (.map d') = true →
          P (tourEntry es (touring definitions _) way (.string name, .map d')) := by
        intro name d' hd'
        rw [tourEntry]
        cases hget : Fields.get? es name with
        | none => exact law.missing hC hhead (by simp [Fields.has, hget]) hd'
        | some w =>
          have hhas : Fields.has es name = true := by simp [Fields.has, hget]
          have hlt := Fields.depth_get_lt es name
          exact ih _ (Nat.lt_of_lt_of_le hlt hdepth) d' _ _ hd' (law.key hC hhead hhas) rfl
      refine law.append ?_ ?_
      · split
        · next hobject =>
          rcases hwell.fields (isKey_iff.mp hobject) with hnull | ⟨s, hschema, hs⟩
          · rw [hnull]
            exact law.nil
          · rw [hschema]
            exact law.fields hs hentry
        · exact law.nil
      · exact law.ref hwf _ hC hhead hentry
    | list items =>
      rw [hhead] at hdepth
      rw [tourInside]
      split
      · next item hschema =>
        split
        · next harray =>
          have hitem : wellFormedDescriptor definitions (.map item) = true := by
            rcases hwell.items (isKey_iff.mp harray) with hnull | ⟨item', hschema', hitem'⟩
            · cases hschema.symm.trans hnull
            · cases hschema.symm.trans hschema'
              exact hitem'
          refine law.items 0 _ fun j w hw hj => ?_
          have hlt := depth_item_lt items w hw
          rw [Nat.zero_add]
          exact ih _ (Nat.lt_of_lt_of_le hlt hdepth) item w _ hitem (law.index hC hhead hj) rfl
        · exact law.nil
      · exact law.nil
    | _ => exact law.nil

end TourLaw

/-! ## What earlier events make sure of -/

/-- Every event has `Q`, as long as all events before it have `ok`. -/
def Led (ok Q : Event → Prop) : List Event → Prop
  | [] => True
  | e :: es => Q e ∧ (ok e → Led ok Q es)

section Led

variable {ok Q : Event → Prop} {es fs : List Event}

theorem led_append : Led ok Q (es ++ fs) ↔ Led ok Q es ∧ ((∀ e ∈ es, ok e) → Led ok Q fs) := by
  induction es with
  | nil => simp [Led]
  | cons e es ih =>
    rw [List.cons_append, Led, Led, ih, List.forall_mem_cons]
    constructor
    · rintro ⟨he, hrest⟩
      exact ⟨⟨he, fun hok => (hrest hok).1⟩, fun hok => (hrest hok.1).2 hok.2⟩
    · rintro ⟨⟨he, hes⟩, hfs⟩
      exact ⟨he, fun hok => ⟨hes hok, fun hall => hfs ⟨hok, hall⟩⟩⟩

theorem Led.of_forall (h : ∀ e ∈ es, Q e) : Led ok Q es := by
  induction es with
  | nil => trivial
  | cons e es ih =>
    rw [List.forall_mem_cons] at h
    exact ⟨h.1, fun _ => ih h.2⟩

theorem Led.append (hes : Led ok Q es) (hfs : Led ok Q fs) : Led ok Q (es ++ fs) :=
  led_append.mpr ⟨hes, fun _ => hfs⟩

theorem Led.concat {e : Event} (hes : Led ok Q es) (he : (∀ b ∈ es, ok b) → Q e) :
    Led ok Q (es ++ [e]) :=
  led_append.mpr ⟨hes, fun h => ⟨he h, fun _ => trivial⟩⟩

theorem Led.here {before after : List Event} {e : Event} (h : Led ok Q (before ++ e :: after))
    (hbefore : ∀ b ∈ before, ok b) : Q e := ((led_append.mp h).2 hbefore).1

end Led

/-! ## Ways lead to places -/

/-- A place is where its way leads in a document: to the value found there, or to a mapping without
the last key. -/
def Stop.Located (data : Value) (s : Stop) : Prop :=
  match s.value with
  | some v => data.at? s.way = some v
  | none => ∃ way name v es, s.way = way ++ [Step.key name] ∧ data.at? way = some v ∧
      v.head = .map es ∧
      Fields.has es name = false

def Event.Located (definitions : Fields) (data : Value) : Event → Prop
  | .enter s | .leave s => s.Located data ∧
      wellFormedDescriptor definitions (.map s.descriptor) = true
  | .lookUp way _ tag => ∃ v es, data.at? way = some v ∧ v.head = .map es ∧
      tag = Fields.get es "type"

theorem tourLaw_located (definitions : Fields) (data : Value) :
    TourLaw definitions (fun v way => data.at? way = some v) fun events => ∀ e ∈ events,
      e.Located definitions data where
  nil := List.forall_mem_nil _
  append hes hfs := List.forall_mem_append.mpr ⟨hes, hfs⟩
  key {v es way name} hv hes hhas := by
    rw [Value.at?_concat _ hv, Value.part?, hes]
    obtain ⟨w, hw⟩ := Option.isSome_iff_exists.mp hhas
    simp [Fields.get, hw]
  index hv hitems hi := by
    rw [Value.at?_concat _ hv, Value.part?, hitems]
    exact hi
  missing {v es d way name} hv hes hhas hd := by
    have hplace : Stop.Located data ⟨way ++ [Step.key name], d, none⟩ :=
      ⟨way, name, v, es, rfl, hv, hes, hhas⟩
    rw [List.forall_mem_cons, List.forall_mem_singleton]
    exact ⟨⟨hplace, hd⟩, hplace, hd⟩
  node {v ref es definition way kinds} hv hes _ hshared hkinds := by
    rw [List.forall_mem_append, List.forall_mem_cons]
    exact ⟨hshared, ⟨v, es, hv, hes, rfl⟩, hkinds⟩
  around {v d way} hv hd hinside := by
    rw [tour_eq, List.forall_mem_cons, List.forall_mem_append, List.forall_mem_singleton]
    exact ⟨⟨hv, hd⟩, hinside, hv, hd⟩

/-! ## What has been left conforms -/

/-- A value has the type that its descriptor names; a field that is not there is not required. -/
def Stop.Right (s : Stop) : Prop :=
  match s.value with
  | some v => ∃ t, declaredType s.descriptor = .string t ∧ HasType t v.head
  | none => (Fields.get s.descriptor "required").truthy = false

def Event.Right : Event → Prop
  | .enter s => s.Right
  | _ => True

/-- A place is right, and so is all that is below it. -/
def Stop.Flawless (definitions : Fields) (s : Stop) : Prop :=
  match s.value with
  | some v => ∀ e ∈ tour definitions s.descriptor v s.way, e.Right
  | none => s.Right

def Event.Flawless (definitions : Fields) : Event → Prop
  | .leave s => s.Flawless definitions
  | _ => True

theorem tourLaw_flawless (definitions : Fields) :
    TourLaw definitions (fun _ _ => True) (Led Event.Right (Event.Flawless definitions)) where
  nil := trivial
  append hes hfs := hes.append hfs
  key _ _ _ := trivial
  index _ _ _ := trivial
  missing {v es d way name} _ _ _ _ := by
    have henter : Led Event.Right (Event.Flawless definitions)
        [.enter ⟨way ++ [Step.key name], d, none⟩] :=
      .of_forall (List.forall_mem_singleton.mpr trivial)
    exact henter.concat fun h => h _ List.mem_cons_self
  node _ _ _ hshared hkinds := hshared.append ⟨trivial, fun _ => hkinds⟩
  around {v d way} _ _ hinside := by
    have hopen : Led Event.Right (Event.Flawless definitions)
        (.enter ⟨way, d, some v⟩ :: tourInside definitions d way
        v.head (touring definitions _)) := ⟨trivial, fun _ => hinside⟩
    rw [tour_eq, ← List.cons_append]
    refine hopen.concat fun h => ?_
    -- Leaving the value adds nothing to what is entered on its tour.
    show ∀ e ∈ tour definitions d v way, e.Right
    rw [tour_eq, ← List.cons_append, List.forall_mem_append, List.forall_mem_singleton]
    exact ⟨h, trivial⟩

theorem mem_tourInside_of_governs {definitions d es s : Fields} {way : List Step}
    {go : Touring (Value.map es).depth} {e : Event} (hs : Governs definitions d es s)
    (he : e ∈ tourFields es go way s) :
    e ∈ tourInside definitions d way (.map es) go := by
  cases hs with
  | nested htype hschema =>
    refine List.mem_append_left _ ?_
    rwa [if_pos (isKey_iff.mpr htype), hschema]
  | @node definition _ hnull hfound hdemand =>
    refine List.mem_append_right _ ?_
    rw [tourRef, hnull, hfound]
    cases hdemand with
    | common hcommon =>
      refine List.mem_append_left _ ?_
      rwa [Fields.get, hcommon]
    | untagged htag huntagged =>
      refine List.mem_append_right _ ?_
      have hhas : Fields.has definition "untagged" = true := by simp [Fields.has, huntagged]
      rwa [if_pos (by simp [htag, hhas]), Fields.get, huntagged]
    | @variant vs _ htag hvs hvariant =>
      refine List.mem_append_right _ ?_
      have htruthy : (Value.map vs).truthy = true := by
        cases vs with
        | nil => cases hvariant
        | cons e vs => rfl
      rw [if_neg (by simpa using htag), hvs, if_pos htruthy, variantMap, hvariant]
      exact List.mem_cons_of_mem _ he

theorem exists_subset_tourItems {bound : Nat} {go : Touring bound} {item : Fields} {way : List Step}
    {items : List Value} {w : Value} (i : Nat) (hdepth : ∀ v ∈ items, v.depth < bound)
    (hw : w ∈ items) :
    ∃ j, go item w (way ++ [Step.index j]) (hdepth w hw) ⊆
      tourItems bound go item way i items hdepth := by
  induction items generalizing i with
  | nil => cases hw
  | cons v vs ih =>
    rw [tourItems]
    rcases List.mem_cons.mp hw with rfl | hw
    · exact ⟨i, List.subset_append_left _ _⟩
    · obtain ⟨j, hj⟩ := ih (i + 1) (fun v hv => hdepth v (List.mem_cons_of_mem _ hv)) hw
      exact ⟨j, List.subset_append_of_subset_right _ hj⟩

/-- The induction is on the depth of the value. -/
theorem meets_of_right {definitions : Fields} (d : Fields) (v : Value) (way : List Step)
    (hv : v.finite = true) (h : ∀ e ∈ tour definitions d v way, e.Right) :
    Meets definitions d v := by
  induction hn : v.depth using Nat.strongRecOn generalizing d v way with
  | _ n ih =>
    subst hn
    rw [tour_eq, Value.head_of_finite hv, List.forall_mem_cons, List.forall_mem_append] at h
    obtain ⟨⟨t, htype, hhas⟩, hinside, -⟩ := h
    dsimp only at htype hhas
    rw [Value.head_of_finite hv] at hhas
    refine .intro htype hhas ?_ ?_
    · rintro es rfl s hs
      have hfield : ∀ name d', (.string name, .map d') ∈ s →
          ∀ e ∈ tourEntry es (touring definitions _) way (.string name, .map d'), e.Right :=
            fun name d' hm e he =>
        hinside e (mem_tourInside_of_governs hs (List.mem_flatMap.mpr ⟨_, hm, he⟩))
      refine .intro (fun name d' hm hrequired => ?_) fun name d' hm hname => ?_
      · have hright := hfield name d' hm
        rw [tourEntry] at hright
        cases hget : Fields.get? es name with
        | some w => simp [Fields.has, hget]
        | none =>
          rw [hget] at hright
          have hnot : (Fields.get d' "required").truthy = false := hright _ List.mem_cons_self
          cases hnot.symm.trans hrequired
      · have hright := hfield name d' hm
        obtain ⟨w, hw⟩ := Option.isSome_iff_exists.mp hname
        rw [tourEntry, hw] at hright
        exact ih _ (Fields.depth_get_lt es name) d' _ _ (Value.everywhere_get hv hname) hright rfl
    · rintro items rfl item ⟨harray, hschema⟩ w hw
      rw [tourInside, hschema] at hinside
      dsimp only at hinside
      rw [if_pos (isKey_iff.mpr harray)] at hinside
      obtain ⟨j, hj⟩ := exists_subset_tourItems 0 (depth_item_lt items) hw
      have hright : ∀ e ∈ tour definitions item w (way ++ [Step.index j]), e.Right :=
        fun e he => hinside e (hj he)
      exact ih _ (depth_item_lt items w hw) item w _
        (Value.everywhere_of_mem_items hv hw) hright rfl

/-! ## The place that the message names -/

/-- What is wrong with a document at a place. -/
inductive Stop.Violated (data : Value) (s : Stop) : Failure → Prop where
  /-- The way without its last key leads to a mapping that lacks the key. -/
  | missing {way : List Step} {name : String} {v : Value} {es : Fields} :
      s.way = way ++ [Step.key name] → data.at? way = some v → v.head = .map es →
        Fields.has es name = false →
      (Fields.get s.descriptor "required").truthy = true →
      Violated data s (.error (.missingField (placeName s.way)))
  /-- The way leads to a value of another type. -/
  | mismatch {v : Value} {t : String} :
      data.at? s.way = some v → declaredType s.descriptor = .string t →
        checkType v (.string t) = .ok false →
      t ≠ describe v → t ≠ "any" →
        Violated data s (.error (.typeMismatch (placeName s.way) t (describe v)))

theorem Stop.problem?_some {way : List Step} {d : Fields} {v : Value} {t : String}
    (ht : t ∈ typeNames) (htype : declaredType d = .string t) :
    problem? ⟨way, d, some v⟩ =
      if v.exhausted ∧ way ≠ [] then some (.fault .endless)
      else if t = "any" ∨ describe v = t then none
      else some (.error (.typeMismatch (placeName way) t (describe v))) := by
  unfold problem?
  dsimp only
  rw [htype, checkType_eq ht]
  by_cases hright : t = "any" ∨ describe v = t
  · have htrue : (t == "any" || describe v == t) = true := by simpa using hright
    rw [htrue, if_pos hright]
  · have hfalse : (t == "any" || describe v == t) = false := by simpa using hright
    rw [hfalse, if_neg hright]
    rfl

theorem Stop.right_of_problem {definitions : Fields} {s : Stop}
    (hd : wellFormedDescriptor definitions (.map s.descriptor) = true) (h : s.problem? = none) :
    s.Right := by
  obtain ⟨way, d, value⟩ := s
  cases value with
  | none => simpa [problem?, Right] using h
  | some v =>
    obtain ⟨t, ht, htype⟩ := (wellDescribed hd).type
    rw [problem?_some ht htype] at h
    split at h
    · cases h
    · split at h
      · next hright =>
        have hcheck : checkType v (.string t) = .ok true := by
          rw [checkType_eq ht]
          simpa using hright
        exact ⟨t, htype, hasType_head_of_checkType ht hcheck⟩
      · cases h

theorem Stop.violated_of_problem {definitions : Fields} {data : Value} {s : Stop} {f : Failure}
    (hs : s.Located data) (hd : wellFormedDescriptor definitions (.map s.descriptor) = true)
    (h : s.problem? = some f) (hf : Violation f) :
    s.Violated data f := by
  obtain ⟨way, d, value⟩ := s
  cases value with
  | none =>
    obtain ⟨parent, name, v, es, hway, hv, hes, hhas⟩ := hs
    simp only [problem?, Option.ite_none_right_eq_some, Option.some.injEq] at h
    obtain ⟨hrequired, rfl⟩ := h
    exact .missing hway hv hes hhas hrequired
  | some v =>
    obtain ⟨t, ht, htype⟩ := (wellDescribed hd).type
    rw [problem?_some ht htype] at h
    split at h
    · cases h
      cases hf
    · split at h
      · cases h
      · next hwrong =>
        cases h
        have hany : t ≠ "any" := fun hany => hwrong (.inl hany)
        have hdescribe : describe v ≠ t := fun hdescribe => hwrong (.inr hdescribe)
        have hcheck : checkType v (.string t) = .ok false := by
          rw [checkType_eq ht]
          simp [hany, hdescribe]
        exact .mismatch hs htype hcheck hdescribe.symm hany

/-- A place with a value meets its descriptor. A value that runs into itself is not asked to. -/
def Stop.Conforms (definitions : Fields) (s : Stop) : Prop :=
  match s.value with
  | some v => v.finite = true → Meets definitions s.descriptor v
  | none => (Fields.get s.descriptor "required").truthy = false

theorem Stop.Flawless.conforms {definitions : Fields} {s : Stop} (h : s.Flawless definitions) :
    s.Conforms definitions := by
  obtain ⟨way, d, value⟩ := s
  cases value with
  | none => exact h
  | some v => exact fun hv => meets_of_right d v way hv h

/-- A missing field or a wrong type is reported where it is, and nothing before it on the tour is
wrong: what has been entered has the right type, and what has been left meets its descriptor. -/
theorem violated_of_check_eq_error (definitions schema : Fields) (data : Value)
    (hwf : wellFormed definitions schema = true) (f : Failure)
    (h : (check (.map definitions) (.map schema) data).outcome = .error f) (hf : Violation f) :
    ∃ before s after, documentTour definitions schema data = before ++ Event.enter s :: after ∧
      s.Violated data f ∧
      (∀ b, .enter b ∈ before → b.Right) ∧ ∀ b, .leave b ∈ before → b.Conforms definitions := by
  have hd := wellFormedDescriptor_document (Bool.and_eq_true_iff.mp hwf).2
  have hlocated := (tourLaw_located definitions data).tour hwf
    (documentDescriptor schema) data [] hd rfl
  have hflawless := (tourLaw_flawless definitions).tour hwf (documentDescriptor schema) data
    [] hd trivial
  have hfound := (finds_check hwf data).outcome_eq_error_iff.mp h
  obtain ⟨before, e, after, htour, hproblem, hbefore⟩ := firstProblem?_eq_some_iff.mp hfound
  rw [documentTour] at htour
  rw [htour, List.forall_mem_append, List.forall_mem_cons] at hlocated
  obtain ⟨hlocated, hplace, -⟩ := hlocated
  cases e with
  | leave s => cases hproblem
  | lookUp way ref tag =>
    rw [Event.problem?] at hproblem
    split at hproblem <;> cases hproblem
    cases hf
  | enter s =>
    have hright : ∀ b ∈ before, b.Right := by
      intro b hb
      cases b with
      | enter b => exact b.right_of_problem (hlocated _ hb).2 (hbefore _ hb)
      | _ => trivial
    refine ⟨before, s, after, htour, s.violated_of_problem hplace.1 hplace.2 hproblem hf,
      fun b hb => hright _ hb, ?_⟩
    intro b hb
    obtain ⟨first, rest, rfl⟩ := List.append_of_mem hb
    rw [htour, List.append_assoc, List.cons_append] at hflawless
    have hleft : b.Flawless definitions := hflawless.here (List.forall_mem_append.mp hright).1
    exact hleft.conforms

/-- The second item of a list that conforms so far has a list of items that is none. -/
theorem violated_of_check_eq_error_nested :
    let definitions :=
  Fields.ofTexts [("node", .record [("schema", .record [("type", typed "string")]),
      ("untagged", .record [("name", name)]),
      ("variants",
        .record [("list", .record [("items", requiredArray (refersTo "any" "node"))])])])]
    let schema := Fields.ofTexts [("title", typed "string"), ("root", operand "object" "node" true)]
    let data := Value.record [("root", .record [("type", .string "list"), ("items", .list
      [.record [("name", .string "x")], .record [("type", .string "list"), ("items", .int 5)]])])]
    let f := Failure.error (.typeMismatch "root.items[1].items" "array" "number")
    wellFormed definitions schema = true ∧
      (check (.map definitions) (.map schema) data).outcome = .error f ∧
      Violation f ∧
      ∃ before s after, documentTour definitions schema data = before ++ Event.enter s :: after ∧
        s.Violated data f ∧
        (∀ b, .enter b ∈ before → b.Right) ∧ ∀ b, .leave b ∈ before → b.Conforms definitions := by
  intro definitions schema data f
  have hwf : wellFormed definitions schema = true := by decide
  have houtcome : (check (.map definitions) (.map schema) data).outcome = .error f :=
    by with_unfolding_all rfl
  exact ⟨hwf, houtcome, .typeMismatch _ _ _,
    violated_of_check_eq_error definitions schema data hwf f houtcome (.typeMismatch _ _ _)⟩

end Scriptwright.Schema
