import Scriptwright.Project.Manifest
import Scriptwright.Proofs.Value.Everywhere
import Scriptwright.Yaml.Load

/-!
# Which manifests describe a project

Loading a manifest gives a project just if the manifest is well formed and its places can be
followed. Places are looked up as soon as the manifest is known to name them, before its
dependencies and its indentation are read. So a place that cannot be followed stops the loading with
a fault of its own, and everything else that is wrong gives an error about the manifest.
-/

namespace Scriptwright.Project

/-! ## Well-formed manifests -/

/-- Nothing, one text or a list of texts. -/
def IsTexts (v : Value) : Prop :=
  v.head = .null ∨ (∃ s, v.head = .string s) ∨ ∃ ss : List String,
    v.head = .list (ss.map Value.string)

/-- One text that is not empty, or a list of texts that is not empty. -/
def IsSomeTexts (v : Value) : Prop :=
  (∃ s, v.head = .string s ∧ s ≠ "") ∨ ∃ ss : List String, v.head = .list (ss.map Value.string) ∧
    ss ≠ []

def IsSomeText (v : Value) : Prop := ∃ s, v.head = .string s ∧ s ≠ ""

/-- A text, or something that counts as false. -/
def IsTextOrFalse (v : Value) : Prop := v.truthy = false ∨ ∃ s, v.head = .string s

def IsMapOrFalse (v : Value) : Prop := v.truthy = false ∨ ∃ es, v.head = .map es

def IsIndentation (v : Value) : Prop :=
  v.head = .null ∨ v.head = .string "tab" ∨ ∃ n, v.head = .int n ∧ 0 < n

/-- A section about building that says what is built and where to, where it has to. -/
structure PlacedSection (needed : Bool) (build : Fields) : Prop where
  entry : if needed then IsSomeTexts (Fields.get build "entry")
    else IsTexts (Fields.get build "entry")
  output : if needed then IsSomeText (Fields.get build "output")
    else IsTextOrFalse (Fields.get build "output")

structure WellFormedSection (needed : Bool) (build : Fields) :
    Prop extends PlacedSection needed build where
  indent : IsIndentation (Fields.get build "indent")

structure WellFormedManifest (needed : Bool) (data : Fields) : Prop where
  build : (∃ build, (Fields.get data sectionName).head = .map build ∧
    WellFormedSection needed build) ∨
    needed = false ∧ (Fields.get data sectionName).head = .null
  tools : IsMapOrFalse (Fields.get data "tools")
  dependencies : IsTexts (Fields.get data "dependencies")

/-- What is looked at in a manifest before its places are followed. -/
structure NamesPlaces (needed : Bool) (data : Fields) : Prop where
  build : (∃ build, (Fields.get data sectionName).head = .map build ∧ PlacedSection needed build) ∨
    needed = false ∧ (Fields.get data sectionName).head = .null
  tools : IsMapOrFalse (Fields.get data "tools")

def buildFields (data : Fields) : Fields :=
  match (Fields.get data sectionName).head with
  | .map build => build
  | _ => []

def entryTexts (v : Value) : List String :=
  match v.head with
  | .string s => [s]
  | .list vs => vs.filterMap Value.asText?
  | _ => []

def outputText (v : Value) : String :=
  match v.head with
  | .string s => if s = "" then defaultOutput else s
  | _ => defaultOutput

/-- The texts of a manifest that are taken for places, in the order in which they are followed. -/
def placeTexts (data : Fields) : List String :=
  entryTexts (Fields.get (buildFields data) "entry") ++
    [outputText (Fields.get (buildFields data) "output")]

/-! ## Truth -/

theorem truthy_of_string {v : Value} {s : String} (h : v.head = .string s) :
    v.truthy = true ↔ s ≠ "" := by
  simp [Value.truthy, h]

theorem truthy_of_texts {v : Value} {ss : List String} (h : v.head = .list (ss.map Value.string)) :
    v.truthy = true ↔ ss ≠ [] := by
  simp [Value.truthy, h]

theorem isSomeTexts_iff {v : Value} : IsSomeTexts v ↔ v.truthy = true ∧ IsTexts v := by
  constructor
  · rintro (⟨s, hs, hne⟩ | ⟨ss, hss, hne⟩)
    · exact ⟨(truthy_of_string hs).mpr hne, .inr (.inl ⟨s, hs⟩)⟩
    · exact ⟨(truthy_of_texts hss).mpr hne, .inr (.inr ⟨ss, hss⟩)⟩
  · rintro ⟨htruthy, hnull | ⟨s, hs⟩ | ⟨ss, hss⟩⟩
    · simp [Value.truthy, hnull] at htruthy
    · exact .inl ⟨s, hs, (truthy_of_string hs).mp htruthy⟩
    · exact .inr ⟨ss, hss, (truthy_of_texts hss).mp htruthy⟩

theorem isSomeText_iff {v : Value} : IsSomeText v ↔ v.truthy = true ∧ IsTextOrFalse v := by
  constructor
  · rintro ⟨s, hs, hne⟩
    exact ⟨(truthy_of_string hs).mpr hne, .inr ⟨s, hs⟩⟩
  · rintro ⟨htruthy, hfalse | ⟨s, hs⟩⟩
    · rw [hfalse] at htruthy
      cases htruthy
    · exact ⟨s, hs, (truthy_of_string hs).mp htruthy⟩

/-- A needed section is one that would do anyway and in which neither the entry nor the output
counts as false. -/
theorem placedSection_iff {needed : Bool} {build : Fields} :
    PlacedSection needed build ↔
      (needed = true → (Fields.get build "entry").truthy = true ∧
        (Fields.get build "output").truthy = true) ∧
        IsTexts (Fields.get build "entry") ∧ IsTextOrFalse (Fields.get build "output") := by
  cases needed with
  | false =>
    refine ⟨fun ⟨he, ho⟩ => ⟨fun h => absurd h Bool.false_ne_true, he, ho⟩, ?_⟩
    exact fun ⟨_, he, ho⟩ => ⟨he, ho⟩
  | true =>
    constructor
    · rintro ⟨he, ho⟩
      obtain ⟨hentry, htexts⟩ := isSomeTexts_iff.mp he
      obtain ⟨houtput, htext⟩ := isSomeText_iff.mp ho
      exact ⟨fun _ => ⟨hentry, houtput⟩, htexts, htext⟩
    · rintro ⟨htruthy, htexts, htext⟩
      obtain ⟨hentry, houtput⟩ := htruthy rfl
      exact ⟨isSomeTexts_iff.mpr ⟨hentry, htexts⟩, isSomeText_iff.mpr ⟨houtput, htext⟩⟩

theorem wellFormedManifest_iff {needed : Bool} {data : Fields} :
    WellFormedManifest needed data ↔
      NamesPlaces needed data ∧ IsTexts (Fields.get data "dependencies") ∧
        IsIndentation (Fields.get (buildFields data) "indent") := by
  constructor
  · rintro ⟨⟨build, hbuild, hplaced, hindent⟩ | ⟨hneeded, hnull⟩, htools, hdependencies⟩
    · exact ⟨⟨.inl ⟨build, hbuild, hplaced⟩, htools⟩, hdependencies, by rwa [buildFields, hbuild]⟩
    · exact ⟨⟨.inr ⟨hneeded, hnull⟩, htools⟩, hdependencies,
        by rw [buildFields, hnull]; exact .inl rfl⟩
  · rintro ⟨⟨⟨build, hbuild, hplaced⟩ | hnone, htools⟩, hdependencies, hindent⟩
    · rw [buildFields, hbuild] at hindent
      exact ⟨.inl ⟨build, hbuild, hplaced, hindent⟩, htools, hdependencies⟩
    · exact ⟨.inr hnone, htools, hdependencies⟩

/-! ## Steps of loading -/

/-- A step of loading that gives a result just if a condition holds, and fails with the faults that
another one names. In all other cases there is an error about the manifest. -/
structure Decides {α : Type} (manifest : Path) (P : Prop) (F : Fault → Prop)
    (x : Except Failure α) : Prop where
  returns_iff : (∃ a, x = .ok a) ↔ P
  faults_iff : ∀ f, x = .error (.fault f) ↔ F f
  complains : ¬P → (∀ f, ¬F f) →
    ∃ message, x = .error (.error (.config message (some manifest.text)))

def noFault : Fault → Prop := fun _ => False

namespace Decides

variable {α β : Type} {manifest : Path} {P Q : Prop} {F G : Fault → Prop} {x : Except Failure α}
  {f : α → Except Failure β}

theorem ok (h : P) (a : α) : Decides manifest P noFault (.ok a : Except Failure α) where
  returns_iff := iff_of_true ⟨a, rfl⟩ h
  faults_iff _ := iff_of_false (fun h => by cases h) id
  complains hnot _ := absurd h hnot

theorem complaint (h : ¬P) (message : String) :
    Decides manifest P noFault (complaint manifest message : Except Failure α) where
  returns_iff := iff_of_false (fun ⟨_, heq⟩ => by cases heq) h
  faults_iff _ := iff_of_false (fun h => by cases h) id
  complains _ _ := ⟨message, rfl⟩

theorem congr (h : Decides manifest P F x) (hP : P ↔ Q) (hF : ∀ f, F f ↔ G f) :
    Decides manifest Q G x where
  returns_iff := h.returns_iff.trans hP
  faults_iff f := (h.faults_iff f).trans (hF f)
  complains hnot hno := h.complains (mt hP.mp hnot) fun f => mt (hF f).mp (hno f)

/-- The faults of a second step show only behind a first one that gives a result. -/
theorem bind (hx : Decides manifest P F x) (hf : ∀ a, x = .ok a → Decides manifest Q G (f a)) :
    Decides manifest (P ∧ Q) (fun g => F g ∨ P ∧ G g) (x >>= f) := by
  cases hcase : x with
  | ok a =>
    have hp : P := hx.returns_iff.mp ⟨a, hcase⟩
    have hno : ∀ g, ¬F g := fun g hg => by
      rw [(hx.faults_iff g).mpr hg] at hcase
      cases hcase
    refine (hf a hcase).congr (and_iff_right hp).symm fun g => ?_
    rw [or_iff_right (hno g), and_iff_right hp]
  | error e =>
    have hnot : ¬P := fun hp => by
      obtain ⟨a, ha⟩ := hx.returns_iff.mpr hp
      rw [hcase] at ha
      cases ha
    refine ⟨iff_of_false (fun ⟨_, h⟩ => by cases h) fun h => hnot h.1, fun g => ?_, fun _ hno => ?_⟩
    · rw [or_iff_left fun h => hnot h.1, ← hx.faults_iff g, hcase]
      exact ⟨fun h => by cases h; rfl, fun h => by cases h; rfl⟩
    · obtain ⟨message, hmessage⟩ := hx.complains hnot fun g hg => hno g (.inl hg)
      rw [hcase] at hmessage
      cases hmessage
      exact ⟨message, rfl⟩

theorem bind_noFault (hx : Decides manifest P F x)
    (hf : ∀ a, x = .ok a → Decides manifest Q noFault (f a)) :
    Decides manifest (P ∧ Q) F (x >>= f) :=
  (hx.bind hf).congr Iff.rfl fun _ => or_iff_left And.right

theorem bind_of_noFault (hx : Decides manifest P noFault x)
    (hf : ∀ a, x = .ok a → Decides manifest Q G (f a)) :
    Decides manifest (P ∧ Q) (fun g => P ∧ G g) (x >>= f) :=
  (hx.bind hf).congr Iff.rfl fun _ => or_iff_right id

theorem bind_ok (hx : Decides manifest P noFault x) (g : α → β) :
    Decides manifest P noFault (x >>= fun a => .ok (g a)) :=
  (hx.bind_noFault fun a _ => ok trivial (g a)).congr (and_iff_left trivial) fun _ => Iff.rfl

end Decides

section Steps

variable {manifest : Path} {name : String} {v : Value} {data build : Fields}

theorem mapM_asText?_eq_some_iff {vs : List Value} {ss : List String} :
    vs.mapM Value.asText? = some ss ↔ vs = ss.map Value.string := by
  induction vs generalizing ss with
  | nil => simp [eq_comm]
  | cons v vs ih =>
    rw [List.mapM_cons]
    constructor
    · intro h
      obtain ⟨s, hs, h⟩ := Option.bind_eq_some_iff.mp h
      obtain ⟨rest, hrest, h⟩ := Option.bind_eq_some_iff.mp h
      cases h
      cases v with
      | string s' =>
        cases hs
        rw [ih.mp hrest, List.map_cons]
      | _ => cases hs
    · intro h
      cases ss with
      | nil => cases h
      | cons s ss =>
        obtain ⟨rfl, hrest⟩ := List.cons.inj h
        rw [ih.mpr hrest]
        rfl

theorem decides_textsOf : Decides manifest (IsTexts v) noFault (textsOf manifest name v) := by
  unfold textsOf
  cases hv : v.head with
  | null => exact .ok (.inl hv) _
  | string s => exact .ok (.inr (.inl ⟨s, hv⟩)) _
  | list vs =>
    cases hvs : vs.mapM Value.asText? with
    | some ss =>
      have htexts : v.head = .list (ss.map Value.string) :=
        by rw [hv, mapM_asText?_eq_some_iff.mp hvs]
      simp only [hvs]
      exact .ok (.inr (.inr ⟨ss, htexts⟩)) _
    | none =>
      simp only [hvs]
      refine .complaint ?_ _
      rintro (h | ⟨s, h⟩ | ⟨ss, h⟩)
      · simp [hv] at h
      · simp [hv] at h
      · rw [hv] at h
        rw [mapM_asText?_eq_some_iff.mpr (Value.list.inj h)] at hvs
        cases hvs
  | _ => exact .complaint (by simp [IsTexts, hv]) _

theorem entryTexts_of_textsOf {ss : List String} (h : textsOf manifest name v = .ok ss) :
    entryTexts v = ss := by
  unfold textsOf at h
  unfold entryTexts
  cases hv : v.head with
  | list vs =>
    rw [hv] at h
    cases hvs : vs.mapM Value.asText? with
    | none =>
      simp only [hvs] at h
      cases h
    | some texts =>
      simp only [hvs] at h
      cases h
      rw [mapM_asText?_eq_some_iff.mp hvs]
      exact List.filterMap_map.trans List.filterMap_some
  | null =>
    rw [hv] at h
    cases h
    rfl
  | string text =>
    rw [hv] at h
    cases h
    rfl
  | _ =>
    rw [hv] at h
    cases h

/-- Where something else than the value asked for has to count as false. -/
theorem decides_unless_truthy {α : Type} {P : Prop} (hnot : ¬P) (message : String) (a : α) :
    Decides manifest (v.truthy = false ∨ P) noFault
      (if v.head.truthy then complaint manifest message else .ok a) := by
  rw [Value.truthy_head]
  by_cases htruthy : v.truthy = true
  · rw [if_pos htruthy]
    exact .complaint (by simp [htruthy, hnot]) message
  · rw [if_neg htruthy]
    exact .ok (.inl (Bool.eq_false_iff.mpr htruthy)) a

theorem decides_outputOf :
    Decides manifest (IsTextOrFalse (Fields.get build "output")) noFault
      (outputOf manifest build) := by
  unfold outputOf
  split
  · next s hs => exact .ok (.inr ⟨s, hs⟩) _
  · next hno => exact decides_unless_truthy (not_exists.mpr hno) _ _

theorem decides_toolsOf :
    Decides manifest (IsMapOrFalse (Fields.get data "tools")) noFault (toolsOf manifest data) := by
  unfold toolsOf
  split
  · next es hes => exact .ok (.inr ⟨es, hes⟩) _
  · next hno => exact decides_unless_truthy (not_exists.mpr hno) _ _

theorem outputText_of_outputOf {s : String} (h : outputOf manifest build = .ok s) :
    outputText (Fields.get build "output") = s := by
  unfold outputOf at h
  unfold outputText
  cases hv : (Fields.get build "output").head with
  | string text =>
    rw [hv] at h
    simp only [beq_iff_eq] at h
    exact Except.ok.inj h
  | _ =>
    simp only [hv] at h
    split at h
    · cases h
    · exact Except.ok.inj h

theorem decides_indented {o : Script.Options} :
    Decides manifest (v = .null ∨ v = .string "tab" ∨ ∃ n, v = .int n ∧ 0 < n) noFault
      (indented manifest o v) := by
  unfold indented
  split
  · exact .ok (.inl rfl) _
  · exact .ok (.inr (.inl rfl)) _
  · next n =>
    by_cases hn : 0 < n
    · rw [if_pos hn]
      exact .ok (.inr (.inr ⟨n, rfl, hn⟩)) _
    · rw [if_neg hn]
      exact .complaint (by simp [hn]) _
  · next hnull htab hint =>
    refine .complaint ?_ _
    rintro (h | h | ⟨n, h, -⟩)
    · exact hnull h
    · exact htab h
    · exact hint n h

theorem decides_optionsOf :
    Decides manifest (IsIndentation (Fields.get build "indent")) noFault
      (optionsOf manifest build) :=
  decides_indented.bind_ok _

end Steps

/-! ## Places -/

section Places

variable [Resolver] {root : Path} {s : String} {ss : List String} {f : Fault}

/-- A text that leads somewhere from a root. -/
def Resolves (root : Path) (s : String) : Prop := ∃ p, place root s = .ok p

/-- The fault of the first of some texts that leads nowhere. -/
def FirstFault (root : Path) (ss : List String) (f : Fault) : Prop :=
  ∃ before s after, ss = before ++ s :: after ∧ (∀ b ∈ before, Resolves root b) ∧
    place root s = .error (.fault f)

theorem resolves_or (root : Path) (s : String) :
    Resolves root s ∨ ∃ f, place root s = .error (.fault f) := by
  rw [Resolves, place]
  cases Resolver.resolve (root.join (.parse s)) with
  | ok p => exact .inl ⟨p, rfl⟩
  | error f => exact .inr ⟨f, rfl⟩

theorem firstFault_nil : ¬FirstFault root [] f := by
  rintro ⟨before, s, after, heq, -⟩
  simp at heq

theorem firstFault_cons :
    FirstFault root (s :: ss) f ↔ place root s = .error (.fault f) ∨ Resolves root s ∧
      FirstFault root ss f := by
  constructor
  · rintro ⟨before, t, after, heq, hbefore, hfault⟩
    cases before with
    | nil =>
      obtain ⟨rfl, -⟩ := List.cons.inj heq
      exact .inl hfault
    | cons b before =>
      obtain ⟨rfl, rfl⟩ := List.cons.inj heq
      obtain ⟨hs, hbefore⟩ := List.forall_mem_cons.mp hbefore
      exact .inr ⟨hs, before, t, after, rfl, hbefore, hfault⟩
  · rintro (hfault | ⟨hs, before, t, after, rfl, hbefore, hfault⟩)
    · exact ⟨[], s, ss, rfl, List.forall_mem_nil _, hfault⟩
    · exact ⟨s :: before, t, after, rfl, List.forall_mem_cons.mpr ⟨hs, hbefore⟩, hfault⟩

theorem firstFault_singleton : FirstFault root [s] f ↔ place root s = .error (.fault f) := by
  rw [firstFault_cons, or_iff_left fun h => firstFault_nil h.2]

theorem firstFault_append {ts : List String} :
    FirstFault root (ss ++ ts) f ↔ FirstFault root ss f ∨ (∀ s ∈ ss, Resolves root s) ∧
      FirstFault root ts f := by
  induction ss with
  | nil => simp [firstFault_nil]
  | cons s ss ih =>
    rw [List.cons_append, firstFault_cons, firstFault_cons, ih, List.forall_mem_cons, and_or_left,
      or_assoc, and_assoc]

theorem FirstFault.not_resolves (h : FirstFault root ss f) : ¬∀ s ∈ ss, Resolves root s := by
  intro hall
  obtain ⟨before, s, after, rfl, -, hfault⟩ := h
  obtain ⟨p, hp⟩ := hall s (by simp)
  rw [hfault] at hp
  cases hp

theorem decides_place (manifest root : Path) (s : String) :
    Decides manifest (Resolves root s) (fun f => place root s = .error (.fault f))
      (place root s) where
  returns_iff := Iff.rfl
  faults_iff _ := Iff.rfl
  complains hnot hno := by
    rcases resolves_or root s with hs | ⟨f, hf⟩
    · exact absurd hs hnot
    · exact absurd hf (hno f)

theorem decides_mapM_place (manifest root : Path) (ss : List String) :
    Decides manifest (∀ s ∈ ss, Resolves root s) (FirstFault root ss) (ss.mapM (place root)) := by
  induction ss with
  | nil => exact (Decides.ok (List.forall_mem_nil _) _).congr Iff.rfl fun f =>
      iff_of_false id firstFault_nil
  | cons s ss ih =>
    rw [List.mapM_cons]
    have hrest (p : Path) := ih.bind_noFault fun ps _ => .ok trivial (p :: ps)
    refine ((decides_place manifest root s).bind fun p _ => hrest p).congr ?_ fun f =>
      firstFault_cons.symm
    rw [List.forall_mem_cons, and_iff_left trivial]

end Places

/-! ## Whole manifests -/

section Whole

variable {root manifest : Path} {needed : Bool} {data build : Fields}

/-- A section about building that is complete where it has to be, or none where none is needed. -/
def HasSection (needed : Bool) (data : Fields) : Prop :=
  (∃ build, (Fields.get data sectionName).head = .map build ∧
    (needed = true → (Fields.get build "entry").truthy = true ∧
      (Fields.get build "output").truthy = true)) ∨
  needed = false ∧ (Fields.get data sectionName).head = .null

theorem decides_buildSection :
    Decides manifest (HasSection needed data) noFault (buildSection manifest needed data) := by
  unfold buildSection HasSection
  cases hdata : (Fields.get data sectionName).head with
  | map build =>
    have hmissing : (needed && !((Fields.get build "entry").truthy &&
        (Fields.get build "output").truthy)) = true ↔
        ¬(needed = true → (Fields.get build "entry").truthy = true ∧
          (Fields.get build "output").truthy = true) := by
      cases needed <;> cases (Fields.get build "entry").truthy <;> simp
    by_cases hcomplete : needed = true →
        (Fields.get build "entry").truthy = true ∧ (Fields.get build "output").truthy = true
    · simp only [if_neg (mt hmissing.mp (not_not_intro hcomplete))]
      exact .ok (.inl ⟨build, rfl, hcomplete⟩) build
    · simp only [if_pos (hmissing.mpr hcomplete)]
      refine .complaint ?_ _
      rintro (⟨_, heq, h⟩ | ⟨-, h⟩)
      · cases heq
        exact hcomplete h
      · cases h
  | null =>
    cases needed with
    | false => exact .ok (.inr ⟨rfl, rfl⟩) []
    | true => exact .complaint (by simp) _
  | _ => exact .complaint (by simp) _

theorem buildFields_of_buildSection (h : buildSection manifest needed data = .ok build) :
    buildFields data = build := by
  unfold buildSection at h
  unfold buildFields
  cases hdata : (Fields.get data sectionName).head with
  | map fields =>
    simp only [hdata] at h
    split at h
    · cases h
    · exact Except.ok.inj h
  | null =>
    simp only [hdata] at h
    split at h
    · cases h
    · exact Except.ok.inj h
  | _ =>
    simp only [hdata] at h
    cases h

theorem namesPlaces_iff :
    NamesPlaces needed data ↔
      HasSection needed data ∧ IsTexts (Fields.get (buildFields data) "entry") ∧
        IsTextOrFalse (Fields.get (buildFields data) "output") ∧
          IsMapOrFalse (Fields.get data "tools") := by
  constructor
  · rintro ⟨⟨build, hbuild, hplaced⟩ | ⟨hneeded, hnull⟩, htools⟩
    · obtain ⟨hcomplete, hentry, houtput⟩ := placedSection_iff.mp hplaced
      rw [buildFields, hbuild]
      exact ⟨.inl ⟨build, hbuild, hcomplete⟩, hentry, houtput, htools⟩
    · rw [buildFields, hnull]
      exact ⟨.inr ⟨hneeded, hnull⟩, .inl rfl, .inl rfl, htools⟩
  · rintro ⟨⟨build, hbuild, hcomplete⟩ | hnone, hentry, houtput, htools⟩
    · rw [buildFields, hbuild] at hentry houtput
      exact ⟨.inl ⟨build, hbuild, placedSection_iff.mpr ⟨hcomplete, hentry, houtput⟩⟩, htools⟩
    · exact ⟨.inr hnone, htools⟩

variable [Resolver]

/-- The steps of loading: what names the places, the places, and what is left. -/
theorem decides_steps :
    let build := buildFields data
    let entries := entryTexts (Fields.get build "entry")
    let output := outputText (Fields.get build "output")
    Decides manifest
      (HasSection needed data ∧ IsTexts (Fields.get build "entry") ∧
        IsTextOrFalse (Fields.get build "output") ∧
        IsMapOrFalse (Fields.get data "tools") ∧ (∀ s ∈ entries, Resolves root s) ∧
          Resolves root output ∧
        IsTexts (Fields.get data "dependencies") ∧ IsIndentation (Fields.get build "indent"))
      (fun f => HasSection needed data ∧ IsTexts (Fields.get build "entry") ∧
        IsTextOrFalse (Fields.get build "output") ∧ IsMapOrFalse (Fields.get data "tools") ∧
        (FirstFault root entries f ∨ (∀ s ∈ entries, Resolves root s) ∧
          place root output = .error (.fault f)))
      (ofManifest root manifest needed data) := by
  intro build entries output
  rw [ofManifest]
  refine decides_buildSection.bind_of_noFault fun found hfound => ?_
  obtain rfl : build = found := buildFields_of_buildSection hfound
  refine decides_textsOf.bind_of_noFault fun texts htexts => ?_
  obtain rfl : entries = texts := entryTexts_of_textsOf htexts
  refine decides_outputOf.bind_of_noFault fun text htext => ?_
  obtain rfl : output = text := outputText_of_outputOf htext
  refine decides_toolsOf.bind_of_noFault fun tools _ => ?_
  refine (decides_mapM_place manifest root entries).bind fun ps _ => ?_
  refine (decides_place manifest root output).bind_noFault fun p _ => ?_
  exact decides_textsOf.bind_noFault fun dependencies _ => decides_optionsOf.bind_ok _

theorem decides_ofManifest (root manifest : Path) (needed : Bool) (data : Fields) :
    Decides manifest (WellFormedManifest needed data ∧ ∀ s ∈ placeTexts data, Resolves root s)
      (fun f => NamesPlaces needed data ∧ FirstFault root (placeTexts data) f)
      (ofManifest root manifest needed data) := by
  refine decides_steps.congr ?_ fun f => ?_
  · rw [wellFormedManifest_iff, namesPlaces_iff, placeTexts, List.forall_mem_append,
      List.forall_mem_singleton]
    constructor
    · rintro ⟨hsection, hentry, houtput, htools, hentries, hplace, hrest⟩
      exact ⟨⟨⟨hsection, hentry, houtput, htools⟩, hrest⟩, hentries, hplace⟩
    · rintro ⟨⟨⟨hsection, hentry, houtput, htools⟩, hrest⟩, hentries, hplace⟩
      exact ⟨hsection, hentry, houtput, htools, hentries, hplace, hrest⟩
  · rw [namesPlaces_iff, placeTexts, firstFault_append, firstFault_singleton, and_assoc,
      and_assoc, and_assoc]

end Whole

section Loading

variable {root manifest : Path} {needed : Bool} {data : Fields} [Loader]

theorem has_of_readManifest {t : Tree} (h : readManifest t manifest = .ok data) :
    t.has manifest = true := by
  cases hhas : t.has manifest with
  | true => rfl
  | false =>
    have hnone : t.get? manifest = none := by simpa [Tree.has] using hhas
    rw [readManifest, Tree.read, hnone] at h
    cases h

theorem load_of_readManifest [Resolver] {t : Tree} (h : readManifest t manifest = .ok data) :
    (load t root manifest needed).outcome = ofManifest root manifest needed data := by
  rw [load, if_pos (has_of_readManifest h), h]
  change (Logged.bind ⟨ofManifest root manifest needed data, []⟩ _).outcome = _
  cases hproject : ofManifest root manifest needed data <;> rfl

end Loading

/-- A manifest gives a project just if it is well formed and all of its places can be followed. If
it names its places and one of them cannot be followed, the fault of the first such place is passed
on, also where something behind the places is wrong. In every other case there is an error about the
manifest. -/
theorem ofManifest_returns_iff [Loader] [Resolver] (root manifest : Path) (needed : Bool)
    (data : Fields) :
    ((∃ project, ofManifest root manifest needed data = .ok project) ↔
      WellFormedManifest needed data ∧ ∀ s ∈ placeTexts data, Resolves root s) ∧
    (∀ f, ofManifest root manifest needed data = .error (.fault f) ↔
      NamesPlaces needed data ∧ FirstFault root (placeTexts data) f) ∧
    (¬(WellFormedManifest needed data ∧ ∀ s ∈ placeTexts data, Resolves root s) →
      (∀ f, ¬(NamesPlaces needed data ∧ FirstFault root (placeTexts data) f)) →
      ∃ message, ofManifest root manifest needed data =
        .error (.error (.config message (some manifest.text)))) ∧
    ∀ t, readManifest t manifest = .ok data →
      (load t root manifest needed).outcome = ofManifest root manifest needed data :=
  have h := decides_ofManifest root manifest needed data
  ⟨h.returns_iff, h.faults_iff, h.complains, fun _ => load_of_readManifest⟩

def fullManifest (indent : Value) : Fields :=
  Fields.ofTexts [("dependencies", .string "react"),
    (sectionName, Value.record [("entry", .list [.string "src", .string "a.yml"]),
      ("output", .string "dist"), ("indent", indent)])]

theorem wellFormed_fullManifest : WellFormedManifest true (fullManifest (.int 2)) := by
  refine ⟨.inl ⟨_, rfl, ⟨?_, ?_⟩, ?_⟩, .inl rfl, ?_⟩
  · exact .inr ⟨["src", "a.yml"], rfl, by decide⟩
  · exact ⟨"dist", rfl, by decide⟩
  · exact .inr (.inr ⟨2, rfl, by decide⟩)
  · exact .inr (.inl ⟨"react", rfl⟩)

theorem placeTexts_fullManifest (indent : Value) :
    placeTexts (fullManifest indent) = ["src", "a.yml", "dist"] := rfl

/-- An indentation by two is accepted, by a truth value not; without a section a manifest is
accepted where none is needed. -/
theorem ofManifest_returns_iff_full :
    (∃ project, ofManifest .root (.parse "/app/package.yml") true (fullManifest (.int 2)) =
      .ok project) ∧
    (∃ message, ofManifest .root (.parse "/app/package.yml") true (fullManifest (.bool true)) =
      .error (.error (.config message (some (Path.parse "/app/package.yml").text)))) ∧
    ∃ project, ofManifest .root (.parse "/app/package.yml") false [] = .ok project := by
  have hresolves : ∀ s ∈ ["src", "a.yml", "dist"], Resolves .root s := by
    intro s hs
    simp only [List.mem_cons, List.not_mem_nil, or_false] at hs
    rcases hs with rfl | rfl | rfl <;> exact ⟨_, rfl⟩
  refine ⟨?_, ?_, ?_⟩
  · exact (ofManifest_returns_iff _ _ true _).1.mpr ⟨wellFormed_fullManifest, hresolves⟩
  · refine (ofManifest_returns_iff _ _ true _).2.2.1 ?_ fun f hf => hf.2.not_resolves hresolves
    rintro ⟨⟨⟨build, hbuild, -, hindent⟩ | ⟨hneeded, -⟩, -, -⟩, -⟩
    · cases hbuild
      rcases hindent with h | h | ⟨n, h, -⟩ <;> cases h
    · cases hneeded
  · refine (ofManifest_returns_iff _ _ false []).1.mpr ⟨⟨.inr ⟨rfl, rfl⟩, .inl rfl, .inl rfl⟩,
      fun s hs => ?_⟩
    cases List.mem_singleton.mp hs
    exact ⟨_, rfl⟩

/-- A file system in which nothing of a name can be followed. -/
abbrev unfollowed (name : String) (f : Fault) : Resolver where
  resolve p := if p.name = name then .error f else .ok (Path.root.resolve p)

/-- The output of a well-formed manifest leads back to itself, or has a name that no file can have.
Loading it fails, and not with an error about the manifest. -/
theorem ofManifest_unfollowed :
    WellFormedManifest true (fullManifest (.int 2)) ∧
      (∀ s ∈ placeTexts (fullManifest (.int 2)), '\x00' ∉ s.toList) ∧
      ∀ f, @ofManifest (unfollowed "dist" f) .root (.parse "/app/package.yml") true
        (fullManifest (.int 2)) =
        .error (.fault f) := by
  refine ⟨wellFormed_fullManifest, ?_, fun f => ?_⟩
  · rw [placeTexts_fullManifest]
    decide
  · rfl

end Scriptwright.Project
