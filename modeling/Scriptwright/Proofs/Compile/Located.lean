import Scriptwright.Proofs.Compile.Strict
import Scriptwright.Yaml.Load

/-!
# Where errors come from

A text is compiled in three stages: it is read, its document is checked, and the checked document is
written out. An error of any stage names the source, and is otherwise the error that the stage gives
alone. An error of the first two stages comes before anything is written, so it comes without a
diagnostic and without a warning. All of this holds for every loader, whichever texts it refuses and
whatever it says about them.
-/

namespace Scriptwright

open Script

/-! ## Errors of a check -/

namespace Schema

/-- The errors that a check can give. None of them names a file. -/
inductive IsViolation : Error → Prop where
  | missing (path : String) : IsViolation (.missingField path)
  | mismatch (path expected actual : String) : IsViolation (.typeMismatch path expected actual)
  | unknown (schemaType : String) : IsViolation (.unknownType schemaType)

theorem IsViolation.path {e : Error} (h : IsViolation e) : e.path = none := by
  cases h <;> rfl

namespace Verdict

def OnlyViolations (v : Verdict) : Prop := ∀ e, v.outcome = .error (.error e) → IsViolation e

namespace OnlyViolations

theorem accept : Verdict.accept.OnlyViolations := fun _ h => by cases h

theorem remark (line : String) : (Verdict.remark line).OnlyViolations := fun _ h => by cases h

theorem fault (f : Fault) : (reject (.fault f)).OnlyViolations := fun _ h => by cases h

theorem reject {e : Error} (h : IsViolation e) : (Verdict.reject (.error e)).OnlyViolations := by
  intro e' heq
  cases heq
  exact h

theorem andThen {v : Verdict} {next : Unit → Verdict} (hv : v.OnlyViolations)
    (hnext : (next ()).OnlyViolations) :
    (v.andThen next).OnlyViolations := by
  intro e h
  rw [Verdict.andThen] at h
  cases houtcome : v.outcome with
  | ok u =>
    rw [houtcome] at h
    exact hnext e h
  | error f =>
    rw [houtcome] at h
    exact hv e h

end OnlyViolations

end Verdict

section Mapping

variable {data : Fields} {visit : Visit (Value.map data).depth}
  (hvisit : ∀ d v p h, (visit d v p h).OnlyViolations)
include hvisit

theorem onlyViolations_checkEntries (path : String) (s : Fields) :
    (checkEntries data visit path s).OnlyViolations := by
  induction s with
  | nil => exact .accept
  | cons e s ih =>
    obtain ⟨key, descriptor⟩ := e
    unfold checkEntries
    refine .andThen ?_ ih
    split
    · exact hvisit _ _ _ _
    · split
      · exact .reject (.missing _)
      · exact .accept
    · exact .fault _

theorem onlyViolations_checkFields (path : String) (schema : Value) :
    (checkFields data visit path schema).OnlyViolations := by
  unfold checkFields
  split
  · exact onlyViolations_checkEntries hvisit path _
  · exact .fault _

theorem onlyViolations_checkVariant (path : String) (ref variants : Value) :
    (checkVariant data visit path ref variants).OnlyViolations := by
  unfold checkVariant
  extract_lets kind
  split
  · split
    · split
      · split
        · exact .remark _
        · exact onlyViolations_checkFields hvisit path _
      · exact .fault _
    · exact .fault _
  · exact .accept

theorem onlyViolations_checkDefinition (path : String) (ref definition : Value) :
    (checkDefinition data visit path ref definition).OnlyViolations := by
  unfold checkDefinition
  split
  · refine .andThen (onlyViolations_checkFields hvisit path _) ?_
    split
    · exact onlyViolations_checkFields hvisit path _
    · exact onlyViolations_checkVariant hvisit path ref _
  · exact .fault _

theorem onlyViolations_checkNode (definitions : Value) (path : String) (ref : Value) :
    (checkNode definitions data visit path ref).OnlyViolations := by
  unfold checkNode
  split
  · split
    · split
      · exact .reject (.unknown _)
      · exact onlyViolations_checkDefinition hvisit path ref _
    · exact .fault _
  · exact .fault _

end Mapping

theorem onlyViolations_checkItems {bound : Nat} {visit : Visit bound}
    (hvisit : ∀ d v p h, (visit d v p h).OnlyViolations) (descriptor : Value)
    (path : String) (i : Nat) (items : List Value) (hitems : ∀ v ∈ items, v.depth < bound) :
    (checkItems bound visit descriptor path i items hitems).OnlyViolations := by
  induction items generalizing i with
  | nil => exact .accept
  | cons v vs ih => exact .andThen (hvisit _ _ _ _) (ih _ _)

theorem onlyViolations_checkInside (definitions : Value) (descriptor : Fields) (expected : Value)
    (path : String) (value : Value) (visit : Visit value.depth)
    (hvisit : ∀ d v p h, (visit d v p h).OnlyViolations) :
    (checkInside definitions descriptor expected path value visit).OnlyViolations := by
  unfold checkInside
  split
  · refine .andThen ?_ ?_
    · unfold checkNested
      split
      · exact .accept
      · split
        · exact onlyViolations_checkFields hvisit path _
        · exact .accept
    · unfold checkRef
      split
      · exact .accept
      · exact onlyViolations_checkNode hvisit definitions path _
  · split
    · exact .accept
    · split
      · exact onlyViolations_checkItems hvisit _ path 0 _ _
      · exact .accept
  · exact .accept

theorem isViolation_of_checkType {v expected : Value} {e : Error}
    (h : checkType v expected = .error e) :
    IsViolation e := by
  unfold checkType at h
  split at h
  · cases h
  · cases h
    exact .unknown _

theorem onlyViolations_checkValue (definitions descriptor value : Value) (path : String) :
    (checkValue definitions descriptor value path).OnlyViolations := by
  fun_induction checkValue definitions descriptor value path with
  | case1 => exact .fault _
  | case2 value path d expected hvalue e htype => exact .reject (isViolation_of_checkType htype)
  | case3 => exact .reject (.mismatch _ _ _)
  | case4 value path d expected hvalue htype ih => exact onlyViolations_checkInside _ _ _ _ _ _ ih
  | case5 => exact .fault _

theorem onlyViolations_check (definitions schema data : Value) :
    (check definitions schema data).OnlyViolations := by
  unfold check
  split
  · exact onlyViolations_checkFields
      (fun d v p _ => onlyViolations_checkValue definitions d v p) "" schema
  · exact .reject (.mismatch _ _ _)

end Schema

/-! ## Stages -/

namespace Logged

variable {α β : Type} {x : Logged α} {f : α → Logged β}

theorem bind_of_error {e : Failure} (h : x.outcome = .error e) : x.bind f = ⟨.error e, x.log⟩ := by
  rw [bind, h]

theorem bind_eq_error_iff {e : Failure} :
    (x.bind f).outcome = .error e ↔ x.outcome = .error e ∨ ∃ a, x.outcome = .ok a ∧
      (f a).outcome = .error e := by
  rw [bind]
  cases hx : x.outcome with
  | error e' => simp
  | ok a => simp

end Logged

/-- Whether an error says that a text cannot be read or that its document does not fit a schema. -/
def Cause.isRefusal : Cause → Bool
  | .parse | .schema _ | .missingField _ | .typeMismatch _ _ _ | .unknownType _ => true
  | _ => false

def Error.placed (e : Error) (source : Option String) : Error := { e with path := source }

section Reading

variable {source : Option String} {text : String} {e : Error}

theorem asMapping_eq_error {v : Value} (h : asMapping source v = .error (.error e)) :
    e.cause.isRefusal = true ∧ ∀ other, asMapping other v = .error (.error (e.placed other)) := by
  unfold asMapping at h ⊢
  by_cases hmap : v.isMap = true
  · rw [if_pos hmap] at h
    cases h
  · rw [if_neg hmap] at h
    cases h
    exact ⟨rfl, fun other => if_neg hmap⟩

variable [Loader]

theorem readDocument_of_load {v : Value} (hload : Loader.load text = .ok v) (hv : v ≠ .null) :
    readDocument source text = asMapping source v := by
  rw [readDocument, readValue, hload]
  cases v with
  | null => exact absurd rfl hv
  | _ => rfl

/-- An error about a text depends on the source of the text by its path only. -/
theorem readDocument_eq_error (h : readDocument source text = .error (.error e)) :
    e.cause.isRefusal = true ∧ ∀ other, readDocument other text =
      .error (.error (e.placed other)) := by
  cases hload : Loader.load text with
  | error refusal =>
    simp only [readDocument, readValue, hload] at h ⊢
    cases refusal with
    | malformed detail =>
      cases h
      exact ⟨rfl, fun other => rfl⟩
    | fault f => cases h
  | ok v =>
    by_cases hv : v = .null
    · subst hv
      rw [readDocument, readValue, hload] at h
      cases h
    · rw [readDocument_of_load hload hv] at h
      simp only [readDocument_of_load hload hv]
      exact asMapping_eq_error h

theorem path_of_readDocument (h : readDocument source text = .error (.error e)) :
    e.path = source := by
  have hagain := (readDocument_eq_error h).2 source
  rw [h] at hagain
  rw [Failure.error.inj (Except.error.inj hagain)]
  rfl

end Reading

section Compile

variable {options : Options} {setup : Schema.Setup} {tidying : Source.TidyOptions}
  {source : Option String} {document : Value} {text : String} {e : Error}

theorem isViolation_of_checkDocument
    (h : (checkDocument setup document).outcome = .error (.error e)) :
    Schema.IsViolation e :=
  Schema.onlyViolations_check _ _ _ e h

theorem log_checkDocument {l : Log.Line} (h : l ∈ (checkDocument setup document).log) :
    l.level = .debug ∧ l.speaker = .checker := by
  obtain ⟨m, -, rfl⟩ := List.mem_map.mp h
  exact ⟨rfl, rfl⟩

/-- Writing a document out cannot fail with an error, only with a fault. -/
theorem emitDocument_ne_error {layout : Layout} :
    (emitDocument layout source document).outcome ≠ .error (.error e) := by
  intro h
  simp only [emitDocument] at h
  cases htext : (emitCode layout source (Document.code document)).1 with
  | error f =>
    rw [htext] at h
    cases h
  | ok t =>
    rw [htext] at h
    cases h

/-- A compilation of a document fails with an error because the document does not fit, or because it
has diagnostics that a strict compilation refuses. -/
theorem compileDocument_eq_error
    (h : (compileDocument options setup tidying source document).outcome = .error (.error e)) :
    (checkDocument setup document).outcome = .error (.error e) ∨ (∃ ds, e.cause = .strict ds) ∧
      e.path = source := by
  rw [compileDocument_eq_bind_verdict, Logged.bind_eq_error_iff] at h
  rcases h with h | ⟨c, hc, h⟩
  · rcases Logged.bind_eq_error_iff.mp h with h | ⟨_, -, h⟩
    · exact .inl h
    · rcases Logged.bind_eq_error_iff.mp h with h | ⟨_, -, h⟩
      · exact absurd h emitDocument_ne_error
      · cases h
  · have hverdict : c.verdict options.strict = .error (.error e) := h
    rw [Compiled.verdict] at hverdict
    split at hverdict
    · cases hverdict
      exact .inr ⟨⟨_, rfl⟩, source_of_writeDocument _ _ _ _ hc⟩
    · cases hverdict

theorem compileDocument_of_unfit {f : Failure}
    (h : (checkDocument setup document).outcome = .error f) :
    compileDocument options setup tidying source document =
      ⟨.error f, (checkDocument setup document).log⟩ :=
  Logged.bind_of_error h

/-! ## Whole compilations -/

variable [Loader]

theorem compileText_of_unread {f : Failure} (h : readDocument source text = .error f) :
    compileText options setup tidying source text = ⟨.error f, []⟩ :=
  Logged.bind_of_error h

theorem compileText_of_read (h : readDocument source text = .ok document) :
    compileText options setup tidying source text =
      (compileDocument options setup tidying source document).locate source := by
  rw [compileText, Logged.ofExcept, Logged.bind, h]
  rfl

end Compile

/-- An error of one of the stages alone: of reading, under whatever name, or of compiling what was
read. -/
def RaisedAlone [Loader] (options : Options) (setup : Schema.Setup) (tidying : Source.TidyOptions)
    (source : Option String) (text : String) (e : Error) : Prop :=
  (∃ name, readDocument name text = .error (.error e)) ∨
    ∃ document, readDocument source text = .ok document ∧
      (compileDocument options setup tidying source document).outcome = .error (.error e)

section Located

variable {source : String} {e : Error}

theorem Error.locate_eq_placed (hsource : source ≠ "") (h : e.path = none ∨ e.path = some source) :
    e.locate (some source) = e.placed (some source) := by
  have hinked : Error.inked (some source) = [source] := by simp [Error.inked, hsource]
  obtain ⟨cause, message, path, code, hint⟩ := e
  rcases h with h | h
  · cases h
    rw [Error.locate, hinked]
    rfl
  · cases h
    rw [Error.locate, hinked]
    rfl

theorem outcome_locate_eq_error_iff {x : Logged Compiled} :
    (x.locate (some source)).outcome = .error (.error e) ↔
      ∃ e₀, x.outcome = .error (.error e₀) ∧ e = e₀.locate (some source) := by
  rw [Logged.locate]
  cases hx : x.outcome with
  | ok c =>
    constructor
    · intro h
      cases h
    · rintro ⟨_, h, -⟩
      cases h
  | error f =>
    cases f with
    | error e₀ =>
      constructor
      · intro h
        cases h
        exact ⟨e₀, rfl, rfl⟩
      · rintro ⟨_, h, rfl⟩
        cases h
        rfl
    | _ =>
      constructor
      · intro h
        cases h
      · rintro ⟨_, h, -⟩
        cases h

variable {options : Options} {setup : Schema.Setup} {tidying : Source.TidyOptions} {text : String}
  {document : Value}

theorem locate_of_compileDocument (hsource : source ≠ "")
    (h : (compileDocument options setup tidying (some source) document).outcome =
      .error (.error e)) :
    e.locate (some source) = e.placed (some source) := by
  apply Error.locate_eq_placed hsource
  rcases compileDocument_eq_error h with hcheck | ⟨-, hpath⟩
  · exact .inl (isViolation_of_checkDocument hcheck).path
  · exact .inr hpath

variable [Loader]

theorem compileText_eq_error_iff (hsource : source ≠ "") :
    (compileText options setup tidying (some source) text).outcome = .error (.error e) ↔
      ∃ e₀, RaisedAlone options setup tidying (some source) text e₀ ∧
        e = e₀.placed (some source) := by
  cases hread : readDocument (some source) text with
  | error f =>
    rw [compileText_of_unread hread]
    constructor
    · intro h
      cases h
      refine ⟨e, .inl ⟨some source, hread⟩, ?_⟩
      rw [Error.placed, ← path_of_readDocument hread]
    · rintro ⟨e₀, ⟨name, hname⟩ | ⟨document, hdocument, -⟩, rfl⟩
      · have hagain := (readDocument_eq_error hname).2 (some source)
        rw [hread] at hagain
        rw [Except.error.inj hagain]
      · rw [hread] at hdocument
        cases hdocument
  | ok document =>
    rw [compileText_of_read hread, outcome_locate_eq_error_iff]
    constructor
    · rintro ⟨e₀, h, rfl⟩
      exact ⟨e₀, .inr ⟨document, hread, h⟩, locate_of_compileDocument hsource h⟩
    · rintro ⟨e₀, ⟨name, hname⟩ | ⟨document', hdocument, h⟩, rfl⟩
      · rw [(readDocument_eq_error hname).2 (some source)] at hread
        cases hread
      · rw [hread] at hdocument
        cases hdocument
        exact ⟨e₀, h, (locate_of_compileDocument hsource h).symm⟩

/-- A text is refused before its document is written out: because it cannot be read, or by the
check. -/
theorem refused_of_compileText (hsource : source ≠ "")
    (h : (compileText options setup tidying (some source) text).outcome = .error (.error e))
    (hrefusal : e.cause.isRefusal = true) :
    (∃ f, readDocument (some source) text = .error f) ∨
      ∃ document f, readDocument (some source) text = .ok document ∧
        (checkDocument setup document).outcome = .error f := by
  cases hread : readDocument (some source) text with
  | error f => exact .inl ⟨f, rfl⟩
  | ok document =>
    rw [compileText_of_read hread, outcome_locate_eq_error_iff] at h
    obtain ⟨e₀, h, rfl⟩ := h
    rw [locate_of_compileDocument hsource h, Error.placed] at hrefusal
    rcases compileDocument_eq_error h with hcheck | ⟨⟨ds, hstrict⟩, -⟩
    · exact .inr ⟨document, _, rfl, hcheck⟩
    · rw [hstrict] at hrefusal
      cases hrefusal

end Located

/-- Errors of a compilation are those of its stages alone, and name the source. Those of the first
two stages come before anything is written out, with remarks of the check at most, and whatever the
options for writing and tidying are. -/
theorem compileText_located [Loader] (options : Options) (setup : Schema.Setup)
    (tidying : Source.TidyOptions) (source : String) (hsource : source ≠ "")
    (text : String) (e : Error) :
    ((compileText options setup tidying (some source) text).outcome = .error (.error e) ↔
      ∃ e₀, RaisedAlone options setup tidying (some source) text e₀ ∧
        e = { e₀ with path := some source }) ∧
    ((compileText options setup tidying (some source) text).outcome = .error (.error e) →
      e.cause.isRefusal = true →
      ((∃ f, readDocument (some source) text = .error f) ∨
        ∃ document f, readDocument (some source) text = .ok document ∧
          (checkDocument setup document).outcome = .error f) ∧
      (∀ l ∈ (compileText options setup tidying (some source) text).log, l.level = .debug ∧
        l.speaker = .checker) ∧
      ∀ options' tidying', compileText options' setup tidying' (some source) text =
        compileText options setup tidying (some source) text) := by
  refine ⟨compileText_eq_error_iff hsource, fun h hrefusal => ?_⟩
  have hrefused := refused_of_compileText hsource h hrefusal
  refine ⟨hrefused, ?_⟩
  rcases hrefused with ⟨f, hread⟩ | ⟨document, f, hread, hcheck⟩
  · simp only [compileText_of_unread hread]
    exact ⟨fun l hl => absurd hl List.not_mem_nil, fun _ _ => trivial⟩
  · simp only [compileText_of_read hread, compileDocument_of_unfit hcheck]
    exact ⟨fun l hl => log_checkDocument hl, fun _ _ => trivial⟩

def nameRequired : Schema.Setup where
  schema :=
    Value.record [("name", Value.record [("type", .string "string"), ("required", .bool true)])]
  definitions := .map []

/-- A text that is no YAML, and an empty one whose document has no name. -/
theorem compileText_located_unnamed :
    (∃ e, (compileText {} nameRequired {} (some "a.yml") "]").outcome = .error (.error e) ∧
      e.cause = .parse ∧
      e.path = some "a.yml") ∧
    ∃ e, (compileText {} nameRequired {} (some "a.yml") "").outcome = .error (.error e) ∧
      e.cause = .missingField "name" ∧ e.path = some "a.yml" ∧
      compileText { strict := true } nameRequired {} (some "a.yml") "" =
        compileText {} nameRequired {} (some "a.yml") "" := by
  constructor
  · have hread : readDocument none "]" =
        .error (.error (.parse ("Invalid YAML" ++ ": " ++ Yaml.detail) none)) := by
      with_unfolding_all rfl
    have hlocated := compileText_located {} nameRequired {} "a.yml" (by decide) "]"
    exact ⟨_, (hlocated _).1.mpr ⟨_, .inl ⟨none, hread⟩, rfl⟩, rfl, rfl⟩
  · have hread : readDocument (some "a.yml") "" = .ok (.map []) := by with_unfolding_all rfl
    have hcheck : (checkDocument nameRequired (.map [])).outcome =
        .error (.error (.missingField "name")) := rfl
    have hcompile : (compileDocument {} nameRequired {} (some "a.yml") (.map [])).outcome =
        .error (.error (.missingField "name")) := by rw [compileDocument_of_unfit hcheck]
    obtain ⟨hraised, hbefore⟩ := compileText_located {} nameRequired {} "a.yml" (by decide) ""
      { Error.missingField "name" with path := some "a.yml" }
    have houtcome := hraised.mpr ⟨_, .inr ⟨_, hread, hcompile⟩, rfl⟩
    exact ⟨_, houtcome, rfl, rfl, (hbefore houtcome rfl).2.2 _ _⟩

end Scriptwright
