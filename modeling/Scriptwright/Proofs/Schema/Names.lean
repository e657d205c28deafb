import Scriptwright.Proofs.Schema.Acceptance

/-!
# Names given in two ways

Where a schema refers to names, a name may be given as a bare text or as a mapping that has the text
as its name. The check accepts the one wherever it accepts the other. `At` tells the places that a
schema describes, and `Renamed` changes the way in which the name at a place is given.
-/

namespace Scriptwright

theorem Value.sameKey_string (k : Value) (name : String) :
    k.sameKey (.string name) = k.isKey name := by
  cases k with
  | string s => rfl
  | _ => simp [sameKey, sameKey.number?, isKey]

theorem Fields.get?_insert (es : Fields) (f g : String) (v : Value) :
    get? (insert es (.string f) v) g = if g = f then some v else get? es g := by
  induction es with
  | nil =>
    by_cases h : g = f
    · simp [insert, get?, Value.isKey, h]
    · simp [insert, get?, Value.isKey, h, Ne.symm h]
  | cons e es ih =>
    obtain ⟨k, w⟩ := e
    rw [insert, Value.sameKey_string]
    cases hf : k.isKey f with
    | true =>
      obtain rfl := Schema.isKey_iff.mp hf
      by_cases h : g = f
      · simp [get?, Value.isKey, h]
      · simp [get?, Value.isKey, h, Ne.symm h]
    | false =>
      rw [if_neg Bool.false_ne_true, get?, get?, ih]
      by_cases h : g = f
      · rw [h, if_pos rfl, if_pos rfl, hf, if_neg Bool.false_ne_true]
      · rw [if_neg h, if_neg h]

namespace Schema

def named (x : String) : Value := .record [("name", .string x)]

/-- A place in a mapping: a field of it, or a place in the mapping or in an item that a field holds.
-/
inductive Place where
  | field (f : String)
  | inside (f : String) (p : Place)
  | item (f : String) (p : Place)
deriving DecidableEq

def Place.first : Place → String
  | .field f | .inside f _ | .item f _ => f

/-- Whether a schema describes a field by a descriptor, and by no other. -/
def Describes (s : Fields) (f : String) (d : Fields) : Prop :=
  (.string f, .map d) ∈ s ∧ ∀ e ∈ s, e.1.display = f → e.2 = .map d

/-- The descriptor of a place. -/
inductive At : Fields → Place → Fields → Prop where
  | field {s d : Fields} {f : String} (h : Describes s f d) : At s (.field f) d
  | inside {s d s' d' : Fields} {f : String} {p : Place} (h : Describes s f d)
    (htype : declaredType d = .string "object") (hschema : Fields.get d "schema" = .map s')
    (href : Fields.get d "ref" = .null) (hp : At s' p d') : At s (.inside f p) d'
  | item {s d i s' d' : Fields} {f : String} {p : Place} (h : Describes s f d)
    (htype : declaredType d = .string "array") (hitem : Fields.get d "schema" = .map i)
    (hobject : declaredType i = .string "object") (hschema : Fields.get i "schema" = .map s')
    (href : Fields.get i "ref" = .null) (hp : At s' p d') : At s (.item f p) d'

theorem depth_schema_lt {s d inner : Fields} {f : Value} (he : (f, .map d) ∈ s)
    (h : Fields.get d "schema" = .map inner) : (Value.map inner).depth < (Value.map s).depth := by
  have hinner := Fields.depth_get_lt d "schema"
  have hd : (Value.map d).depth ≤ Value.depthOfEntries s := (Value.depth_le_of_mem_entries he).2
  rw [h] at hinner
  have hs : (Value.map s).depth = Value.depthOfEntries s + 1 := rfl
  omega

def places (s : Fields) : List (Place × Fields) :=
  s.attach.flatMap fun ⟨e, he⟩ =>
    match e, he with
    | (.string f, .map d), _he =>
      (.field f, d) ::
        match _h : Fields.get d "schema" with
        | .map inner =>
          if (declaredType d).isKey "object" then (places inner).map fun p => (.inside f p.1, p.2)
          else
            match _h' : Fields.get inner "schema" with
            | .map fields => (places fields).map fun p => (.item f p.1, p.2)
            | _ => []
        | _ => []
    | _, _ => []
termination_by (Value.map s).depth
decreasing_by
  · exact depth_schema_lt _he _h
  · have hfields := Fields.depth_get_lt inner "schema"
    rw [_h'] at hfields
    exact Nat.lt_trans hfields (depth_schema_lt _he _h)

theorem mem_places {s d : Fields} {p : Place} (h : At s p d) : (p, d) ∈ places s := by
  induction h with
  | field h =>
    rw [places]
    refine List.mem_flatMap.mpr ⟨⟨_, h.1⟩, List.mem_attach _ _, ?_⟩
    exact List.mem_cons_self
  | inside h htype hschema _ _ ih =>
    rw [places]
    refine List.mem_flatMap.mpr ⟨⟨_, h.1⟩, List.mem_attach _ _, List.mem_cons_of_mem _ ?_⟩
    split
    · next inner hinner =>
      obtain rfl := Value.map.inj (hinner.symm.trans hschema)
      rw [if_pos (isKey_iff.mpr htype)]
      exact List.mem_map.mpr ⟨_, ih, rfl⟩
    · next hno => exact absurd hschema (hno _)
  | item h htype hitem _ hschema _ _ ih =>
    rw [places]
    refine List.mem_flatMap.mpr ⟨⟨_, h.1⟩, List.mem_attach _ _, List.mem_cons_of_mem _ ?_⟩
    split
    · next inner hinner =>
      obtain rfl := Value.map.inj (hinner.symm.trans hitem)
      rw [htype, if_neg (by decide)]
      split
      · next fields hfields =>
        obtain rfl := Value.map.inj (hfields.symm.trans hschema)
        exact List.mem_map.mpr ⟨_, ih, rfl⟩
      · next hno => exact absurd hschema (hno _)
    · next hno => exact absurd hitem (hno _)

/-- Gives the name at a place, a bare text so far, as a mapping. -/
inductive Renamed : Place → Fields → Fields → Prop where
  | field {es : Fields} {f x : String} (h : Fields.get? es f = some (.string x)) (hx : x ≠ "") :
    Renamed (.field f) es (es.insert (.string f) (named x))
  | inside {es inner inner' : Fields} {f : String} {p : Place}
      (h : Fields.get? es f = some (.map inner))
    (hp : Renamed p inner inner') : Renamed (.inside f p) es (es.insert (.string f) (.map inner'))
  | item {es inner inner' : Fields} {f : String} {p : Place} {before after : List Value}
    (h : Fields.get? es f = some (.list (before ++ .map inner :: after)))
      (hp : Renamed p inner inner') :
    Renamed (.item f p) es (es.insert (.string f) (.list (before ++ .map inner' :: after)))

theorem Renamed.get?_eq {p : Place} {es es' : Fields} {g : String} (h : Renamed p es es')
    (hg : g ≠ p.first) :
    Fields.get? es' g = Fields.get? es g := by
  cases h with
  | field | inside | item => exact (Fields.get?_insert _ _ _ _).trans (if_neg hg)

/-! ## Acceptance -/

theorem accepts_named {d : Fields} {path : String} (x : String)
    (htype : declaredType d = .string "any") (hschema : Fields.get d "schema" = .null)
    (href : Fields.get d "ref" = .string "name") :
    (checkValue nodeDefinitions (.map d) (named x) path).Accepts := by
  rw [nodeDefinitions_eq, named, Value.record]
  refine (accepts_ref (by rw [htype]; rfl) hschema href (find?_ofTexts _ _)).mpr ?_
  refine Verdict.accepts_andThen.mpr ⟨rfl, ?_⟩
  exact accepts_checkFields.mpr (List.forall_mem_singleton.mpr (fits_name rfl))

theorem fits_insert {s es : Fields} {d : Fields} {f path : String} {v v' : Value}
    (hf : Describes s f d) (hv : Fields.get? es f = some v)
    (hfits : ∀ e ∈ s, Fits nodeDefinitions path es e)
    (hgo : (checkValue nodeDefinitions (.map d) v (joinPath path f)).Accepts →
      (checkValue nodeDefinitions (.map d) v' (joinPath path f)).Accepts) :
    ∀ e ∈ s, Fits nodeDefinitions path (es.insert (.string f) v') e := by
  intro e he
  have hold := hfits e he
  unfold Fits at hold ⊢
  rw [Fields.get?_insert]
  by_cases hname : e.1.display = f
  · rw [hname, hv, hf.2 e he hname] at hold
    rw [if_pos hname, hname, hf.2 e he hname]
    exact hgo hold
  · rw [if_neg hname]
    exact hold

theorem getElem?_of_replaced {α : Type} {before after : List α} {a b v : α} {j : Nat}
    (h : (before ++ b :: after)[j]? = some v) :
    (before ++ a :: after)[j]? = some v ∨ v = b ∧ (before ++ a :: after)[j]? = some a := by
  by_cases hj : j < before.length
  · rw [List.getElem?_append_left hj] at h ⊢
    exact .inl h
  · rw [List.getElem?_append_right (Nat.le_of_not_lt hj)] at h ⊢
    cases hk : j - before.length with
    | zero =>
      rw [hk] at h
      exact .inr ⟨(Option.some.inj h).symm, rfl⟩
    | succ k =>
      rw [hk] at h
      exact .inl h

/-- The change of a name is not noticed by the check. -/
theorem fits_renamed {s d es es' : Fields} {p : Place} {path : String} (hplace : At s p d)
    (htype : declaredType d = .string "any") (hschema : Fields.get d "schema" = .null)
    (href : Fields.get d "ref" = .string "name") (h : Renamed p es es')
    (hfits : ∀ e ∈ s, Fits nodeDefinitions path es e) :
    ∀ e ∈ s, Fits nodeDefinitions path es' e := by
  induction hplace generalizing es es' path with
  | field hf =>
    cases h with
    | field hx _ => exact fits_insert hf hx hfits fun _ => accepts_named _ htype hschema href
  | inside hf htype' hschema' href' _ ih =>
    cases h with
    | inside hinner hp =>
      refine fits_insert hf hinner hfits fun hold => ?_
      rw [accepts_object htype' hschema' href'] at hold ⊢
      exact ih htype hschema href hp hold
  | item hf htype' hitem hobject hschema' href' _ ih =>
    cases h with
    | @item _ inner inner' _ _ before after hinner hp =>
      refine fits_insert hf hinner hfits fun hold => ?_
      rw [accepts_array htype' hitem] at hold ⊢
      intro j v hv
      rcases getElem?_of_replaced hv with hsame | ⟨rfl, hchanged⟩
      · exact hold j v hsame
      · have hinner' := hold j _ hchanged
        rw [accepts_object hobject hschema' href'] at hinner' ⊢
        exact ih htype hschema href hp hinner'

end Schema

end Scriptwright
