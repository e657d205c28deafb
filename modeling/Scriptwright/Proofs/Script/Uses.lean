import Scriptwright.Script.Markup

/-!
# What emission uses

The emission of a node writes other nodes, goes through sequences, asks for fields and looks texts
up. `Role.uses` lists all of it, with the node's rule and fields at hand, and `Throughout` speaks of
a node together with everything that is written as a part of it. So a hypothesis about emission is a
hypothesis about the values that it comes across, and about no others.
-/

namespace Scriptwright

/-- The elements that going through a value yields, none if it cannot be gone through. -/
def Value.yielded (v : Value) : List Value := v.elementsOrNone.toOption.getD []

theorem Value.yielded_of_ok {v : Value} {vs : List Value} (h : v.elementsOrNone = .ok vs) :
    v.yielded = vs := by
  rw [yielded, h]
  rfl

namespace Script

/-- What a value is written as. -/
inductive Role where
  | node (m : Mode)
  | statements
  | markup
  | forest

def Role.code (linked : Bool) : Role → Value → Code
  | .node m, v => nodeCode linked m v
  | .statements, v => sequenceCode linked v
  | .markup, v => markupCode v
  | .forest, v => forestCode v

/-- What happens to a value in the emission of another. -/
inductive Use where
  | part (r : Role) (v : Value)
  | sequence (v : Value)
  | record (v : Value)
  /-- It is asked for fields unless it counts as false. -/
  | recordIfAny (v : Value)
  /-- It is looked up in a table. -/
  | key (v : Value)
  /-- It is looked for among words. -/
  | word (v : Value)
  | spelled (v : Value)
  | data (v : Value)
  | attribute (v : Value)
  | props (v : Value)

def Use.node (m : Mode) (v : Value) : Use := .part (.node m) v

def sourceText (v : Value) : Value :=
  match v.head with
  | .map es => (Fields.get? es "value").getD ((Fields.get? es "raw").getD v)
  | _ => v

/-- A bare name is the name of a mapping. -/
theorem exists_of_plainName {v w : Value} (h : plainName? v = some w) :
    ∃ es, v.head = .map es ∧ Fields.get? es "name" = some w := by
  unfold plainName? at h
  split at h
  · next es hes =>
    refine ⟨es, hes, ?_⟩
    split at h
    · exact h
    · split at h
      · exact h
      · cases h
    · cases h
  · cases h

mutual

def Piece.uses : Piece → Fields → List Use
  | .text _, _ | .margin, _ => []
  | .shown f absent, node => [.spelled (Fields.getD node f (.string absent))]
  | .source f, node => [.spelled (sourceText (Fields.get node f))]
  | .data f, node => [.data (Fields.get node f)]
  | .attributeValue f, node => [.attribute (Fields.get node f)]
  | .accessor f, node => [.word (Fields.get node f)]
  | .expression f, node => [.node .expression (Fields.get node f)]
  | .name f, node =>
    match plainName? (Fields.get node f) with
    | some w => [.spelled w]
    | none => [.node .expression (Fields.get node f)]
  | .each f _ _ _, node | .specifiers f, node =>
    .sequence (Fields.get node f) :: (Fields.get node f).yielded.map (Use.node .expression)
  | .eachRecord f untagged _ parts, node =>
    .sequence (Fields.get node f) :: (Fields.get node f).yielded.flatMap fun w =>
      match w.head with
      | .map es => if untagged && Fields.has es "type" then [.node .expression w]
          else Piece.usesAll parts es
      | _ => [.node .expression w]
  | .eachCase f parts, node =>
    .sequence (Fields.get node f) :: (Fields.get node f).yielded.flatMap fun w =>
      match w.head with
      | .map es => Piece.usesAll parts es
      | _ => [.record w]
  | .members f, node => (Fields.get node f).statements.map (Use.node .expression)
  | .body f, node => (Fields.get node f).statements.map (Use.node .statement)
  | .sequence f, node =>
    .sequence (Fields.get node f) :: (Fields.get node f).yielded.map (Use.node .statement)
  | .statement f, node => [.node .statement (Fields.get node f)]
  | .unary operator operand, node =>
    [.spelled (Fields.getD node operator (.string "")), .node .expression (Fields.get node operand)]
  | .interleaved texts substitutions, node =>
    .sequence (Fields.get node texts) :: .sequence (Fields.get node substitutions) ::
      ((Fields.get node texts).yielded.map (fun t => .spelled (templateText t)) ++
        (Fields.get node substitutions).yielded.map (Use.node .expression))
  | .itself _, node => [.node .expression (.map node)]
  | .deeper parts, node | .shaped _ parts, node | .group parts, node => Piece.usesAll parts node
  | .choose test yes no, node => if test.holds node then Piece.usesAll yes node
      else Piece.usesAll no node
  | .within f parts, node =>
    match (Fields.get node f).head with
    | .map es => Piece.usesAll parts es
    | _ => Piece.usesAll parts []
  | .inside f parts, node =>
    match (Fields.get node f).head with
    | .map es => Piece.usesAll parts es
    | _ => .recordIfAny (Fields.get node f) :: Piece.usesAll parts []

def Piece.usesAll : List Piece → Fields → List Use
  | [], _ => []
  | p :: ps, node => Piece.uses p node ++ Piece.usesAll ps node

end

/-- A number is shown as an expression. -/
def atomUses : Mode → Value → List Use
  | .expression, .int n => [.spelled (.int n)]
  | _, _ => []

/-- What writing a value in a role comes across. -/
def Role.uses : Role → Value → List Use
  | .node m, v =>
    match v.head with
    | .map es =>
      .key (Fields.get es "type") ::
        match selectRule m es with
        | .inl rule => Piece.usesAll rule es
        | .inr _ => [.spelled (Fields.get es "type")]
    | w => atomUses m w
  | .statements, v => .sequence v :: v.yielded.map (Use.node .statement)
  | .markup, v =>
    match v.head with
    | .map es =>
      match Fields.get es "type" with
      | .string _ =>
        if (Fields.get es "children").truthy then
          .props (Fields.get es "props") :: .sequence (Fields.get es "children") ::
            (Fields.get es "children").yielded.map (Use.part .markup)
        else [.props (Fields.get es "props")]
      | kind => [.spelled kind]
    | .int n => [.spelled (.int n)]
    | _ => []
  | .forest, v => .sequence v :: v.yielded.map (Use.part .markup)

/-- Whether a property of values in their roles goes over to everything that is written as a part of
them. -/
def PassesDown (P : Role → Value → Prop) : Prop :=
  ∀ r v r' w, P r v → Use.part r' w ∈ r.uses v → P r' w

/-- What holds of a value in a role and of everything that is written as a part of it. -/
inductive Throughout (P : Role → Value → Prop) : Role → Value → Prop
  | intro {r : Role} {v : Value} (self : P r v)
    (below : ∀ r' w, Use.part r' w ∈ r.uses v → Throughout P r' w) : Throughout P r v

theorem passesDown_throughout (P : Role → Value → Prop) : PassesDown (Throughout P) := by
  intro r v r' w h hu
  cases h with
  | intro _ below => exact below r' w hu

theorem Throughout.here {P : Role → Value → Prop} {r : Role} {v : Value} (h : Throughout P r v) :
    P r v := by
  cases h with
  | intro here _ => exact here

theorem Throughout.mono {P Q : Role → Value → Prop} {r : Role} {v : Value} (h : Throughout P r v)
    (hPQ : ∀ r v, P r v → Q r v) : Throughout Q r v := by
  induction h with
  | intro here _ ih => exact .intro (hPQ _ _ here) ih

/-- Follows all parts down to the given depth, and fails if there are deeper ones. -/
def throughoutWithin (P : Role → Value → Prop) [∀ r v, Decidable (P r v)] :
    Nat → Role → Value → Bool
  | 0, _, _ => false
  | n + 1, r, v => decide (P r v) && (r.uses v).all fun u =>
      match u with
      | .part r' w => throughoutWithin P n r' w
      | _ => true

/-- The same for a use that is a part. -/
def Use.within (P : Role → Value → Prop) [∀ r v, Decidable (P r v)] (n : Nat) : Use → Bool
  | .part r v => throughoutWithin P n r v
  | _ => true

theorem throughout_of_within {P : Role → Value → Prop} [∀ r v, Decidable (P r v)] {n : Nat}
    {r : Role} {v : Value} (h : throughoutWithin P n r v = true) : Throughout P r v := by
  induction n generalizing r v with
  | zero => cases h
  | succ n ih =>
    obtain ⟨hself, hbelow⟩ := Bool.and_eq_true_iff.mp h
    exact .intro (of_decide_eq_true hself) fun r' w hu => ih (List.all_eq_true.mp hbelow _ hu)

end Script

end Scriptwright
