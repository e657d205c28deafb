import Scriptwright.Error

/-!
# Checking values against a schema

A schema is a value itself: a mapping from field names to descriptors. A descriptor may name a type,
say that the field is required, hold a schema for what is inside, and refer to a node definition by
name. Checking goes depth first and stops at the first violation. Every step goes to a part of the
checked value, so definitions may refer to each other.
-/

namespace Scriptwright.Schema

/-! ## Types -/

def describe (v : Value) : String :=
  match v.head with
  | .null => "null"
  | .bool _ => "boolean"
  | .int _ | .float _ => "number"
  | .string _ => "string"
  | .list _ => "array"
  | .map _ => "object"
  | w => w.kindName

/-- Whether a value has the named type; an unknown name has no answer. -/
def hasType? (name : String) (v : Value) : Option Bool :=
  match name with
  | "string" => some (describe v == "string")
  | "number" => some (describe v == "number")
  | "boolean" => some (describe v == "boolean")
  | "array" => some (describe v == "array")
  | "object" => some (describe v == "object")
  | "any" => some true
  | _ => none

def checkType (v expected : Value) : Except Error Bool :=
  match expected.asText?.bind fun name => hasType? name v with
  | some b => .ok b
  | none => .error (.unknownType expected.display)

/-! ## Verdicts -/

structure Verdict where
  outcome : Except Failure Unit
  log : List String

namespace Verdict

def accept : Verdict := ⟨.ok (), []⟩

def reject (f : Failure) : Verdict := ⟨.error f, []⟩

def remark (line : String) : Verdict := ⟨.ok (), [line]⟩

def andThen (v : Verdict) (next : Unit → Verdict) : Verdict :=
  match v.outcome with
  | .ok _ => ⟨(next ()).outcome, v.log ++ (next ()).log⟩
  | .error _ => v

end Verdict

/-! ## Checks -/

def rootPath : String := "<document>"

def pathOrRoot (path : String) : String := if path == "" then rootPath else path

def joinPath (parent key : String) : String := if parent == "" then key else parent ++ "." ++ key

def indexPath (parent : String) (i : Nat) : String := parent ++ "[" ++ toString i ++ "]"

/-- How a part of a value below the bound is checked against a descriptor. -/
abbrev Visit (bound : Nat) := (descriptor value : Value) → String → value.depth < bound → Verdict

/-- Checks the fields of a mapping against the entries of a schema, in the schema's order. -/
def checkEntries (data : Fields) (visit : Visit (Value.map data).depth) (path : String) :
    Fields → Verdict
  | [] => .accept
  | (key, descriptor) :: es =>
    let name := key.display
    let here : Verdict :=
      match Fields.get? data name, descriptor with
      | some _, _ => visit descriptor (Fields.get data name) (joinPath path name)
          (Fields.depth_get_lt data name)
      | none, .map d =>
        if (Fields.get d "required").truthy then
          .reject (.error (.missingField (joinPath path name))) else .accept
      | none, _ => .reject (.fault .notRecord)
    here.andThen fun _ => checkEntries data visit path es

def checkFields (data : Fields) (visit : Visit (Value.map data).depth) (path : String) :
    Value → Verdict
  | .map entries => checkEntries data visit path entries
  | _ => .reject (.fault .notRecord)

/-- The remark on a node whose tag has no variant. The emitters report such a node. -/
def noVariant (ref : Value) (kind : Value) (path : String) : String :=
  "No schema variant for " ++ ref.display ++ " node " ++ kind.inner ++ " at " ++ pathOrRoot path

def checkVariant (data : Fields) (visit : Visit (Value.map data).depth) (path : String)
    (ref variants : Value) :
    Verdict :=
  let kind := Fields.get data "type"
  if variants.truthy then
    match variants with
    | .map vs =>
      if kind.hashable then
        match (Fields.find? vs kind).getD .null with
        | .null => .remark (noVariant ref kind path)
        | variant => checkFields data visit path variant
      else .reject (.fault .unhashable)
    | _ => .reject (.fault .notRecord)
  else .accept

/-- Checks a node against a definition: what all its nodes share, then the fields of the node's own
kind. -/
def checkDefinition (data : Fields) (visit : Visit (Value.map data).depth) (path : String)
    (ref : Value) :
    Value → Verdict
  | .map definition =>
    (checkFields data visit path (Fields.getD definition "schema" (.map []))).andThen fun _ =>
      if (Fields.get data "type").isNull && Fields.has definition "untagged" then
        checkFields data visit path (Fields.get definition "untagged")
      else checkVariant data visit path ref (Fields.get definition "variants")
  | _ => .reject (.fault .notRecord)

def checkNode (definitions : Value) (data : Fields) (visit : Visit (Value.map data).depth)
    (path : String) (ref : Value) : Verdict :=
  match definitions with
  | .map ds =>
    if ref.hashable then
      match (Fields.find? ds ref).getD .null with
      | .null => .reject (.error (.unknownType ("ref:" ++ ref.display)))
      | definition => checkDefinition data visit path ref definition
    else .reject (.fault .unhashable)
  | _ => .reject (.fault .notRecord)

def checkItems (bound : Nat) (visit : Visit bound) (descriptor : Value) (path : String) (i : Nat) :
    (items : List Value) → (∀ v ∈ items, v.depth < bound) → Verdict
  | [], _ => .accept
  | v :: vs, h =>
    (visit descriptor v (indexPath path i) (h v List.mem_cons_self)).andThen fun _ =>
      checkItems bound visit descriptor path (i + 1) vs fun w hw => h w (List.mem_cons_of_mem _ hw)

theorem depth_item_lt (items : List Value) : ∀ v ∈ items, v.depth < (Value.list items).depth := by
  intro v hv
  have := Value.depth_le_of_mem_items hv
  simp only [Value.depth]
  omega

def checkNested (expected nested : Value) (data : Fields) (visit : Visit (Value.map data).depth)
    (path : String) :
    Verdict :=
  match nested with
  | .null => .accept
  | schema => if expected.isKey "object" then checkFields data visit path schema else .accept

def checkRef (definitions ref : Value) (data : Fields) (visit : Visit (Value.map data).depth)
    (path : String) :
    Verdict :=
  match ref with
  | .null => .accept
  | name => checkNode definitions data visit path name

/-- Checks what is inside a value of the right type: its fields or items, and then the node it may
be. -/
def checkInside (definitions : Value) (descriptor : Fields) (expected : Value) (path : String)
    (value : Value) (visit : Visit value.depth) : Verdict :=
  match value with
  | .map data =>
    (checkNested expected (Fields.get descriptor "schema") data visit path).andThen fun _ =>
      checkRef definitions (Fields.get descriptor "ref") data visit path
  | .list items =>
    match Fields.get descriptor "schema" with
    | .null => .accept
    | nested =>
      if expected.isKey "array" then checkItems _ visit nested path 0 items (depth_item_lt items)
        else .accept
  | _ => .accept

def checkValue (definitions : Value) (descriptor value : Value) (path : String) : Verdict :=
  match descriptor with
  | .map d =>
    let expected := Fields.getD d "type" (.string "any")
    if value.exhausted then .reject (.fault .endless)
    else
      match checkType value expected with
      | .error e => .reject (.error e)
      | .ok false => .reject (.error (.typeMismatch path expected.display (describe value)))
      | .ok true => checkInside definitions d expected path value.head fun d' v p _ =>
          checkValue definitions d' v p
  | _ => .reject (.fault .notRecord)
termination_by value.depth
decreasing_by
  have := value.depth_head_le
  omega

def check (definitions schema data : Value) : Verdict :=
  match data.head with
  | .map es => checkFields es (fun d v p _ => checkValue definitions d v p) "" schema
  | v => .reject (.error (.typeMismatch rootPath "object" (describe v)))

end Scriptwright.Schema
