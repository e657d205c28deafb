import Scriptwright.Calendar
import Scriptwright.Fault
import Scriptwright.Number.Double

/-!
# Document values

The values a document is made of. Mappings keep their entries in order and may have keys of any
kind; fields are the entries whose key is a text. `depth` bounds every walk into a value: a field,
an element or a key is strictly shallower than what holds it.

A collection may hold itself, directly or through others. Such a knot has no finite tree: it is
given by cells that name their parts by place, and `head` shows one more layer of it.
-/

namespace Scriptwright

inductive Scalar where
  | null
  | bool (b : Bool)
  | int (n : Int)
  | float (x : Double)
  | string (s : String)
  | bytes (octets : List UInt8)
  | date (d : Date)
  | moment (t : Moment)
deriving Repr, Inhabited

inductive Cell where
  | scalar (s : Scalar)
  | list (items : List Nat)
  | map (entries : List (Scalar × Nat))
  | pair (first second : Nat)
  | set (members : List Scalar)
deriving Repr, Inhabited

inductive Value where
  | null
  | bool (b : Bool)
  | int (n : Int)
  | float (x : Double)
  | string (s : String)
  | bytes (octets : List UInt8)
  | date (d : Date)
  | moment (t : Moment)
  | list (items : List Value)
  | map (entries : List (Value × Value))
  /-- An entry on its own. -/
  | pair (first second : Value)
  | set (members : List Scalar)
  /-- The value at a place among cells, into which at most the given number of steps can be taken.
  -/
  | knot (cells : List Cell) (place turns : Nat)
deriving Repr, Inhabited

abbrev Fields := List (Value × Value)

def Scalar.value : Scalar → Value
  | .null => .null
  | .bool b => .bool b
  | .int n => .int n
  | .float x => .float x
  | .string s => .string s
  | .bytes b => .bytes b
  | .date d => .date d
  | .moment t => .moment t

namespace Value

/-! ## Depth -/

mutual

def depth : Value → Nat
  | .list items => depthOfItems items + 1
  | .map entries => depthOfEntries entries + 1
  | .pair first second => max first.depth second.depth + 1
  | .knot _ _ turns => turns
  | _ => 0

def depthOfItems : List Value → Nat
  | [] => 0
  | v :: vs => max v.depth (depthOfItems vs)

def depthOfEntries : List (Value × Value) → Nat
  | [] => 0
  | (k, v) :: es => max (max k.depth v.depth) (depthOfEntries es)

end

theorem depth_le_of_mem_items {v : Value} {vs : List Value} (h : v ∈ vs) :
    v.depth ≤ depthOfItems vs := by
  induction vs with
  | nil => cases h
  | cons w ws ih =>
    simp only [depthOfItems]
    cases h with
    | head => omega
    | tail _ h => have := ih h; omega

theorem depth_le_of_mem_entries {e : Value × Value} {es : Fields} (h : e ∈ es) :
    e.1.depth ≤ depthOfEntries es ∧ e.2.depth ≤ depthOfEntries es := by
  induction es with
  | nil => cases h
  | cons x xs ih =>
    obtain ⟨k, v⟩ := x
    simp only [depthOfEntries]
    cases h with
    | head => constructor <;> simp only <;> omega
    | tail _ h => have := ih h; omega

theorem depthOfItems_le {vs : List Value} {n : Nat} (h : ∀ v ∈ vs, v.depth ≤ n) :
    depthOfItems vs ≤ n := by
  induction vs with
  | nil => simp [depthOfItems]
  | cons w ws ih =>
    have h1 := h w List.mem_cons_self
    have h2 := ih fun v hv => h v (List.mem_cons_of_mem _ hv)
    simp only [depthOfItems]
    omega

theorem depthOfEntries_le {es : Fields} {n : Nat} (h : ∀ e ∈ es, e.1.depth ≤ n ∧ e.2.depth ≤ n) :
    depthOfEntries es ≤ n := by
  induction es with
  | nil => simp [depthOfEntries]
  | cons x xs ih =>
    obtain ⟨k, v⟩ := x
    have h1 := h (k, v) List.mem_cons_self
    have h2 := ih fun e he => h e (List.mem_cons_of_mem _ he)
    simp only at h1
    simp only [depthOfEntries]
    omega

@[simp]
theorem depth_scalar (s : Scalar) : s.value.depth = 0 := by
  cases s <;> simp [Scalar.value, depth]

/-! ## Knots -/

/-- The value at a place among cells. Only collections that hold other values are knots. -/
def atPlace (cells : List Cell) (turns place : Nat) : Value :=
  match cells[place]? with
  | some (.scalar s) => s.value
  | some (.set members) => .set members
  | _ => .knot cells place turns

/-- A value with its outermost layer in the open. A knot without turns left stays as it is. -/
def head : Value → Value
  | .knot cells place (turns + 1) =>
    match cells[place]? with
    | none => .null
    | some (.scalar s) => s.value
    | some (.list items) => .list (items.map (atPlace cells turns))
    | some (.map entries) => .map (entries.map fun e => (e.1.value, atPlace cells turns e.2))
    | some (.pair first second) => .pair (atPlace cells turns first) (atPlace cells turns second)
    | some (.set members) => .set members
  | v => v

/-- A knot into which too few steps are left to take a node apart: it has been followed without end.
-/
def exhausted : Value → Bool
  | .knot _ _ turns => turns < 16
  | _ => false

theorem depth_atPlace_le (cells : List Cell) (turns place : Nat) :
    (atPlace cells turns place).depth ≤ turns := by
  unfold atPlace
  split <;> simp [depth]

theorem depth_head_le (v : Value) : v.head.depth ≤ v.depth := by
  unfold head
  split
  · next cells place turns =>
    split
    · simp [depth]
    · simp
    · next items _ =>
      have h : depthOfItems (items.map (atPlace cells turns)) ≤ turns :=
        depthOfItems_le fun v hv => by
        obtain ⟨i, -, rfl⟩ := List.mem_map.1 hv
        exact depth_atPlace_le cells turns i
      simp only [depth]
      omega
    · next entries _ =>
      have h : depthOfEntries (entries.map fun e => (e.1.value, atPlace cells turns e.2)) ≤ turns :=
        depthOfEntries_le fun e he => by
          obtain ⟨x, -, rfl⟩ := List.mem_map.1 he
          exact ⟨by simp, depth_atPlace_le cells turns x.2⟩
      simp only [depth]
      omega
    · next first second _ =>
      have h1 := depth_atPlace_le cells turns first
      have h2 := depth_atPlace_le cells turns second
      simp only [depth]
      omega
    · simp [depth]
  · exact Nat.le_refl _

/-! ## Fields -/

def isKey (name : String) : Value → Bool
  | .string s => s == name
  | _ => false

end Value

namespace Fields

def get? : Fields → String → Option Value
  | [], _ => none
  | (k, v) :: es, name => if k.isKey name then some v else get? es name

def get (es : Fields) (name : String) : Value := (get? es name).getD .null

def has (es : Fields) (name : String) : Bool := (get? es name).isSome

def getD (es : Fields) (name : String) (other : Value) : Value := (get? es name).getD other

theorem mem_of_get? {es : Fields} {name : String} {v : Value} (h : get? es name = some v) :
    ∃ k, (k, v) ∈ es := by
  induction es with
  | nil => simp [get?] at h
  | cons e es ih =>
    obtain ⟨k, w⟩ := e
    simp only [get?] at h
    split at h
    · cases h
      exact ⟨k, List.mem_cons_self⟩
    · obtain ⟨k', hk⟩ := ih h
      exact ⟨k', List.mem_cons_of_mem _ hk⟩

theorem depth_get_lt (es : Fields) (name : String) :
    (get es name).depth < (Value.map es).depth := by
  simp only [get, Value.depth]
  cases h : get? es name with
  | none => simp [Value.depth]
  | some v =>
    obtain ⟨k, hk⟩ := mem_of_get? h
    have hv : v.depth ≤ Value.depthOfEntries es := (Value.depth_le_of_mem_entries hk).2
    simp only [Option.getD_some]
    omega

end Fields

namespace Value

/-! ## Shapes -/

/-- Null, false, zero and everything empty count as false. -/
def truthy (v : Value) : Bool :=
  match v.head with
  | .null => false
  | .bool b => b
  | .int n => n != 0
  | .float x => !x.isZero
  | .string s => s != ""
  | .bytes b => !b.isEmpty
  | .date _ | .moment _ => true
  | .list vs => !vs.isEmpty
  | .map es => !es.isEmpty
  | .set ms => !ms.isEmpty
  | .pair _ _ | .knot _ _ _ => true

def isNull : Value → Bool
  | .null => true
  | _ => false

def isMap (v : Value) : Bool :=
  match v.head with
  | .map _ => true
  | _ => false

def isList (v : Value) : Bool :=
  match v.head with
  | .list _ => true
  | _ => false

def asText? : Value → Option String
  | .string s => some s
  | _ => none

/-- Collections cannot be looked up in a table, except for pairs of what can. -/
def hashable : Value → Bool
  | .list _ | .map _ | .set _ | .knot _ _ _ => false
  | .pair first second => first.hashable && second.hashable
  | _ => true

/-- What can be looked for among words: all that can be looked up in a table, and sets, which equal
no word. -/
def findable : Value → Bool
  | .set _ => true
  | v => v.hashable

def fields (v : Value) : Except Fault Fields :=
  match v.head with
  | .map es => .ok es
  | .knot _ _ _ => .error .endless
  | _ => .error .notRecord

def kindName (v : Value) : String :=
  match v.head with
  | .null => "NoneType"
  | .bool _ => "bool"
  | .int _ => "int"
  | .float _ => "float"
  | .string _ => "str"
  | .bytes _ => "bytes"
  | .date _ => "date"
  | .moment _ => "datetime"
  | .list _ | .knot _ _ _ => "list"
  | .map _ => "dict"
  | .pair _ _ => "tuple"
  | .set _ => "set"

/-! ## Elements -/

/-- What going through a value yields: the items of a list, the keys of a mapping, the characters of
a text. -/
def elements (v : Value) : Except Fault (List Value) :=
  match v.head with
  | .list vs => .ok vs
  | .map es => .ok (es.map (·.1))
  | .string s => .ok (s.toList.map fun c => .string (String.singleton c))
  | .bytes b => .ok (b.map fun o => .int o.toNat)
  | .pair first second => .ok [first, second]
  | .set ms => .ok (ms.map Scalar.value)
  | .knot _ _ _ => .error .endless
  | _ => .error .notIterable

def elementsOrNone (v : Value) : Except Fault (List Value) :=
  if v.truthy then v.elements else .ok []

theorem depth_le_of_mem_elements {v x : Value} {xs : List Value} (h : v.elements = .ok xs)
    (hx : x ∈ xs) :
    x.depth ≤ v.depth := by
  refine Nat.le_trans ?_ v.depth_head_le
  unfold elements at h
  cases hv : v.head <;> simp only [hv, Except.ok.injEq, reduceCtorEq] at h <;> subst h
  case list vs =>
    have := depth_le_of_mem_items hx
    simp only [depth]
    omega
  case map es =>
    obtain ⟨e, he, rfl⟩ := List.mem_map.1 hx
    have := (depth_le_of_mem_entries he).1
    simp only [depth]
    omega
  case string s =>
    obtain ⟨c, -, rfl⟩ := List.mem_map.1 hx
    simp [depth]
  case bytes b =>
    obtain ⟨c, -, rfl⟩ := List.mem_map.1 hx
    simp [depth]
  case pair first second =>
    simp only [List.mem_cons, List.not_mem_nil, or_false] at hx
    simp only [depth]
    rcases hx with rfl | rfl <;> omega
  case set ms =>
    obtain ⟨s, -, rfl⟩ := List.mem_map.1 hx
    simp

theorem depth_le_of_mem_elementsOrNone {v x : Value} {xs : List Value}
    (h : v.elementsOrNone = .ok xs) (hx : x ∈ xs) : x.depth ≤ v.depth := by
  unfold elementsOrNone at h
  split at h
  · exact depth_le_of_mem_elements h hx
  · cases h
    cases hx

/-- The statements of a body given as a list or as a mapping whose `body` is a list; anything else
has none. -/
def statements (v : Value) : List Value :=
  match v.head with
  | .list vs => vs
  | .map es =>
    match (Fields.get es "body").head with
    | .list vs => vs
    | _ => []
  | _ => []

theorem depth_le_of_mem_statements {v x : Value} (hx : x ∈ v.statements) : x.depth ≤ v.depth := by
  refine Nat.le_trans ?_ v.depth_head_le
  unfold statements at hx
  cases hv : v.head <;> simp only [hv, List.not_mem_nil] at hx
  case list vs =>
    have := depth_le_of_mem_items hx
    simp only [depth]
    omega
  case map es =>
    split at hx
    · next vs h =>
      have h1 := depth_le_of_mem_items hx
      have h2 := Fields.depth_get_lt es "body"
      have h3 := (Fields.get es "body").depth_head_le
      rw [h] at h3
      simp only [depth] at h2 h3 ⊢
      omega
    · cases hx

/-- A statement block: a list, a mapping tagged as a block, or an untagged mapping whose `body` is a
list. -/
def isBlock (v : Value) : Bool :=
  match v.head with
  | .list _ => true
  | .map es =>
    Value.isKey "blockStatement" (Fields.get es "type") ||
      (!Fields.has es "type" && (Fields.get es "body").isList)
  | _ => false

/-- The tag of a node: its `type`, where it is a text. -/
def tag? (v : Value) : Option String :=
  match v.head with
  | .map es => (Fields.get es "type").asText?
  | _ => none

/-! ## Keys -/

/-- Whether two keys name the same entry. Truth values count as the numbers one and zero. -/
def sameKey : Value → Value → Bool
  | .null, .null => true
  | .string s, .string t => s == t
  | .bytes a, .bytes b => a == b
  | .date a, .date b => a == b
  | .moment a, .moment b => a.same b
  | a, b =>
    match number? a, number? b with
    | some x, some y =>
      match x, y with
      | .inl n, .inl k => n == k
      | .inr u, .inr w => u.numEq w
      | .inl n, .inr w => w.toInt? == some n
      | .inr u, .inl k => u.toInt? == some k
    | _, _ => false
where
  number? : Value → Option (Int ⊕ Double)
    | .bool b => some (.inl (if b then 1 else 0))
    | .int n => some (.inl n)
    | .float x => some (.inr x)
    | _ => none

end Value

namespace Fields

/-- Sets an entry: a key that is there keeps its place and takes the new value, a new key goes to
the end. -/
def insert : Fields → Value → Value → Fields
  | [], key, value => [(key, value)]
  | (k, v) :: es, key, value => if k.sameKey key then (k, value) :: es
      else (k, v) :: insert es key value

def ofTexts (fields : List (String × Value)) : Fields := fields.map fun f => (.string f.1, f.2)

def find? (es : Fields) (key : Value) : Option Value :=
  (List.find? (fun e => e.1.sameKey key) es).map (·.2)

end Fields

def Value.record (fields : List (String × Value)) : Value := .map (Fields.ofTexts fields)

end Scriptwright
