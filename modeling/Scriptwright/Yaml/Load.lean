import Scriptwright.Loader
import Scriptwright.Yaml.Atom
import Scriptwright.Yaml.Reader

/-!
# From nodes to values

Every node becomes a cell. Scalars are worked out as soon as they are met, collections in the order
in which they are met, so of several things that are wrong the outermost one is reported, and among
those the first. Cells without a circle make a tree; with a circle, the value is a knot.
-/

namespace Scriptwright.Yaml

/-! ## Scalars -/

/-- The text of a node as a scalar; that of a mapping stands under its value key. -/
def Graph.scalarText (g : Graph) : Nat → Nat → Except Trouble String
  | 0, _ => .error (.fault .endless)
  | fuel + 1, i =>
    match g.contentAt i with
    | .scalar s => .ok s
    | .sequence _ => .error .malformed
    | .mapping es =>
      match es.find? fun e => g.tagAt e.1 == .value with
      | some e => scalarText g fuel e.2
      | none => .error .malformed

/-- A node under the tag of an atom. Timestamps are written out, not looked up. -/
def Graph.scalarAt (g : Graph) (i : Nat) : Except Trouble Scalar := do
  let s ← g.scalarText (g.size + 1) i
  match g.tagAt i, g.contentAt i with
  | .timestamp, .mapping _ => throw (.fault .notText)
  | tag, _ => atom tag s

/-! ## Collections -/

structure Building where
  graph : Graph
  merges : Nat
  /-- The cells of the nodes that have been met, and behind them those of pairs. A collection is
  empty until its turn comes. -/
  cells : Array (Option Cell)
  met : Array Nat

abbrev Build := StateT Building (Except Trouble)

namespace Build

def setCell (i : Nat) (c : Cell) : Build Unit :=
  modify fun b => { b with cells := b.cells.setIfInBounds i (some c) }

def visit (i : Nat) : Build Unit := do
  let b ← get
  if (b.cells.getD i none).isNone then
    if (b.graph.tagAt i).isCollection then
      setCell i (.list [])
      modify fun b => { b with met := b.met.push i }
    else setCell i (.scalar (← b.graph.scalarAt i))

def key (i : Nat) : Build Scalar := do
  visit i
  match (← get).cells.getD i none with
  | some (.scalar s) => return s
  | _ => throw .malformed

/-- Sets an entry: a key that is there keeps its place and takes the new value, a new key goes to
the end. -/
def setEntry (entries : List (Scalar × Nat)) (key : Scalar) (value : Nat) : List (Scalar × Nat) :=
  match entries with
  | [] => [(key, value)]
  | (k, v) :: es =>
    if k.value.sameKey key.value then (k, value) :: es else (k, v) :: setEntry es key value

def entriesOf (i : Nat) : Build (List (Scalar × Nat)) := do
  let b ← get
  match b.graph.merge (b.merges + 1) i [] with
  | none => throw .malformed
  | some g =>
    set { b with graph := g }
    (g.contentAt i).entries.foldlM (fun found e => do
      let k ← key e.1
      visit e.2
      return setEntry found k e.2) []

def pairOf (i : Nat) : Build Nat := do
  match (← get).graph.contentAt i with
  | .mapping [(k, v)] =>
    visit k
    visit v
    let place := (← get).cells.size
    modify fun b => { b with cells := b.cells.push (some (.pair k v)) }
    return place
  | _ => throw .malformed

def cellOf (i : Nat) : Build Cell := do
  let g := (← get).graph
  match g.tagAt i, g.contentAt i with
  | .sequence, .sequence items =>
    items.forM visit
    return .list items
  | .pairs, .sequence items => return .list (← items.mapM pairOf)
  | .mapping, .mapping _ => return .map (← entriesOf i)
  | .set, .mapping _ => return .set ((← entriesOf i).map (·.1))
  | _, _ => throw .malformed

def finish : Nat → Nat → Build Unit
  | 0, _ => pure ()
  | fuel + 1, n => do
    match (← get).met[n]? with
    | none => pure ()
    | some i =>
      setCell i (← cellOf i)
      finish fuel (n + 1)

def cells (root : Nat) : Build (Array Cell) := do
  visit root
  finish ((← get).graph.size + 1) 0
  return (← get).cells.map fun c => c.getD (.scalar .null)

end Build

/-! ## Values -/

/-- The value at a place among cells, if it has a finite tree. -/
def tree? (cells : Array Cell) : Nat → Nat → Option Value
  | 0, _ => none
  | fuel + 1, place =>
    match cells[place]? with
    | none => some .null
    | some (.scalar s) => some s.value
    | some (.list items) => (items.mapM (tree? cells fuel)).map .list
    | some (.map entries) => (entries.mapM fun e =>
        (tree? cells fuel e.2).map (Prod.mk e.1.value)).map .map
    | some (.pair first second) => do
      return .pair (← tree? cells fuel first) (← tree? cells fuel second)
    | some (.set members) => some (.set members)

/-- How far a knot can be followed: deep enough that only a walk without end comes to a stop. -/
def mostTurns : Nat := 1000

def valueAt (cells : Array Cell) (place : Nat) : Value :=
  (tree? cells (cells.size + 1) place).getD (Value.knot cells.toList place mostTurns).head

/-- The value of a text; an empty text is the null value. -/
def load (text : String) : Except Trouble Value := do
  match ← compose text.toList with
  | (_, none) => return .null
  | (graph, some root) =>
    let cells ← (Build.cells root).run' ⟨graph, graph.entryCount,
      Array.replicate graph.size none, #[]⟩
    return valueAt cells root

/-- The text in place of a description of what is malformed. -/
def detail : String := "<yaml detail>"

instance : Loader where
  load text := (load text).mapError fun
    | .malformed => .malformed detail
    | .fault f => .fault f

end Scriptwright.Yaml
