import Scriptwright.Yaml.Tag

/-!
# Nodes

A text as tagged scalars, sequences and mappings. Nodes are numbered, and a collection names its
parts by their numbers, so that an alias may stand for a collection around it. The entries under a
merge key come in front of the mapping's own; of a list of mappings, the last one's come first.
-/

namespace Scriptwright.Yaml

inductive Content where
  | scalar (text : String)
  | sequence (items : List Nat)
  | mapping (entries : List (Nat × Nat))

structure Node where
  tag : Tag
  content : Content

def Node.empty : Node := ⟨.null, .scalar ""⟩

def Content.entries : Content → List (Nat × Nat)
  | .mapping es => es
  | _ => []

abbrev Graph := Array Node

namespace Graph

def tagAt (g : Graph) (i : Nat) : Tag := (g[i]?).elim .foreign Node.tag

def contentAt (g : Graph) (i : Nat) : Content := (g[i]?).elim (.scalar "") Node.content

def setTag (g : Graph) (i : Nat) (tag : Tag) : Graph := g.modify i fun n => { n with tag := tag }

def setContent (g : Graph) (i : Nat) (content : Content) : Graph :=
  g.modify i fun n => { n with content := content }

def entryCount (g : Graph) : Nat := g.foldl (fun n node => n + node.content.entries.length) 0

/-- A key that would name the value of a mapping as a scalar is a text once the mapping is taken as
a mapping. -/
def plainKeys (g : Graph) (i : Nat) : Graph :=
  (g.contentAt i).entries.foldl (fun g e => if g.tagAt e.1 == .value then g.setTag e.1 .text
    else g) g

/-- Brings what stands under merge keys into the mapping of a number, behind what was found before.
Each step takes one merge key away, so that a mapping may be merged into itself. Only mappings and
sequences of mappings can be merged. -/
def merge : Nat → Graph → Nat → List (Nat × Nat) → Option Graph
  | 0, _, _, _ => none
  | fuel + 1, g, i, found =>
    let g := g.plainKeys i
    let entries := (g.contentAt i).entries
    match entries.span fun e => g.tagAt e.1 != .merge with
    | (_, []) => some (if found.isEmpty then g else g.setContent i (.mapping (found ++ entries)))
    | (before, e :: after) => do
      let g := g.setContent i (.mapping (before ++ after))
      let (g, more) ←
        match g.contentAt e.2 with
        | .mapping _ => bring fuel (g, []) e.2
        | .sequence items => items.foldlM (bring fuel) (g, [])
        | .scalar _ => none
      merge fuel g i (found ++ more)
where
  /-- The entries of a mapping that is merged, in front of those of the mappings before it. -/
  bring (fuel : Nat) (state : Graph × List (Nat × Nat)) (j : Nat) : Option
    (Graph × List (Nat × Nat)) :=
    match state.1.contentAt j with
    | .mapping _ => do
      let g ← merge fuel state.1 j []
      return (g, (g.contentAt j).entries ++ state.2)
    | _ => none

end Graph

end Scriptwright.Yaml
