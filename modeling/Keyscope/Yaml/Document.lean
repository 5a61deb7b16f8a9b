/-
# Values of YAML documents

The value of a document is a graph, because a node may stand in many places.  A container is made
empty when its node is met, and filled when all that were met before it are filled; so the value
of a node inside itself is there already.

Before a mapping is filled, the entries under its merge keys are put in front of its own entries,
so its own ones win over them; of several merged mappings an earlier one wins.  The node itself is
changed by this, and so are the mappings that it merges, because others may merge them too.
-/
import Keyscope.Yaml.Node
import Keyscope.Yaml.Scalar
import Keyscope.Yaml.TokenStream
import Keyscope.Value.Graph
import Keyscope.Value.Slots

namespace Keyscope

namespace Yaml

/-! ## 1. Merging -/

namespace Merge

/-- Nodes by their numbers. -/
abbrev Nodes := Array Node

def tagOf (nodes : Nodes) (id : Nat) : Tag := (nodes[id]?.map Node.tag).getD .unknown

def contentOf? (nodes : Nodes) (id : Nat) : Option Content := nodes[id]?.map Node.content

/-- The entries of a mapping. -/
def entriesOf? (nodes : Nodes) (id : Nat) : Option (List (Nat × Nat)) :=
  match contentOf? nodes id with
  | some (.mapping entries) => some entries
  | _ => none

/-- The nodes of a sequence. -/
def elementsOf? (nodes : Nodes) (id : Nat) : Option (List Nat) :=
  match contentOf? nodes id with
  | some (.sequence ids) => some ids
  | _ => none

def setEntries (nodes : Nodes) (id : Nat) (entries : List (Nat × Nat)) : Nodes :=
  nodes.modify id fun n => { n with content := .mapping entries }

/-- The value of the first merge key, and the entries without it. -/
def takeMerge? (nodes : Nodes) : List (Nat × Nat) → Option (Nat × List (Nat × Nat))
  | [] => none
  | (k, v) :: entries =>
    if tagOf nodes k = .merge then some (v, entries)
    else (takeMerge? nodes entries).map fun (w, rest) => (w, (k, v) :: rest)

/-- The key that stands for the value of a mapping is an ordinary text from now on. -/
def plainKeys (nodes : Nodes) (entries : List (Nat × Nat)) : Nodes :=
  entries.foldl (fun nodes e =>
    if tagOf nodes e.1 = .value then nodes.modify e.1 fun n => { n with tag := .text } else nodes) nodes

/-- The entries of several mappings, the last one first. -/
def entriesOfAll (flatten : Nat → Nodes → Option Nodes) :
    List Nat → List (Nat × Nat) → Nodes → Option (List (Nat × Nat) × Nodes)
  | [], found, nodes => some (found, nodes)
  | id :: ids, found, nodes => do
    let nodes ← flatten id nodes
    let entries ← entriesOf? nodes id
    entriesOfAll flatten ids (entries ++ found) nodes

/-- The entries that the value of a merge key gives: those of a mapping, or of a list of
mappings. -/
def entriesUnder (flatten : Nat → Nodes → Option Nodes) (id : Nat) (nodes : Nodes) :
    Option (List (Nat × Nat) × Nodes) :=
  entriesOfAll flatten ((elementsOf? nodes id).getD [id]) [] nodes

/-- Takes the merge keys of a mapping out one after the other, and collects what they give.  The
number bounds the steps. -/
def collect (flatten : Nat → Nodes → Option Nodes) (id : Nat) :
    Nat → List (Nat × Nat) → Nodes → Option (List (Nat × Nat) × Nodes)
  | 0, _, _ => none
  | steps + 1, found, nodes => do
    match takeMerge? nodes (← entriesOf? nodes id) with
    | none => return (found, nodes)
    | some (value, rest) =>
      let (more, nodes) ← entriesUnder flatten value (setEntries nodes id rest)
      collect flatten id steps (found ++ more) nodes

/-- The nodes after the merge keys of a mapping took effect.  The number bounds how deep merged
mappings may merge others. -/
def flatten : Nat → Nat → Nodes → Option Nodes
  | 0, _, _ => none
  | depth + 1, id, nodes => do
    let entries ← entriesOf? nodes id
    let (found, nodes) ← collect (flatten depth) id (entries.length + 1) [] nodes
    let own ← entriesOf? nodes id
    return setEntries (plainKeys nodes own) id (found ++ own)

/-- How deep merged mappings may merge others. -/
def maxDepth : Nat := 970

end Merge

/-! ## 2. Values in the making -/

/-- A document whose nodes become values. -/
structure Build where
  nodes : Array Node
  /-- Where the value of a node is, once the node was met. -/
  places : Array (Option Nat)
  cells : Graph
  /-- The containers that were met, each with the place of its value. -/
  containers : Array (Nat × Nat)

namespace Build

/-- Before the first node.  The one value that all nodes share that are spelled as no number is
there from the start. -/
def start (nodes : Array Node) : Build :=
  ⟨nodes, Array.replicate nodes.size none, #[.leaf (.real .nan)], #[]⟩

/-- The place of the value that is no number. -/
def nanPlace : Nat := 0

/-- The text of a scalar; a mapping may have an entry that stands for it.  The number bounds the
steps. -/
def textOf? (nodes : Array Node) : Nat → Nat → Option Text
  | 0, _ => none
  | steps + 1, id =>
    match Merge.contentOf? nodes id with
    | some (.scalar t) => some t
    | some (.mapping entries) => do
      let e ← entries.find? fun e => Merge.tagOf nodes e.1 = .value
      textOf? nodes steps e.2
    | _ => none

/-- The value of a node that is no container. -/
def scalarValue? (b : Build) (id : Nat) : Option Value := do
  let n ← b.nodes[id]?
  match n.tag, n.content with
  | .timestamp, .mapping _ => none
  | tag, _ => Scalar.value? tag (← textOf? b.nodes (b.nodes.size + 1) id)

/-- Notes where the value of a node is. -/
def found (b : Build) (id place : Nat) : Nat × Build :=
  (place, { b with places := b.places.modify id fun _ => some place })

/-- Adds the value of a node. -/
def add (b : Build) (id : Nat) (c : Cell) : Nat × Build :=
  { b with cells := b.cells.push c }.found id b.cells.size

/-- Adds an empty container that is to be filled. -/
def addContainer (b : Build) (id : Nat) (c : Cell) : Nat × Build :=
  let (place, b) := b.add id c
  (place, { b with containers := b.containers.push (id, place) })

/-- Whether a node is spelled as no number. -/
def isNaNWord (n : Node) : Bool :=
  match n.tag, n.content with
  | .float, .scalar t => Scalar.isNaNWord t
  | _, _ => false

/-- The place of the value of a node. -/
def meet (b : Build) (id : Nat) : Option (Nat × Build) :=
  match b.places[id]?.join with
  | some place => some (place, b)
  | none => do
    let n ← b.nodes[id]?
    match n.tag with
    | .sequence | .orderedMap | .pairs => return b.addContainer id (.list [])
    | .mapping => return b.addContainer id (.dict [])
    | .set => return b.addContainer id (.leaf (.set []))
    | _ =>
      if isNaNWord n then return b.found id nanPlace
      else return b.add id (.leaf (← b.scalarValue? id))

/-- The places of the values of several nodes. -/
def meetAll : List Nat → Build → Option (List Nat × Build)
  | [], b => some ([], b)
  | id :: ids, b => do
    let (place, b) ← b.meet id
    let (places, b) ← meetAll ids b
    return (place :: places, b)

/-- The entries of a dictionary after the given ones; what can change is no key. -/
def meetEntries : List (Nat × Nat) → List (Nat × Nat) → Build → Option (List (Nat × Nat) × Build)
  | [], done, b => some (done, b)
  | (k, v) :: entries, done, b => do
    let (key, b) ← b.meet k
    if ((← b.cells.leaf? key).changeable?).isSome then none
    else
      let (value, b) ← b.meet v
      meetEntries entries (b.cells.put key value done) b

/-- The pairs of mappings with one entry each. -/
def meetPairs : List Nat → Build → Option (List Nat × Build)
  | [], b => some ([], b)
  | id :: ids, b => do
    match ← Merge.entriesOf? b.nodes id with
    | [(k, v)] =>
      let (key, b) ← b.meet k
      let (value, b) ← b.meet v
      let place := b.cells.size
      let (places, b) ← meetPairs ids { b with cells := b.cells.push (.tuple [key, value]) }
      return (place :: places, b)
    | _ => none

/-- The entries of a mapping with all that is merged into it. -/
def entries (b : Build) (id : Nat) : Option (List (Nat × Nat) × Build) := do
  let nodes ← Merge.flatten Merge.maxDepth id b.nodes
  meetEntries (← Merge.entriesOf? nodes id) [] { b with nodes := nodes }

/-- What a container holds. -/
def contentOf (b : Build) (id : Nat) : Option (Cell × Build) := do
  match Merge.tagOf b.nodes id with
  | .mapping =>
    let (entries, b) ← b.entries id
    return (.dict entries, b)
  | .set =>
    let (entries, b) ← b.entries id
    return (.leaf (.setOfKeys (entries.filterMap fun e => b.cells.leaf? e.1)), b)
  | .sequence =>
    let (places, b) ← meetAll (← Merge.elementsOf? b.nodes id) b
    return (.list places, b)
  | _ =>
    let (places, b) ← meetPairs (← Merge.elementsOf? b.nodes id) b
    return (.list places, b)

/-- Fills the containers from one on; the first number bounds the steps. -/
def fillFrom : Nat → Nat → Build → Option Build
  | 0, _, _ => none
  | steps + 1, i, b =>
    match b.containers[i]? with
    | none => some b
    | some (id, place) => do
      let (content, b) ← b.contentOf id
      fillFrom steps (i + 1) { b with cells := b.cells.modify place fun _ => content }

end Build

/-! ## 3. Documents -/

/-- The value of a document. -/
def Document.value? (d : Document) : Option Ref := do
  let (place, b) ← (Build.start d.nodes).meet d.root
  let b ← Build.fillFrom (d.nodes.size + 1) 0 b
  return ⟨b.cells, place⟩

/-- The value of a text that is a YAML document; an empty text is null. -/
def read? (t : Text) : Option Ref := do
  match ← Document.ofTokens? (← Token.listOf t) with
  | none => return .ofValue .null
  | some d => d.value?

end Yaml

end Keyscope
