/-
# Nodes of YAML

Tokens become nodes: scalars, sequences and mappings, each with its tag.  Nodes have numbers, and a
container names its parts by them, for a name may put one node into many places: into every place
where the name stands, the node itself included.

A text holds at most one document.
-/
import Keyscope.Yaml.Tag
import Keyscope.Yaml.Token

namespace Keyscope

namespace Yaml

/-- What a node holds; parts are given by their numbers. -/
inductive Content where
  | scalar (text : Text)
  | sequence (nodes : List Nat)
  | mapping (entries : List (Nat × Nat))
  deriving Repr

structure Node where
  tag : Tag
  content : Content
  deriving Repr

/-- The nodes of a document by their numbers, and the number of the outermost one. -/
structure Document where
  nodes : Array Node
  root : Nat
  deriving Repr

namespace Node

/-! ## 1. Properties of a node -/

/-- What was read so far: the nodes, what names and tag handles stand for, and how many sequences
and mappings are open. -/
structure Draft where
  nodes : Array Node
  anchors : List (Text × Nat)
  handles : List (Text × Text)
  depth : Nat

/-- What was read, with all that was read before it and the tokens that are left. -/
abbrev Parsed (α : Type) := α × Draft × List Token

/-- Anchor and tag in front of a node, in either order. -/
structure Properties where
  anchor : Option Text
  tag : Option (Option Text × Text)

def Properties.isEmpty (p : Properties) : Bool := p.anchor.isNone && p.tag.isNone

/-- Reads the properties of a node. -/
def properties : List Token → Properties × List Token
  | .anchor a :: .tag h s :: ts => (⟨some a, some (h, s)⟩, ts)
  | .anchor a :: ts => (⟨some a, none⟩, ts)
  | .tag h s :: .anchor a :: ts => (⟨some a, some (h, s)⟩, ts)
  | .tag h s :: ts => (⟨none, some (h, s)⟩, ts)
  | ts => (⟨none, none⟩, ts)

/-- The tag of a scalar. -/
def scalarTag (tag : Option Text) (plain : Bool) (text : Text) : Tag :=
  match tag with
  | none => if plain then Tag.ofForm text else .text
  | some t => if t = "!" then Tag.ofForm text else Tag.ofText t

/-- The tag of a sequence or a mapping. -/
def containerTag (tag : Option Text) (standard : Tag) : Tag :=
  match tag with
  | none => standard
  | some t => if t = "!" then standard else Tag.ofText t

/-- How deep sequences and mappings may lie in each other. -/
def maxDepth : Nat := 484

namespace Draft

/-- Nothing was read yet. -/
def empty (handles : List (Text × Text)) : Draft := ⟨#[], [], handles, 0⟩

/-- The tag of a node as written out in full; the handle must be known. -/
def fullTag? (d : Draft) : Option (Option Text × Text) → Option (Option Text)
  | none => some none
  | some (none, suffix) => some (some suffix)
  | some (some handle, suffix) => (d.handles.lookup handle).map fun t => some (t ++ suffix)

/-- Adds a node, which gets the next number. -/
def add (d : Draft) (n : Node) : Nat × Draft := (d.nodes.size, { d with nodes := d.nodes.push n })

/-- Adds a scalar without text. -/
def addEmpty (d : Draft) : Nat × Draft := d.add ⟨.null, .scalar []⟩

/-- Adds a node that may have a name.  No name is given twice. -/
def addNamed? (d : Draft) (anchor : Option Text) (n : Node) : Option (Nat × Draft) :=
  match anchor with
  | none => some (d.add n)
  | some a =>
    if d.anchors.any (·.1 = a) then none
    else
      let (id, d) := d.add n
      some (id, { d with anchors := (a, id) :: d.anchors })

/-- Adds a container without its parts, which may be named before they are known. -/
def open? (d : Draft) (anchor : Option Text) (tag : Tag) : Option (Nat × Draft) :=
  if maxDepth ≤ d.depth then none
  else do
    let (id, d) ← d.addNamed? anchor ⟨tag, .sequence []⟩
    return (id, { d with depth := d.depth + 1 })

/-- Fills in the parts of a container. -/
def close (d : Draft) (id : Nat) (content : Content) : Draft :=
  { d with
    nodes := d.nodes.modify id fun n => { n with content := content }
    depth := d.depth - 1 }

end Draft

/-! ## 2. Nodes from tokens -/

/-- Whether the first token is one of those. -/
def starts (ts : List Token) (p : Token → Bool) : Bool := ts.head?.any p

/-- What ends an entry of a block sequence that is indented no further than its key. -/
def endsIndentless : Token → Bool
  | .blockEntry | .key | .value | .blockEnd => true
  | _ => false

/-- What ends an entry of a block sequence. -/
def endsBlockEntry : Token → Bool
  | .blockEntry | .blockEnd => true
  | _ => false

/-- What ends a key or a value of a block mapping. -/
def endsBlockPart : Token → Bool
  | .key | .value | .blockEnd => true
  | _ => false

/-- What ends a key between braces. -/
def endsFlowKey : Token → Bool
  | .value | .flowEntry | .flowMappingEnd => true
  | _ => false

/-- What ends a value between braces. -/
def endsFlowValue : Token → Bool
  | .flowEntry | .flowMappingEnd => true
  | _ => false

/-- What ends the key of a single pair between brackets. -/
def endsPairKey : Token → Bool
  | .value | .flowEntry | .flowSequenceEnd => true
  | _ => false

/-- What ends the value of a single pair between brackets. -/
def endsPairValue : Token → Bool
  | .flowEntry | .flowSequenceEnd => true
  | _ => false

/-- The tokens after a comma. -/
def afterComma? : List Token → Option (List Token)
  | .flowEntry :: ts => some ts
  | _ => none

/-- Where a node stands, which decides what it may be. -/
inductive Place where
  | flow
  | block
  /-- A value of a block mapping: a sequence need not be indented. -/
  | blockValue
  deriving DecidableEq

mutual

/-- A node at the front of the tokens.  The number bounds the steps. -/
def parse : Nat → Place → Draft → List Token → Option (Parsed Nat)
  | 0, _, _, _ => none
  | steps + 1, place, d, ts =>
    match ts with
    | .alias a :: rest => do
      let id ← d.anchors.lookup a
      return (id, d, rest)
    | _ => do
      let (p, ts) := properties ts
      let tag ← d.fullTag? p.tag
      match ts with
      | .scalar text plain :: rest =>
        let (id, d) ← d.addNamed? p.anchor ⟨scalarTag tag plain text, .scalar text⟩
        return (id, d, rest)
      | .flowSequenceStart :: rest =>
        let (id, d) ← d.open? p.anchor (containerTag tag .sequence)
        let (nodes, d, rest) ← flowSequence steps true d rest
        return (id, d.close id (.sequence nodes), rest)
      | .flowMappingStart :: rest =>
        let (id, d) ← d.open? p.anchor (containerTag tag .mapping)
        let (entries, d, rest) ← flowMapping steps true d rest
        return (id, d.close id (.mapping entries), rest)
      | _ =>
        if place = .blockValue && starts ts (· = .blockEntry) then
          let (id, d) ← d.open? p.anchor (containerTag tag .sequence)
          let (nodes, d, rest) ← indentless steps d ts
          return (id, d.close id (.sequence nodes), rest)
        else if place ≠ .flow && starts ts (· = .blockSequenceStart) then
          let (id, d) ← d.open? p.anchor (containerTag tag .sequence)
          let (nodes, d, rest) ← blockSequence steps d ts.tail
          return (id, d.close id (.sequence nodes), rest)
        else if place ≠ .flow && starts ts (· = .blockMappingStart) then
          let (id, d) ← d.open? p.anchor (containerTag tag .mapping)
          let (entries, d, rest) ← blockMapping steps d ts.tail
          return (id, d.close id (.mapping entries), rest)
        else if p.isEmpty then none
        else
          let (id, d) ← d.addNamed? p.anchor ⟨scalarTag tag true [], .scalar []⟩
          return (id, d, ts)

/-- A node, or an empty one where the first token already ends it. -/
def parseOr : Nat → Place → (Token → Bool) → Draft → List Token → Option (Parsed Nat)
  | 0, _, _, _, _ => none
  | steps + 1, place, ends, d, ts =>
    if starts ts ends then
      let (id, d) := d.addEmpty
      some (id, d, ts)
    else parse steps place d ts

/-- The value after a key: a node after a colon, or an empty one. -/
def valueOr : Nat → Place → (Token → Bool) → Draft → List Token → Option (Parsed Nat)
  | 0, _, _, _, _ => none
  | steps + 1, place, ends, d, ts =>
    match ts with
    | .value :: rest => parseOr steps place ends d rest
    | _ =>
      let (id, d) := d.addEmpty
      some (id, d, ts)

/-- The entries of a block sequence up to its end. -/
def blockSequence : Nat → Draft → List Token → Option (Parsed (List Nat))
  | 0, _, _ => none
  | steps + 1, d, ts =>
    match ts with
    | .blockEntry :: rest => do
      let (n, d, rest) ← parseOr steps .block endsBlockEntry d rest
      let (nodes, d, rest) ← blockSequence steps d rest
      return (n :: nodes, d, rest)
    | .blockEnd :: rest => some ([], d, rest)
    | _ => none

/-- The entries of a sequence that is indented no further than its key. -/
def indentless : Nat → Draft → List Token → Option (Parsed (List Nat))
  | 0, _, _ => none
  | steps + 1, d, ts =>
    match ts with
    | .blockEntry :: rest => do
      let (n, d, rest) ← parseOr steps .block endsIndentless d rest
      let (nodes, d, rest) ← indentless steps d rest
      return (n :: nodes, d, rest)
    | _ => some ([], d, ts)

/-- The entries of a block mapping up to its end. -/
def blockMapping : Nat → Draft → List Token → Option (Parsed (List (Nat × Nat)))
  | 0, _, _ => none
  | steps + 1, d, ts =>
    match ts with
    | .blockEnd :: rest => some ([], d, rest)
    | .key :: rest => do
      let (k, d, rest) ← parseOr steps .blockValue endsBlockPart d rest
      let (v, d, rest) ← valueOr steps .blockValue endsBlockPart d rest
      let (entries, d, rest) ← blockMapping steps d rest
      return ((k, v) :: entries, d, rest)
    | _ => none

/-- The entries between brackets up to the closing one; all but the first follow a comma. -/
def flowSequence : Nat → Bool → Draft → List Token → Option (Parsed (List Nat))
  | 0, _, _, _ => none
  | steps + 1, first, d, ts =>
    match ts with
    | .flowSequenceEnd :: rest => some ([], d, rest)
    | _ => do
      let ts ← if first then some ts else afterComma? ts
      match ts with
      | .flowSequenceEnd :: rest => return ([], d, rest)
      | .key :: rest =>
        let (id, d) ← d.open? none .mapping
        let (k, d, rest) ← parseOr steps .flow endsPairKey d rest
        let (v, d, rest) ← valueOr steps .flow endsPairValue d rest
        let (nodes, d, rest) ← flowSequence steps false (d.close id (.mapping [(k, v)])) rest
        return (id :: nodes, d, rest)
      | _ =>
        let (n, d, rest) ← parse steps .flow d ts
        let (nodes, d, rest) ← flowSequence steps false d rest
        return (n :: nodes, d, rest)

/-- The entries between braces up to the closing one; all but the first follow a comma. -/
def flowMapping : Nat → Bool → Draft → List Token → Option (Parsed (List (Nat × Nat)))
  | 0, _, _, _ => none
  | steps + 1, first, d, ts =>
    match ts with
    | .flowMappingEnd :: rest => some ([], d, rest)
    | _ => do
      let ts ← if first then some ts else afterComma? ts
      match ts with
      | .flowMappingEnd :: rest => return ([], d, rest)
      | .key :: rest =>
        let (k, d, rest) ← parseOr steps .flow endsFlowKey d rest
        let (v, d, rest) ← valueOr steps .flow endsFlowValue d rest
        let (entries, d, rest) ← flowMapping steps false d rest
        return ((k, v) :: entries, d, rest)
      | _ =>
        let (k, d, rest) ← parse steps .flow d ts
        let (v, d) := d.addEmpty
        let (entries, d, rest) ← flowMapping steps false d rest
        return ((k, v) :: entries, d, rest)

end

/-! ## 3. Documents -/

/-- The handles that every document knows. -/
def standardHandles : List (Text × Text) := [("!", "!"), ("!!", Tag.standard)]

/-- The directives in front of a document: whether a version was given, and the handles. -/
def directives : Bool → List (Text × Text) → List Token → Option (List (Text × Text) × List Token)
  | versioned, handles, .directive d :: ts =>
    match d with
    | .version major => if versioned || major ≠ 1 then none else directives true handles ts
    | .handle name expansion =>
      if handles.any (·.1 = name) then none
      else directives versioned ((name, expansion) :: handles) ts
    | .other => directives versioned handles ts
  | _, handles, ts => some (handles ++ standardHandles, ts)

/-- The tokens after marks that end a document. -/
def dropEnds : List Token → List Token
  | .documentEnd :: ts => dropEnds ts
  | ts => ts

/-- What cannot start the content of a document. -/
def isBoundary : Token → Bool
  | .directive _ | .documentStart | .documentEnd => true
  | _ => false

/-- Steps that suffice for so many tokens. -/
def stepsFor (ts : List Token) : Nat := 4 * ts.length + 8

/-- The outermost node at the front of the tokens, as a document. -/
def outermost (handles : List (Text × Text)) (ts : List Token) : Option (Document × List Token) := do
  let (root, d, rest) ← parse (stepsFor ts) .block (.empty handles) ts
  return (⟨d.nodes, root⟩, rest)

/-- The node of a document that starts with a mark. -/
def explicitDocument (ts : List Token) : Option (Document × List Token) := do
  let (handles, ts) ← directives false [] ts
  match ts with
  | .documentStart :: ts =>
    if ts.isEmpty || starts ts isBoundary then
      let (root, d) := (Draft.empty handles).addEmpty
      return (⟨d.nodes, root⟩, ts)
    else outermost handles ts
  | _ => none

end Node

/-- The one document that the tokens hold, or none at all. -/
def Document.ofTokens? (ts : List Token) : Option (Option Document) :=
  if ts.isEmpty then some none
  else do
    let (d, rest) ←
      if Node.starts ts fun t => Node.isBoundary t && t ≠ .documentEnd then Node.explicitDocument ts
      else Node.outermost Node.standardHandles ts
    if (Node.dropEnds rest).isEmpty then some (some d) else none

end Yaml

end Keyscope
