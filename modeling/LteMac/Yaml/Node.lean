import LteMac.Yaml.Token

/-!
# Documents

What a document says, once its brackets are matched: a tree of texts, sequences and mappings, in
which a node may stand for an earlier one. Nodes are repeated by number. A number is the count of
different names when the node was named, so that naming a node again can give its number to
another node: of two nodes with one number the later one counts.
-/

namespace LteMac.Yaml

/-- What is said about a node before the node. -/
structure Properties where
  anchor : Option Nat := none
  tag : Option String := none

/-- A part of a document. -/
inductive Node where
  /-- The node with this number. -/
  | alias (anchor : Nat)
  /-- A text. -/
  | scalar (properties : Properties) (style : ScalarStyle) (text : String)
  /-- A list of nodes. -/
  | sequence (properties : Properties) (items : List Node)
  /-- Keys with their values, in the order in which they are written. -/
  | mapping (properties : Properties) (entries : List (Node × Node))

namespace Node

/-- The empty text that stands where nothing is written. -/
def empty : Node := .scalar {} .plain ""

/-- A node under the number it has. -/
def numbered (p : Properties) (n : Node) : List (Nat × Node) := (p.anchor.map (·, n)).toList

mutual

/-- The nodes with a number, in the order in which they begin. -/
def anchors : Node → List (Nat × Node)
  | .alias _ => []
  | .scalar p style text => numbered p (.scalar p style text)
  | .sequence p items => numbered p (.sequence p items) ++ anchorsOfItems items
  | .mapping p entries => numbered p (.mapping p entries) ++ anchorsOfEntries entries

/-- The same for a list of nodes. -/
def anchorsOfItems : List Node → List (Nat × Node)
  | [] => []
  | n :: ns => anchors n ++ anchorsOfItems ns

/-- The same for the entries of a mapping. -/
def anchorsOfEntries : List (Node × Node) → List (Nat × Node)
  | [] => []
  | (k, v) :: es => anchors k ++ anchors v ++ anchorsOfEntries es

end

mutual

/-- How much is written: every text and repetition counts once, all others twice. -/
def size : Node → Nat
  | .alias _ | .scalar .. => 1
  | .sequence _ items => sizeOfItems items + 2
  | .mapping _ entries => sizeOfEntries entries + 2

/-- The same for a list of nodes. -/
def sizeOfItems : List Node → Nat
  | [] => 0
  | n :: ns => size n + sizeOfItems ns

/-- The same for the entries of a mapping. -/
def sizeOfEntries : List (Node × Node) → Nat
  | [] => 0
  | (k, v) :: es => size k + size v + sizeOfEntries es

end

end Node

/-- What the handles of tags stand for. -/
abbrev Handles := List (List Char × List Char)

/-- What handles stand for where no directive says otherwise. -/
def usualHandles : Handles := [(['!'], ['!']), (['!', '!'], "tag:yaml.org,2002:".toList)]

/-- The tag that is meant by what is written. -/
def WrittenTag.resolve? (handles : Handles) (t : WrittenTag) : Option String :=
  if t.handle.isEmpty then some (String.ofList t.suffix)
  else (handles.lookup t.handle).map fun head => String.ofList (head ++ t.suffix)

/-- What is left to be read, and the names given so far. -/
structure Composer where
  tokens : List Token
  names : List (String × Nat) := []

namespace Composer

/-- Gives a name to the next number; the name has no other number any more. -/
def declare (c : Composer) (name : String) : Nat × Composer :=
  let number := c.names.length
  (number, { c with names := (name, number) :: c.names.filter (·.1 != name) })

/-- A name before a node, if one comes next. -/
def anchor? (c : Composer) : Option String × Composer :=
  match c.tokens with
  | .anchor name :: tokens => (some name, { c with tokens })
  | _ => (none, c)

/-- A tag before a node, if one comes next. -/
def tag? (c : Composer) : Option WrittenTag × Composer :=
  match c.tokens with
  | .tag t :: tokens => (some t, { c with tokens })
  | _ => (none, c)

/-- What is said before a node: a name and a tag, in either order. -/
def properties (handles : Handles) (c : Composer) : Option (Properties × Composer) := do
  let (name, c) := c.anchor?
  let (tag, c) := c.tag?
  let (name, c) := if name.isNone && tag.isSome then c.anchor? else (name, c)
  let tag ← match tag with
    | none => some none
    | some t => (t.resolve? handles).map some
  match name with
  | none => return ({ tag }, c)
  | some name =>
    let (number, c) := c.declare name
    return ({ anchor := some number, tag }, c)

/-- Passes over a token that ends something or must follow. -/
def drop (c : Composer) : Composer := { c with tokens := c.tokens.tail }

/-- A node of which only the name or the tag is written. -/
def unwritten (p : Properties) (c : Composer) : Option (Node × Composer) :=
  if p.anchor.isSome || p.tag.isSome then some (.scalar p .plain "", c) else none

/-- Whether an entry of a block is left empty, by the token after its indicator. -/
def emptyEntry : Option Token → Bool
  | some .blockEntry | some .blockEnd => true
  | _ => false

/-- Whether a key or value of a block is left empty, by the token after its indicator. -/
def emptyPart : Option Token → Bool
  | some .key | some .value | some .blockEnd => true
  | _ => false

/-- Whether the key of a pair in square brackets is left empty. -/
def emptyPairKey : Option Token → Bool
  | some .value | some .flowEntry | some .flowSequenceEnd => true
  | _ => false

/-- Whether the value of a pair in square brackets is left empty. -/
def emptyPairValue : Option Token → Bool
  | some .flowEntry | some .flowSequenceEnd => true
  | _ => false

/-- Whether the key of an entry in curly brackets is left empty. -/
def emptyFlowKey : Option Token → Bool
  | some .value | some .flowEntry | some .flowMappingEnd => true
  | _ => false

/-- Whether the value of an entry in curly brackets is left empty. -/
def emptyFlowValue : Option Token → Bool
  | some .flowEntry | some .flowMappingEnd => true
  | _ => false

/-- Passes over the comma before an entry, which the first entry does not have. -/
def comma (first : Bool) (c : Composer) : Option Composer :=
  if first then some c
  else match c.tokens with
    | .flowEntry :: tokens => some { c with tokens }
    | _ => none

mutual

/-- A node. Blocks stand in blocks only; `dashes` says that a sequence may follow whose dashes
are no further right than the key before it. -/
def node (handles : Handles) (inBlock dashes : Bool) : Nat → Composer → Option (Node × Composer)
  | 0, _ => none
  | bound + 1, c =>
    match c.tokens with
    | .alias name :: tokens =>
      (c.names.lookup name).map fun number => (.alias number, { c with tokens })
    | _ => do
      let (p, c) ← properties handles c
      match c.tokens with
      | .scalar style text :: tokens =>
        let p := if p.tag == some "!" then { p with tag := none } else p
        return (.scalar p style text, { c with tokens })
      | .flowSequenceStart :: _ =>
        let (items, c) ← flowItems handles true bound c.drop
        return (.sequence p items, c)
      | .flowMappingStart :: _ =>
        let (entries, c) ← flowEntries handles true bound c.drop
        return (.mapping p entries, c)
      | .blockEntry :: _ =>
        if dashes then
          let (items, c) ← dashItems handles bound c
          return (.sequence p items, c)
        else unwritten p c
      | .blockSequenceStart :: _ =>
        if inBlock then
          let (items, c) ← blockItems handles bound c.drop
          return (.sequence p items, c)
        else unwritten p c
      | .blockMappingStart :: _ =>
        if inBlock then
          let (entries, c) ← blockEntries handles bound c.drop
          return (.mapping p entries, c)
        else unwritten p c
      | _ => unwritten p c

/-- A node, unless it is left empty. -/
def part (handles : Handles) (inBlock dashes : Bool) (isEmpty : Option Token → Bool) :
    Nat → Composer → Option (Node × Composer)
  | 0, _ => none
  | bound + 1, c =>
    if isEmpty c.tokens.head? then some (.empty, c) else node handles inBlock dashes bound c

/-- The items of a sequence that is indented. -/
def blockItems (handles : Handles) : Nat → Composer → Option (List Node × Composer)
  | 0, _ => none
  | bound + 1, c =>
    match c.tokens with
    | .blockEntry :: _ => do
      let (item, c) ← part handles true false emptyEntry bound c.drop
      let (items, c) ← blockItems handles bound c
      return (item :: items, c)
    | .blockEnd :: _ => some ([], c.drop)
    | _ => none

/-- The items of a sequence that is not indented; it ends where no dash follows. -/
def dashItems (handles : Handles) : Nat → Composer → Option (List Node × Composer)
  | 0, _ => none
  | bound + 1, c =>
    match c.tokens with
    | .blockEntry :: _ => do
      let (item, c) ←
        part handles true false (fun t => emptyEntry t || emptyPart t) bound c.drop
      let (items, c) ← dashItems handles bound c
      return (item :: items, c)
    | _ => some ([], c)

/-- The value after a key, if there is one. -/
def valueOf (handles : Handles) (inBlock : Bool) (isEmpty : Option Token → Bool) :
    Nat → Composer → Option (Node × Composer)
  | 0, _ => none
  | bound + 1, c =>
    match c.tokens with
    | .value :: _ => part handles inBlock inBlock isEmpty bound c.drop
    | _ => some (.empty, c)

/-- The entries of a mapping in a block. -/
def blockEntries (handles : Handles) : Nat → Composer → Option (List (Node × Node) × Composer)
  | 0, _ => none
  | bound + 1, c =>
    match c.tokens with
    | .key :: _ => do
      let (key, c) ← part handles true true emptyPart bound c.drop
      let (value, c) ← valueOf handles true emptyPart bound c
      let (entries, c) ← blockEntries handles bound c
      return ((key, value) :: entries, c)
    | .blockEnd :: _ => some ([], c.drop)
    | _ => none

/-- The items in square brackets. A pair among them is a mapping of its own; where its key is
left empty, the token that shows it is passed over. -/
def flowItems (handles : Handles) (first : Bool) :
    Nat → Composer → Option (List Node × Composer)
  | 0, _ => none
  | bound + 1, c =>
    match c.tokens with
    | .flowSequenceEnd :: _ => some ([], c.drop)
    | _ => do
      let c ← c.comma first
      match c.tokens with
      | .flowSequenceEnd :: _ => return ([], c.drop)
      | .key :: _ =>
        let c := c.drop
        let (key, c) ←
          if emptyPairKey c.tokens.head? then some (.empty, c.drop)
          else node handles false false bound c
        let (value, c) ← valueOf handles false emptyPairValue bound c
        let (items, c) ← flowItems handles false bound c
        return (.mapping {} [(key, value)] :: items, c)
      | _ =>
        let (item, c) ← node handles false false bound c
        let (items, c) ← flowItems handles false bound c
        return (item :: items, c)

/-- The entries in curly brackets. An entry may be a key alone. -/
def flowEntries (handles : Handles) (first : Bool) :
    Nat → Composer → Option (List (Node × Node) × Composer)
  | 0, _ => none
  | bound + 1, c =>
    match c.tokens with
    | .flowMappingEnd :: _ => some ([], c.drop)
    | _ => do
      let c ← c.comma first
      match c.tokens with
      | .flowMappingEnd :: _ => return ([], c.drop)
      | .key :: _ =>
        let (key, c) ← part handles false false emptyFlowKey bound c.drop
        let (value, c) ← valueOf handles false emptyFlowValue bound c
        let (entries, c) ← flowEntries handles false bound c
        return ((key, value) :: entries, c)
      | _ =>
        let (key, c) ← node handles false false bound c
        let (entries, c) ← flowEntries handles false bound c
        return ((key, .empty) :: entries, c)

end

/-- The directives before a document, and whether its version was given. Only versions 1.1 and
1.2 are understood, and neither the version nor a handle may be given twice. -/
def directives (handles : Handles) (versioned : Bool) :
    List Token → Option (Handles × List Token)
  | .directive (.version major minor) :: tokens =>
    if versioned || major != 1 || (minor != 1 && minor != 2) then none
    else directives handles true tokens
  | .directive (.handle t) :: tokens =>
    if (handles.lookup t.handle).isSome then none
    else directives ((t.handle, t.suffix) :: handles) versioned tokens
  | tokens => some (handles, tokens)

/-- Whether a document has no content, by the token after its first marker. -/
def emptyDocument : Option Token → Bool
  | none | some (.directive _) | some .documentStart | some .documentEnd => true
  | _ => false

/-- Passes over the markers after a document; nothing may follow. -/
def atEnd : List Token → Bool
  | [] => true
  | .documentEnd :: tokens => atEnd tokens
  | _ => false

/-- The only document in a sequence of tokens. -/
def root (tokens : List Token) : Option Node := do
  let bound := 2 * tokens.length + 4
  let (handles, rest) ← directives [] false tokens
  let handles := handles ++ usualHandles
  let begin : Option (List Token × Bool) := match tokens, rest with
    | [], _ => some ([], true)
    | .directive _ :: _, .documentStart :: content => some (content, emptyDocument content.head?)
    | .documentStart :: content, _ => some (content, emptyDocument content.head?)
    | .directive _ :: _, _ => none
    | content, _ => some (content, false)
  let (content, isEmpty) ← begin
  let (n, c) ←
    if isEmpty then some (.empty, ⟨content, []⟩)
    else node handles true false bound ⟨content, []⟩
  if atEnd c.tokens then return n else none

end Composer

/-- A document: its tree, and the nodes that may be repeated. -/
structure Document where
  root : Node
  anchors : List (Nat × Node)

namespace Document

/-- The document with a given tree. -/
def ofRoot (root : Node) : Document := ⟨root, root.anchors.reverse⟩

/-- The one document of a text, or nothing if the text is not well formed. -/
def parse? (text : String) : Option Document := do
  return ofRoot (← Composer.root (← tokens? text))

end Document

end LteMac.Yaml
