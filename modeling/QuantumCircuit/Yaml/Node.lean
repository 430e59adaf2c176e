import QuantumCircuit.Yaml.Layout

/-!
# Nodes

A YAML document is a tree of scalars, sequences and mappings.  Entries of mappings keep
their order and may repeat a key, and a missing item, key or value is an empty plain
scalar.

Anchors are known by numbers.  An anchor gets the number of different names before it, and
an alias, which must come after an anchor of its name, the number of the last one.  So a
name that is used again takes a new number, which the next new name will share.  A number
stands for the last node in the document that carries it (`Document.follow?`).

`Document.ofText?` reads a text with at most one document.  A text without a document is
not faulty; it has none.
-/

namespace QuantumCircuit.Yaml

set_option autoImplicit false

/-- The nodes of a document; an alias stands for the node with its number. -/
inductive Node where
  | scalar (anchor : Option Nat) (tag : Option Tag) (style : Style) (text : String)
  | sequence (anchor : Option Nat) (items : List Node)
  | mapping (anchor : Option Nat) (entries : List (Node × Node))
  | alias (number : Nat)

namespace Node

/-- What stands for a missing node. -/
def missing : Node := .scalar none none .plain ""

/-- The number of the anchor of a node. -/
def anchor : Node → Option Nat
  | .scalar anchor .. | .sequence anchor _ | .mapping anchor _ => anchor
  | .alias _ => none

mutual
/-- All nodes of a tree in the order in which they start. -/
def inOrder : Node → List Node
  | .sequence anchor items => .sequence anchor items :: inOrderItems items
  | .mapping anchor entries => .mapping anchor entries :: inOrderEntries entries
  | .scalar anchor tag style text => [.scalar anchor tag style text]
  | .alias number => [.alias number]

/-- The nodes of the trees of items, one tree after the other. -/
def inOrderItems : List Node → List Node
  | [] => []
  | item :: rest => item.inOrder ++ inOrderItems rest

/-- The nodes of the trees of entries, each key before its value. -/
def inOrderEntries : List (Node × Node) → List Node
  | [] => []
  | (key, value) :: rest => key.inOrder ++ value.inOrder ++ inOrderEntries rest
end

end Node

/-! ## What has been read before -/

/-- The tokens to be read, the names of the anchors before them with their numbers, and
what the tag handles stand for. -/
structure Input where
  tokens : List Token
  anchors : List (String × Nat)
  handles : List (String × Tag)

namespace Input

/-- The next token. -/
def next (input : Input) : Option Token := input.tokens.head?

/-- What remains after the next token. -/
def skip (input : Input) : Input := { input with tokens := input.tokens.drop 1 }

/-- The number of a new anchor is that of the names before it. -/
def anchor (input : Input) (name : String) : Nat × Input :=
  let number := input.anchors.length
  let others := input.anchors.filter fun (n, _) => n ≠ name
  (number, { input with anchors := (name, number) :: others })

/-- A tag with its handle replaced by what the handle stands for. -/
def resolve? (input : Input) (handle : String) (suffix : Tag) : Option Tag :=
  if handle = "" then some suffix else (input.handles.lookup handle).map (· ++ suffix)

end Input

/-- The anchor and the tag of a node. -/
structure Properties where
  anchor : Option Nat
  tag : Option Tag

namespace Properties

/-- The sequence with these properties, from what its reader returns. -/
def sequence (properties : Properties) : List Node × Input → Node × Input
  | (items, input) => (.sequence properties.anchor items, input)

/-- The mapping with these properties, from what its reader returns. -/
def mapping (properties : Properties) : List (Node × Node) × Input → Node × Input
  | (entries, input) => (.mapping properties.anchor entries, input)

end Properties

/-- Reads an anchor, if there is one. -/
def readNodeAnchor (input : Input) : Option Nat × Input :=
  match input.next with
  | some (.anchor name) => let (number, input) := input.skip.anchor name; (some number, input)
  | _ => (none, input)

/-- Reads a tag, if there is one. -/
def readNodeTag? (input : Input) : Option (Option Tag × Input) :=
  match input.next with
  | some (.tag handle suffix) =>
    (input.resolve? handle suffix).map fun tag => (some tag, input.skip)
  | _ => some (none, input)

/-- Reads an anchor and a tag in any order; each may be missing. -/
def readProperties? (input : Input) : Option (Properties × Input) := do
  match input.next with
  | some (.anchor _) =>
    let (anchor, input) := readNodeAnchor input
    let (tag, input) ← readNodeTag? input
    return (⟨anchor, tag⟩, input)
  | _ =>
    let (tag, input) ← readNodeTag? input
    let (anchor, input) := readNodeAnchor input
    return (⟨anchor, tag⟩, input)

/-! ## Places without a node -/

/-- What may follow a place in a block, instead of a node. -/
def endsBlockNode : Option Token → Bool
  | some .key | some .value | some .blockEnd | some .entry | none => true
  | _ => false

/-- What may follow a key or a value in a block, instead of a node.  A dash starts a
sequence there. -/
def endsBlockValue : Option Token → Bool
  | some .key | some .value | some .blockEnd | none => true
  | _ => false

/-- What may follow a dash in a block sequence, instead of a node. -/
def endsEntry : Option Token → Bool
  | some .entry | some .blockEnd | none => true
  | _ => false

/-- What may follow a key in brackets, instead of a node. -/
def endsFlowKey : Option Token → Bool
  | some .value | some .comma | some .closeBracket | some .closeBrace | none => true
  | _ => false

/-- What may follow a value in brackets, instead of a node. -/
def endsFlowValue : Option Token → Bool
  | some .comma | some .closeBracket | some .closeBrace | none => true
  | _ => false

/-! ## Reading nodes

Every call that does not take a token itself calls one that does, so twice as many calls
as there are tokens can be nested; `depth` bounds them. -/

mutual
/-- Reads a node.  `inBlock` allows block collections and `dashes` a sequence of dashes
without an indentation of its own. -/
def readNode? (inBlock dashes : Bool) (input : Input) : (depth : Nat) → Option (Node × Input)
  | 0 => none
  | depth + 1 =>
    match input.next with
    | some (.alias name) =>
      (input.anchors.lookup name).map fun number => (.alias number, input.skip)
    | _ => do
      let (properties, input) ← readProperties? input
      readContent? inBlock dashes properties input depth

/-- Reads a node after its anchor and tag. -/
def readContent? (inBlock dashes : Bool) (properties : Properties) (input : Input) :
    (depth : Nat) → Option (Node × Input)
  | 0 => none
  | depth + 1 =>
    match input.next with
    | some (.scalar style text) =>
      some (.scalar properties.anchor properties.tag style text, input.skip)
    | some .openBracket => (readFlowItems? true [] input.skip depth).map properties.sequence
    | some .openBrace => (readFlowEntries? true [] input.skip depth).map properties.mapping
    | next =>
      if dashes && next == some .entry then
        (readDashes? [] input depth).map properties.sequence
      else if inBlock && next == some .blockSequence then
        (readBlockItems? [] input.skip depth).map properties.sequence
      else if inBlock && next == some .blockMapping then
        (readBlockEntries? [] input.skip depth).map properties.mapping
      else if properties.anchor.isSome || properties.tag.isSome then
        some (.scalar properties.anchor properties.tag .plain "", input)
      else none

/-- Reads a node unless the place is empty. -/
def readUnless? (ends : Option Token → Bool) (inBlock dashes : Bool) (input : Input) :
    (depth : Nat) → Option (Node × Input)
  | 0 => none
  | depth + 1 =>
    if ends input.next then some (.missing, input) else readNode? inBlock dashes input depth

/-- Reads the items of a block sequence; `items` is reversed. -/
def readBlockItems? (items : List Node) (input : Input) :
    (depth : Nat) → Option (List Node × Input)
  | 0 => none
  | depth + 1 =>
    match input.next with
    | some .entry => do
      let (item, input) ← readUnless? endsEntry true false input.skip depth
      readBlockItems? (item :: items) input depth
    | some .blockEnd => some (items.reverse, input.skip)
    | _ => none

/-- Reads the items of a sequence of dashes, up to the first token that is none. -/
def readDashes? (items : List Node) (input : Input) :
    (depth : Nat) → Option (List Node × Input)
  | 0 => none
  | depth + 1 =>
    match input.next with
    | some .entry => do
      let (item, input) ← readUnless? endsBlockNode true false input.skip depth
      readDashes? (item :: items) input depth
    | _ => some (items.reverse, input)

/-- Reads the value of a key, which is missing without a colon. -/
def readValueOf? (ends : Option Token → Bool) (inBlock : Bool) (input : Input) :
    (depth : Nat) → Option (Node × Input)
  | 0 => none
  | depth + 1 =>
    match input.next with
    | some .value => readUnless? ends inBlock inBlock input.skip depth
    | _ => some (.missing, input)

/-- Reads the entries of a block mapping. -/
def readBlockEntries? (entries : List (Node × Node)) (input : Input) :
    (depth : Nat) → Option (List (Node × Node) × Input)
  | 0 => none
  | depth + 1 =>
    match input.next with
    | some .key => do
      let (key, input) ← readUnless? endsBlockValue true true input.skip depth
      let (value, input) ← readValueOf? endsBlockValue true input depth
      readBlockEntries? ((key, value) :: entries) input depth
    | some .blockEnd => some (entries.reverse, input.skip)
    | _ => none

/-- Reads the items of a sequence in brackets.  A key with its value is a mapping with
one entry. -/
def readFlowItems? (atStart : Bool) (items : List Node) (input : Input) :
    (depth : Nat) → Option (List Node × Input)
  | 0 => none
  | depth + 1 =>
    match atStart, input.next with
    | _, some .closeBracket => some (items.reverse, input.skip)
    | false, some .comma =>
      if input.skip.next == some .closeBracket then
        some (items.reverse, input.skip.skip)
      else readFlowItem? items input.skip depth
    | true, _ => readFlowItem? items input depth
    | _, _ => none

/-- Reads one item in brackets and goes on. -/
def readFlowItem? (items : List Node) (input : Input) :
    (depth : Nat) → Option (List Node × Input)
  | 0 => none
  | depth + 1 =>
    match input.next with
    | some .key => do
      let (key, input) ← readUnless? endsFlowKey false false input.skip depth
      let (value, input) ← readValueOf? endsFlowValue false input depth
      readFlowItems? false (.mapping none [(key, value)] :: items) input depth
    | _ => do
      let (item, input) ← readNode? false false input depth
      readFlowItems? false (item :: items) input depth

/-- Reads the entries of a mapping in braces. -/
def readFlowEntries? (atStart : Bool) (entries : List (Node × Node)) (input : Input) :
    (depth : Nat) → Option (List (Node × Node) × Input)
  | 0 => none
  | depth + 1 =>
    match atStart, input.next with
    | _, some .closeBrace => some (entries.reverse, input.skip)
    | false, some .comma =>
      if input.skip.next == some .closeBrace then
        some (entries.reverse, input.skip.skip)
      else readFlowEntry? entries input.skip depth
    | true, _ => readFlowEntry? entries input depth
    | _, _ => none

/-- Reads one entry in braces and goes on.  An entry without a key mark has no value. -/
def readFlowEntry? (entries : List (Node × Node)) (input : Input) :
    (depth : Nat) → Option (List (Node × Node) × Input)
  | 0 => none
  | depth + 1 =>
    match input.next with
    | some .key => do
      let (key, input) ← readUnless? endsFlowKey false false input.skip depth
      let (value, input) ← readValueOf? endsFlowValue false input depth
      readFlowEntries? false ((key, value) :: entries) input depth
    | _ => do
      let (key, input) ← readNode? false false input depth
      readFlowEntries? false ((key, .missing) :: entries) input depth
end

/-! ## Documents -/

/-- The directives before a document: the version at most once and each handle at most
once. -/
def readDirectives? (versionSeen : Bool) (handles : List (String × Tag)) :
    List Token → Option (List (String × Tag) × List Token)
  | .version major minor :: rest =>
    if versionSeen || major ≠ 1 || (minor ≠ 1 && minor ≠ 2) then none
    else readDirectives? true handles rest
  | .tagHandle handle stem :: rest =>
    if handles.any fun (h, _) => h == handle then none
    else readDirectives? versionSeen ((handle, stem) :: handles) rest
  | ts => some (handles, ts)

/-- The handles that need no directive. -/
def standardHandles : List (String × Tag) :=
  [("!", Tag.ofString "!"), ("!!", Tag.ofString "tag:yaml.org,2002:")]

/-- The handles of a document, and the tokens of its content.  Directives must be followed
by the mark of a document. -/
def readDocumentStart? (ts : List Token) : Option (Bool × List (String × Tag) × List Token) :=
  match ts with
  | .version .. :: _ | .tagHandle .. :: _ | .documentStart :: _ => do
    let (handles, rest) ← readDirectives? false [] ts
    match rest with
    | .documentStart :: rest => some (true, handles ++ standardHandles, rest)
    | _ => none
  | ts => some (false, standardHandles, ts)

/-- Whether a document that has been marked is empty. -/
def endsDocument : Option Token → Bool
  | some (.version ..) | some (.tagHandle ..) | some .documentStart | some .documentEnd
  | none => true
  | _ => false

/-- A document: its root, and the nodes with anchors, the last one first. -/
structure Document where
  root : Node
  anchored : List (Nat × Node)

namespace Document

/-- The document of a root, with the nodes in it that have anchors. -/
def ofRoot (root : Node) : Document where
  root := root
  anchored := (root.inOrder.filterMap fun node => node.anchor.map (·, node)).reverse

/-- **What a node stands for**: an alias for the last node with its number, and any other
node for itself. -/
def follow? (d : Document) : Node → Option Node
  | .alias number => d.anchored.lookup number
  | node => some node

/-- **The document of a text**: the outer option is for faults and texts with several
documents, the inner one for texts without a document. -/
def ofText? (text : String) : Option (Option Document) := do
  match ← tokens? text with
  | [] => return none
  | ts =>
    let (marked, handles, ts) ← readDocumentStart? ts
    let input : Input := ⟨ts, [], handles⟩
    let depth := 3 * ts.length + 3
    let (node, input) ←
      if marked then readUnless? endsDocument true false input depth
      else readNode? true false input depth
    if input.tokens.all (· == .documentEnd) then return some (.ofRoot node) else none

end Document

end QuantumCircuit.Yaml
