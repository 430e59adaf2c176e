import QuantumCircuit.Yaml.Token

/-!
# The layout rule

Outside of brackets YAML shows structure by indentation.  A dash, a question mark or a
key further to the right than the enclosing block starts a new block there, and a token
to the left of a block ends it.

A key before a colon looks like any scalar, so wherever one may stand its place is
remembered.  At the colon the tokens that make it a key are put in front of it.  A key must
be on the line of its colon and within 1024 bytes of it; a place where nothing but a key may
stand and no colon follows is a fault.

`Layout.step` reads one token with the tokens that the layout adds, and `tokens?` repeats
it to the end of the text.
-/

namespace QuantumCircuit.Yaml

set_option autoImplicit false

/-! ## Layouts -/

/-- A place where a key may turn out to stand: how many tokens are before it, where it
is, and whether it has to be one. -/
structure PossibleKey where
  position : Nat
  glyph : Glyph
  required : Bool

/-- The tokens so far and what the layout rule remembers.  `indentation` is the column of
the innermost block, minus one outside of all, and `keys` has the possible key of every
open bracket, innermost first, and of the block around them. -/
structure Layout where
  tokens : Array Token
  indentation : Int
  outer : List Int
  keyAllowed : Bool
  keys : List (Option PossibleKey)

namespace Layout

/-- The layout before the first token: no block, no bracket, and a key may stand. -/
def start : Layout := ⟨#[], -1, [], true, [none]⟩

/-- Whether a bracket is open. -/
def inFlow (s : Layout) : Bool := 1 < s.keys.length

/-- Appends a token. -/
def push (s : Layout) (t : Token) : Layout := { s with tokens := s.tokens.push t }

/-! ## Blocks -/

/-- Ends the blocks to the right of a column. -/
def closeBlocks (tokens : Array Token) (column indentation : Int) :
    List Int → Array Token × Int × List Int
  | [] => (tokens, indentation, [])
  | outer :: rest =>
    if column < indentation then closeBlocks (tokens.push .blockEnd) column outer rest
    else (tokens, indentation, outer :: rest)

/-- Ends the blocks to the right of a column, unless a bracket is open. -/
def unroll (s : Layout) (column : Int) : Layout :=
  if s.inFlow then s
  else
    let (tokens, indentation, outer) := closeBlocks s.tokens column s.indentation s.outer
    { s with tokens := tokens, indentation := indentation, outer := outer }

/-- Starts a block at a column, if that is to the right of the innermost one, with its
token at the given place. -/
def roll (s : Layout) (column position : Nat) (t : Token) : Layout :=
  if s.inFlow || column ≤ s.indentation then s
  else
    { s with
      tokens := s.tokens.insertIdxIfInBounds position t
      indentation := column
      outer := s.indentation :: s.outer }

/-! ## Possible keys -/

/-- Gives up the innermost possible key. -/
def dropKey? (s : Layout) : Option Layout :=
  match s.keys with
  | some key :: rest => if key.required then none else some { s with keys := none :: rest }
  | _ => some s

/-- Remembers that a key may stand here. -/
def saveKey? (s : Layout) (g : Glyph) : Option Layout :=
  if s.keyAllowed then
    s.dropKey?.map fun s =>
      let key : PossibleKey :=
        ⟨s.tokens.size, g, !s.inFlow && s.indentation == (g.column : Int)⟩
      { s with keys := some key :: s.keys.drop 1 }
  else some s

/-- Gives up the possible keys that are too far away. -/
def dropStaleKeys? (g : Glyph) : List (Option PossibleKey) → Option (List (Option PossibleKey))
  | [] => some []
  | none :: rest => (dropStaleKeys? g rest).map (none :: ·)
  | some key :: rest =>
    if key.glyph.line < g.line || key.glyph.offset + 1024 < g.offset then
      if key.required then none else (dropStaleKeys? g rest).map (none :: ·)
    else (dropStaleKeys? g rest).map (some key :: ·)

/-! ## The space before a token -/

/-- Drops blanks, comments, line breaks and a byte order mark at the start of a line.  After
a line break outside of brackets a key may stand; a tab may stand only where no key may. -/
def dropSpace (inFlow : Bool) (keyAllowed inComment : Bool) :
    List Glyph → Bool × List Glyph
  | [] => (keyAllowed, [])
  | g :: rest =>
    if g.isBreak then dropSpace inFlow (keyAllowed || !inFlow) false rest
    else if g.isEnd then (keyAllowed, g :: rest)
    else if inComment then dropSpace inFlow keyAllowed true rest
    else if g.char = '#' then dropSpace inFlow keyAllowed true rest
    else if g.char = ' ' || (g.char = '\t' && (inFlow || !keyAllowed))
        || (g.char = byteOrderMark && g.column = 0) then
      dropSpace inFlow keyAllowed false rest
    else (keyAllowed, g :: rest)

/-! ## Tokens with layout -/

/-- A directive or a document marker ends all blocks. -/
def endBlocks? (s : Layout) : Option Layout :=
  (s.unroll (-1)).dropKey?.map ({ · with keyAllowed := false })

/-- An anchor, an alias, a tag or a scalar in one line: a key may start with it. -/
def content? (s : Layout) (g : Glyph) (t : Token) : Option Layout :=
  (s.saveKey? g).map fun s => ({ s with keyAllowed := false }).push t

/-- An opening bracket: a key may start with it, and one may stand after it. -/
def openFlow? (s : Layout) (g : Glyph) (t : Token) : Option Layout :=
  (s.saveKey? g).map fun s => ({ s with keys := none :: s.keys, keyAllowed := true }).push t

/-- A closing bracket ends what its opening one began. -/
def closeFlow? (s : Layout) (t : Token) : Option Layout :=
  s.dropKey?.map fun s =>
    ({ s with keys := if s.inFlow then s.keys.drop 1 else s.keys, keyAllowed := false }).push t

/-- A comma: a key may stand after it. -/
def comma? (s : Layout) : Option Layout :=
  s.dropKey?.map fun s => ({ s with keyAllowed := true }).push .comma

/-- Starts a block here for an indicator, where one may stand. -/
def blockHere? (s : Layout) (g : Glyph) (t : Token) : Option Layout :=
  if s.inFlow then some s
  else if s.keyAllowed then some (s.roll g.column s.tokens.size t)
  else none

/-- A dash: an item of a sequence, in which a key may stand. -/
def entry? (s : Layout) (g : Glyph) : Option Layout := do
  let s ← (← s.blockHere? g .blockSequence).dropKey?
  return ({ s with keyAllowed := true }).push .entry

/-- A question mark: a key that may be of any kind. -/
def key? (s : Layout) (g : Glyph) : Option Layout := do
  let s ← (← s.blockHere? g .blockMapping).dropKey?
  return ({ s with keyAllowed := !s.inFlow }).push .key

/-- A colon: what is before it becomes a key, if it can be one. -/
def value? (s : Layout) (g : Glyph) : Option Layout :=
  match s.keys with
  | some key :: rest =>
    let s := { s with
      tokens := s.tokens.insertIdxIfInBounds key.position .key
      keys := none :: rest
      keyAllowed := false }
    some ((s.roll key.glyph.column key.position .blockMapping).push .value)
  | _ => do
    let s ← s.blockHere? g .blockMapping
    return ({ s with keyAllowed := !s.inFlow }).push .value

/-- A quoted scalar, with which a key may start. -/
def quoted? (s : Layout) (double : Bool) (g : Glyph) (rest : List Glyph) :
    Option (Layout × List Glyph) := do
  let (text, rest) ← readQuoted? double .char [] .none rest
  return (← s.content? g (.scalar .quoted (String.ofList text)), rest)

/-- A block scalar, which is never a key; the next line may start with one. -/
def block? (s : Layout) (folded : Bool) (rest : List Glyph) : Option (Layout × List Glyph) := do
  let s ← s.dropKey?
  let (text, rest) ← readBlock? folded s.indentation rest
  let style := if folded then Style.folded else .literal
  return (({ s with keyAllowed := true }).push (.scalar style (String.ofList text)), rest)

/-- A plain scalar, with which a key may start; after a line break another one may stand.
-/
def plain? (s : Layout) (g : Glyph) (rest : List Glyph) : Option (Layout × List Glyph) := do
  let scalar ← readPlain? s.inFlow (s.indentation + 1) [] .none (g :: rest)
  let s ← s.content? g (.scalar .plain (String.ofList scalar.text))
  return ({ s with keyAllowed := s.keyAllowed || scalar.breakAfter }, scalar.rest)

/-- Whether a plain scalar may start with a character before others. -/
def startsPlain (inFlow : Bool) (g : Glyph) (rest : List Glyph) : Bool :=
  if g.char = '-' then !startsWith Glyph.isBlank rest
  else if g.char = '?' || g.char = ':' then !inFlow && !startsWith Glyph.endsWord rest
  else !g.endsWord && !isOneOf ",[]\x7b\x7d#&*!|>\"%@\x60" g.char && g.char ≠ '\''

/-- Reads the token that starts with a glyph. -/
def read? (s : Layout) (g : Glyph) (rest : List Glyph) : Option (Layout × List Glyph) :=
  let endsWord := startsWith Glyph.endsWord rest
  if g.column = 0 && g.char = '%' then do
    let s ← s.endBlocks?
    let (directive, rest) ← readDirective? rest
    return (s.push directive, rest)
  else if startsMarker '-' (g :: rest) then
    s.endBlocks?.map fun s => (s.push .documentStart, rest.drop 2)
  else if startsMarker '.' (g :: rest) then
    s.endBlocks?.map fun s => (s.push .documentEnd, rest.drop 2)
  else if g.char = '[' then (s.openFlow? g .openBracket).map (·, rest)
  else if g.char = '{' then (s.openFlow? g .openBrace).map (·, rest)
  else if g.char = ']' then (s.closeFlow? .closeBracket).map (·, rest)
  else if g.char = '}' then (s.closeFlow? .closeBrace).map (·, rest)
  else if g.char = ',' then s.comma?.map (·, rest)
  else if g.char = '-' && endsWord then (s.entry? g).map (·, rest)
  else if g.char = '?' && (s.inFlow || endsWord) then (s.key? g).map (·, rest)
  else if g.char = ':' && (s.inFlow || endsWord) then (s.value? g).map (·, rest)
  else if g.char = '*' then do
    let (name, rest) ← readName? rest
    return (← s.content? g (.alias name), rest)
  else if g.char = '&' then do
    let (name, rest) ← readName? rest
    return (← s.content? g (.anchor name), rest)
  else if g.char = '!' then do
    let (tag, rest) ← readLoneTag? s.inFlow rest
    return (← s.content? g tag, rest)
  else if g.char = '|' && !s.inFlow then s.block? false rest
  else if g.char = '>' && !s.inFlow then s.block? true rest
  else if g.char = '\'' then s.quoted? false g rest
  else if g.char = '"' then s.quoted? true g rest
  else if startsPlain s.inFlow g rest then s.plain? g rest
  else none

/-- **One token, with what the layout adds before it.**  The end of the text ends all
blocks, and nothing is left then. -/
def step (s : Layout) (gs : List Glyph) : Option (Layout × List Glyph) :=
  let (keyAllowed, gs) := dropSpace s.inFlow s.keyAllowed false gs
  match gs with
  | [] => some (s, [])
  | g :: rest => do
    let keys ← dropStaleKeys? g s.keys
    let s := { s with keys := keys, keyAllowed := keyAllowed }.unroll g.column
    if g.isEnd then return (← s.endBlocks?, []) else s.read? g rest

/-- Reads tokens until nothing is left.  Every token takes a glyph, so as many steps as
there are glyphs are enough. -/
def finish? (s : Layout) (gs : List Glyph) : (steps : Nat) → Option (Array Token)
  | 0 => none
  | steps + 1 =>
    match s.step gs with
    | none => none
    | some (s, []) => some s.tokens
    | some (s, gs) => s.finish? gs steps

end Layout

/-- **The tokens of a text.** -/
def tokens? (text : String) : Option (List Token) := do
  let gs ← glyphs? text
  return (← Layout.start.finish? gs gs.length).toList

end QuantumCircuit.Yaml
