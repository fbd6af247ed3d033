import LteMac.Yaml.Property
import LteMac.Yaml.Scalar

/-!
# Tokens of a document

A document is a sequence of texts, names and tags, held together by brackets: some are written,
others stand for a change of indentation. A key is only known to be one when its colon comes, so a
place is left in the sequence wherever a key may begin; the colon fills the latest such place, and
the places that were not filled hold no token in the end.
-/

namespace LteMac.Yaml

/-- How a text is written. -/
inductive ScalarStyle where
  /-- Without any marks, so it may also be a number or a truth value. -/
  | plain
  /-- Between quotes, so it is a text. -/
  | quoted
  /-- Indented, line by line. -/
  | literal
  /-- Indented, with its lines joined. -/
  | folded
deriving DecidableEq

/-- A part of a document. -/
inductive Token where
  /-- A directive, which only the beginning of a document may have. -/
  | directive (written : Directive)
  /-- A line of three dashes. -/
  | documentStart
  /-- A line of three dots. -/
  | documentEnd
  /-- A sequence begins with its first dash. -/
  | blockSequenceStart
  /-- A mapping begins with its first key. -/
  | blockMappingStart
  /-- The indentation of a block ends. -/
  | blockEnd
  | flowSequenceStart
  | flowSequenceEnd
  | flowMappingStart
  | flowMappingEnd
  /-- A dash. -/
  | blockEntry
  /-- A comma. -/
  | flowEntry
  /-- What comes next is a key. -/
  | key
  /-- What comes next is the value of a key. -/
  | value
  /-- The name of an earlier node, which is repeated here. -/
  | alias (name : String)
  /-- The name of the next node, by which it can be repeated. -/
  | anchor (name : String)
  /-- The kind of the next node. -/
  | tag (written : WrittenTag)
  /-- A text. -/
  | scalar (style : ScalarStyle) (text : String)

/-- A place where a key may begin. -/
structure KeyPlace where
  /-- Its place in the sequence of tokens. -/
  slot : Nat
  index : Nat
  line : Nat
  column : Nat
  /-- Whether nothing but a key can stand there. -/
  required : Bool

/-- The longest key, in characters. -/
def maxKeyLength : Nat := 1024

/-- The tokens read so far, and what decides about the next ones. -/
structure Scanner where
  cursor : Cursor
  /-- The tokens so far, by the place in which they stand. -/
  slots : Array (List Token) := #[]
  /-- The column of the innermost block, or -1 outside of all blocks. -/
  indent : Int := -1
  /-- The columns of the blocks around it, the nearest first. -/
  outerIndents : List Int := []
  /-- Where a key may begin that is not in deeper brackets. -/
  candidate : Option KeyPlace := none
  /-- The same for each bracket around, the nearest first. -/
  outerCandidates : List (Option KeyPlace) := []
  /-- Whether a key, or an entry of a block, may begin here. -/
  keyAllowed : Bool := true

namespace Scanner

/-- Whether brackets are open. -/
def inFlow (s : Scanner) : Bool := !s.outerCandidates.isEmpty

/-- Adds a token. -/
def emit (s : Scanner) (t : Token) : Scanner := { s with slots := s.slots.push [t] }

/-- Adds a token that is written with `length` characters. -/
def take (s : Scanner) (t : Token) (length : Nat) : Scanner :=
  { s.emit t with cursor := s.cursor.skip length }

/-- Gives up the latest place of a key, unless only a key can stand there. -/
def dropCandidate (s : Scanner) : Option Scanner :=
  if s.candidate.any (·.required) then none else some { s with candidate := none }

/-- Leaves a place for a key, if one may begin here. -/
def leavePlace (s : Scanner) : Option Scanner := do
  if s.keyAllowed then
    let place : KeyPlace :=
      { slot := s.slots.size, index := s.cursor.index, line := s.cursor.line
        column := s.cursor.column, required := !s.inFlow && s.indent == s.cursor.column }
    let s ← s.dropCandidate
    return { s with candidate := some place, slots := s.slots.push [] }
  else return s

/-- Whether a key that begins at a place could still end here: on the same line, and not too far
away. -/
def reaches (s : Scanner) (k : KeyPlace) : Bool :=
  s.cursor.line ≤ k.line && s.cursor.index ≤ k.index + maxKeyLength

/-- A place of a key as it is seen from here. -/
def review (s : Scanner) : Option KeyPlace → Option (Option KeyPlace)
  | none => some none
  | some k => if s.reaches k then some (some k) else if k.required then none else some none

/-- Gives up the places of keys that could not end here any more. -/
def reviewAll (s : Scanner) : Option Scanner := do
  let candidate ← s.review s.candidate
  let outerCandidates ← s.outerCandidates.mapM s.review
  return { s with candidate, outerCandidates }

/-- The blocks that begin right of a column end: how many, and which are left. -/
def closing (column : Int) : Int → List Int → Nat × Int × List Int
  | indent, [] => (0, indent, [])
  | indent, outer :: outers =>
    if column < indent then
      let (n, rest) := closing column outer outers
      (n + 1, rest)
    else (0, indent, outer :: outers)

/-- Ends the blocks that begin right of a column. -/
def unrollTo (s : Scanner) (column : Int) : Scanner :=
  if s.inFlow then s
  else
    let (n, indent, outerIndents) := closing column s.indent s.outerIndents
    { s with
      indent, outerIndents, slots := s.slots ++ Array.replicate n [Token.blockEnd] }

/-- Begins a block at a column, unless one that begins there or further right is open; the token
goes before the tokens of a place, or after all others. -/
def rollTo (s : Scanner) (column : Nat) (place : Option Nat) (t : Token) : Scanner :=
  if s.inFlow || (column : Int) ≤ s.indent then s
  else
    let slots := match place with
      | some i => s.slots.modify i (t :: ·)
      | none => s.slots.push [t]
    { s with slots, indent := column, outerIndents := s.indent :: s.outerIndents }

/-! ## What may come next -/

/-- Ends all blocks before a marker or directive. -/
def leaveBlocks (s : Scanner) : Option Scanner := do
  let s ← (s.unrollTo (-1)).dropCandidate
  return { s with keyAllowed := false }

/-- A directive. -/
def fetchDirective (s : Scanner) : Option Scanner := do
  let s ← s.leaveBlocks
  let (d, cursor) ← directive s.cursor
  return { s.emit (.directive d) with cursor }

/-- A marker between documents. -/
def fetchMarker (s : Scanner) (t : Token) : Option Scanner := do
  return (← s.leaveBlocks).take t 3

/-- An opening bracket. -/
def fetchOpening (s : Scanner) (t : Token) : Option Scanner := do
  let s ← s.leavePlace
  return { s.take t 1 with
    candidate := none, outerCandidates := s.candidate :: s.outerCandidates, keyAllowed := true }

/-- A closing bracket. -/
def fetchClosing (s : Scanner) (t : Token) : Option Scanner := do
  let s ← s.dropCandidate
  let s := match s.outerCandidates with
    | candidate :: outerCandidates => { s with candidate, outerCandidates }
    | [] => s
  return { s.take t 1 with keyAllowed := false }

/-- A comma between brackets. -/
def fetchComma (s : Scanner) : Option Scanner := do
  return { (← s.dropCandidate).take .flowEntry 1 with keyAllowed := true }

/-- A dash before an entry. -/
def fetchDash (s : Scanner) : Option Scanner := do
  if !s.inFlow && !s.keyAllowed then none
  let s ← (s.rollTo s.cursor.column none .blockSequenceStart).dropCandidate
  return { s.take .blockEntry 1 with keyAllowed := true }

/-- A question mark before a key. -/
def fetchQuestion (s : Scanner) : Option Scanner := do
  if !s.inFlow && !s.keyAllowed then none
  let s ← (s.rollTo s.cursor.column none .blockMappingStart).dropCandidate
  return { s.take .key 1 with keyAllowed := !s.inFlow }

/-- A colon before a value. -/
def fetchColon (s : Scanner) : Option Scanner :=
  match s.candidate with
  | some k =>
    let s := { s with slots := s.slots.modify k.slot fun _ => [.key] }
    let s := s.rollTo k.column (some k.slot) .blockMappingStart
    some { s.take .value 1 with candidate := none, keyAllowed := false }
  | none =>
    if !s.inFlow && !s.keyAllowed then none
    else
      let s := s.rollTo s.cursor.column none .blockMappingStart
      some { s.take .value 1 with keyAllowed := !s.inFlow }

/-- A name, before a node or in its place. -/
def fetchName (s : Scanner) (t : String → Token) : Option Scanner := do
  let s ← s.leavePlace
  let (text, cursor) ← name s.cursor
  return { s.emit (t (String.ofList text)) with cursor, keyAllowed := false }

/-- A tag. -/
def fetchTag (s : Scanner) : Option Scanner := do
  let s ← s.leavePlace
  let (t, cursor) ← tag s.inFlow s.cursor
  return { s.emit (.tag t) with cursor, keyAllowed := false }

/-- A block. -/
def fetchBlock (s : Scanner) (literal : Bool) : Option Scanner := do
  let s ← s.dropCandidate
  let (text, cursor) ← block literal s.indent s.cursor
  let style := if literal then ScalarStyle.literal else .folded
  return { s.emit (.scalar style (String.ofList text)) with cursor, keyAllowed := true }

/-- A text between quotes. -/
def fetchQuoted (s : Scanner) : Option Scanner := do
  let s ← s.leavePlace
  let (text, cursor) ← quoted s.cursor
  return { s.emit (.scalar .quoted (String.ofList text)) with cursor, keyAllowed := false }

/-- A plain text. -/
def fetchPlain (s : Scanner) : Option Scanner := do
  let s ← s.leavePlace
  let (text, broken, cursor) ← plain (s.indent + 1).toNat s.inFlow s.cursor
  return { s.emit (.scalar .plain (String.ofList text)) with cursor, keyAllowed := broken }

/-! ## The sequence -/

/-- Passes over spaces, comments and line breaks. A tab may not stand where a key may begin in a
block, a byte order mark may begin a line, and in a block a new line may begin with a key. -/
def passSpaces (s : Scanner) : Nat → Scanner
  | 0 => s
  | bound + 1 =>
    let c := if s.cursor.column = 0 && s.cursor.peek = some '\ufeff' then s.cursor.next
      else s.cursor
    let c := c.pass fun x => x == ' ' || (s.inFlow || !s.keyAllowed) && x == '\t'
    let c := if c.peek = some '#' then c.pass (!isBreak ·) else c
    if c.peek.any isBreak then
      passSpaces { s with cursor := c.next, keyAllowed := s.keyAllowed || !s.inFlow } bound
    else { s with cursor := c }

/-- Whether a plain text may begin with a character, by the character after it. -/
def beginsPlain (inFlow : Bool) (x : Char) (after : Option Char) : Bool :=
  !(isSpace x || "-?:,[]\x7b\x7d#&*!|>\x27\x22%@\x60".toList.contains x) ||
    (x == '-' && !after.any isBlank) ||
    (!inFlow && (x == '?' || x == ':') && !endsWord after)

/-- Reads what begins with a character, once all that stands before it has been dealt with. -/
def fetch (s : Scanner) (x : Char) : Option Scanner :=
  let after := s.cursor.ahead 1
  let indicates := s.inFlow || endsWord after
  if s.cursor.column = 0 && x == '%' then s.fetchDirective
  else if s.cursor.marks '-' then s.fetchMarker .documentStart
  else if s.cursor.marks '.' then s.fetchMarker .documentEnd
  else match x with
    | '[' => s.fetchOpening .flowSequenceStart
    | '\x7b' => s.fetchOpening .flowMappingStart
    | ']' => s.fetchClosing .flowSequenceEnd
    | '\x7d' => s.fetchClosing .flowMappingEnd
    | ',' => s.fetchComma
    | '*' => s.fetchName .alias
    | '&' => s.fetchName .anchor
    | '!' => s.fetchTag
    | '\x27' | '\x22' => s.fetchQuoted
    | _ =>
      if x == '-' && endsWord after then s.fetchDash
      else if x == '?' && indicates then s.fetchQuestion
      else if x == ':' && indicates then s.fetchColon
      else if x == '|' && !s.inFlow then s.fetchBlock true
      else if x == '>' && !s.inFlow then s.fetchBlock false
      else if beginsPlain s.inFlow x after then s.fetchPlain
      else none

/-- Reads tokens up to the end. -/
def run (s : Scanner) : Nat → Option (List Token)
  | 0 => none
  | bound + 1 => do
    let s ← (s.passSpaces (s.cursor.rest.length + 1)).reviewAll
    let s := s.unrollTo s.cursor.column
    match s.cursor.peek with
    | some x => run (← s.fetch x) bound
    | none =>
      let s ← (s.unrollTo (-1)).dropCandidate
      return s.slots.toList.flatten

end Scanner

/-- The tokens of a document, or nothing if it is not well formed. -/
def tokens? (text : String) : Option (List Token) :=
  if text.toList.all isAllowed then
    let chars := unifyBreaks text.toList
    Scanner.run { cursor := .start chars } (chars.length + 1)
  else none

end LteMac.Yaml
