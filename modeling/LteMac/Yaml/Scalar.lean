import LteMac.Yaml.Cursor

/-!
# Texts in a document

A text is written plainly, between quotes, or as an indented block. In the first two a line break
folds: one break between words is a space, further breaks are kept. Every reader here takes the
place where a text begins and gives the text and the place after it, or nothing if the text is
not well formed. What bounds a loop is what is left of the document.
-/

namespace LteMac.Yaml

/-- What a run of line breaks stands for: the first is a space if no other follows, and falls
away otherwise. -/
def foldBreaks : List Char → List Char
  | ['\n'] => [' ']
  | '\n' :: more => more
  | breaks => breaks

/-- What a run of spaces inside a text stands for. -/
def foldSpaces (run : List Char) : List Char :=
  if run.any isBreak then foldBreaks (run.filter isBreak) else run

/-! ## Plain texts -/

/-- What comes next of a plain text up to the next space or indicator. Inside brackets a colon
right before an indicator is not allowed. -/
def plainWord (inFlow : Bool) : List Char → Option (List Char)
  | [] => some []
  | x :: rest =>
    if isSpace x then some []
    else if x == ':' && inFlow && rest.head?.any (fun y => isFlowIndicator y || y == '?') then none
    else if x == ':' && endsWord rest.head? then some []
    else if inFlow && isFlowIndicator x then some []
    else (plainWord inFlow rest).map (x :: ·)

/-- Whether a tab stands in a run of spaces where a line is indented by less than `indent`; the
first line of the run does not count. -/
def tabIndents (indent : Nat) : Option Nat → List Char → Bool
  | _, [] => false
  | column, x :: rest =>
    if isBreak x then tabIndents indent (some 0) rest
    else column.any (fun k => x == '\t' && k < indent) ||
      tabIndents indent (column.map (· + 1)) rest

/-- A plain text, as far as it was read. -/
structure PlainText where
  text : List Char
  /-- What the spaces since stand for. -/
  gap : List Char
  /-- Whether a line ended since. -/
  broken : Bool

/-- Reads on in a plain text that is indented by at least `indent`. -/
def plainFrom (indent : Nat) (inFlow : Bool) : Nat → PlainText → Cursor →
    Option (PlainText × Cursor)
  | 0, _, _ => none
  | bound + 1, t, c =>
    if c.atMarker || c.peek == some '#' then some (t, c)
    else do
      let word ← plainWord inFlow c.rest
      let t := if word.isEmpty then t else ⟨t.text ++ t.gap ++ word, [], false⟩
      let (run, after) := (c.skip word.length).span isSpace
      if run.isEmpty then some (t, after)
      else if tabIndents indent none run then none
      else
        let t := { t with gap := foldSpaces run, broken := run.any isBreak }
        if !inFlow && after.column < indent then some (t, after)
        else plainFrom indent inFlow bound t after

/-- Reads a plain text; says also whether a line ended after it. -/
def plain (indent : Nat) (inFlow : Bool) (c : Cursor) : Option (List Char × Bool × Cursor) := do
  let (t, after) ← plainFrom indent inFlow (c.rest.length + 1) ⟨[], [], false⟩ c
  return (t.text, t.broken, after)

/-! ## Quoted texts -/

/-- What a letter after a backslash stands for. -/
def escaped? : Char → Option Char
  | '0' => some '\x00'
  | 'a' => some '\x07'
  | 'b' => some '\x08'
  | 't' | '\t' => some '\t'
  | 'n' => some '\n'
  | 'v' => some '\x0b'
  | 'f' => some '\x0c'
  | 'r' => some '\r'
  | 'e' => some '\x1b'
  | ' ' => some ' '
  | '\x22' => some '\x22'
  | '/' => some '/'
  | '\\' => some '\\'
  | 'N' => some '\u0085'
  | '_' => some '\u00a0'
  | 'L' => some '\u2028'
  | 'P' => some '\u2029'
  | _ => none

/-- The number of digits after a letter that gives a character by its number. -/
def numberLength? : Char → Option Nat
  | 'x' => some 2
  | 'u' => some 4
  | 'U' => some 8
  | _ => none

/-- The number that hexadecimal digits stand for. -/
def hexNumber? (digits : List Char) : Option Nat :=
  digits.foldlM (fun n x => (hexValue? x).map (16 * n + ·)) 0

/-- The character with a given number. -/
def charOfNumber? (n : Nat) : Option Char :=
  if n.isValidChar then some (Char.ofNat n) else none

/-- What an escape stands for, by the characters after its backslash, and how many of them it
takes. -/
def readEscape? : List Char → Option (Char × Nat)
  | [] => none
  | x :: rest =>
    match escaped? x with
    | some y => some (y, 1)
    | none => do
      let length ← numberLength? x
      let digits := rest.take length
      if digits.length = length then
        return (← charOfNumber? (← hexNumber? digits), length + 1)
      else none

/-- Reads on in a text between single quotes, where two quotes are one. -/
def singleQuotedFrom : Nat → List Char → Cursor → Option (List Char × Cursor)
  | 0, _, _ => none
  | bound + 1, text, c =>
    if c.atMarker then none
    else match c.rest with
      | [] => none
      | '\x27' :: '\x27' :: _ => singleQuotedFrom bound (text ++ ['\x27']) (c.skip 2)
      | '\x27' :: _ => some (text, c.next)
      | x :: _ =>
        if isSpace x then
          let (run, after) := c.span isSpace
          singleQuotedFrom bound (text ++ foldSpaces run) after
        else
          let (word, after) := c.span fun y => !isSpace y && y != '\x27'
          singleQuotedFrom bound (text ++ word) after

/-- Reads on in a text between double quotes, where a backslash escapes. An escaped line break
falls away, and so do the blanks after it. -/
def doubleQuotedFrom : Nat → List Char → Cursor → Option (List Char × Cursor)
  | 0, _, _ => none
  | bound + 1, text, c =>
    if c.atMarker then none
    else match c.rest with
      | [] => none
      | '\x22' :: _ => some (text, c.next)
      | '\\' :: after =>
        if after.head?.any isBreak then
          let (run, after) := (c.skip 2).span isSpace
          doubleQuotedFrom bound (text ++ run.filter isBreak) after
        else
          match readEscape? after with
          | none => none
          | some (x, length) => doubleQuotedFrom bound (text ++ [x]) (c.skip (length + 1))
      | x :: _ =>
        if isSpace x then
          let (run, after) := c.span isSpace
          doubleQuotedFrom bound (text ++ foldSpaces run) after
        else
          let (word, after) := c.span fun y => !isSpace y && y != '\x22' && y != '\\'
          doubleQuotedFrom bound (text ++ word) after

/-- Reads a text between quotes, from its first quote on. -/
def quoted (c : Cursor) : Option (List Char × Cursor) :=
  if c.peek = some '\x27' then singleQuotedFrom c.rest.length [] c.next
  else doubleQuotedFrom c.rest.length [] c.next

/-! ## Blocks -/

/-- What happens to the line breaks at the end of a block. -/
inductive Chomp where
  /-- None is kept. -/
  | strip
  /-- The first is kept. -/
  | clip
  /-- All are kept. -/
  | keep
deriving DecidableEq

/-- The first line of a block: how it ends, and by how much it is indented, if that is said. -/
structure BlockHeader where
  chomp : Chomp := .clip
  indent : Option Nat := none

/-- Reads how a block ends. -/
def chomp? (c : Cursor) : Option (Chomp × Cursor) :=
  match c.peek with
  | some '+' => some (.keep, c.next)
  | some '-' => some (.strip, c.next)
  | _ => none

/-- Reads by how much a block is indented, if that comes next; it is not zero. -/
def increment (c : Cursor) : Option (Option Nat × Cursor) :=
  match c.peek with
  | some x =>
    if x.isDigit then
      if x = '0' then none else some (some (x.toNat - '0'.toNat), c.next)
    else some (none, c)
  | none => some (none, c)

/-- Reads the signs in the first line of a block, in either order. -/
def blockSigns (c : Cursor) : Option (BlockHeader × Cursor) := do
  match chomp? c with
  | some (chomp, c) =>
    let (indent, c) ← increment c
    return ({ chomp, indent }, c)
  | none =>
    let (indent, c) ← increment c
    match indent, chomp? c with
    | some _, some (chomp, c) => return ({ chomp, indent }, c)
    | _, _ => return ({ indent }, c)

/-- Empty lines before or inside a block: the deepest indentation met, the line breaks, and the
place after the indentation of the next line. -/
structure BlockGap where
  deepest : Nat
  breaks : List Char
  after : Cursor

/-- Passes over empty lines. A line is indented by at most `indent`, or by any number of spaces
while that is not known; a tab may not stand in the indentation. -/
def blockGapFrom (indent : Option Nat) : Nat → Nat → List Char → Cursor → Option BlockGap
  | 0, _, _, _ => none
  | bound + 1, deepest, breaks, c =>
    let spaces := c.rest.takeWhile (· == ' ')
    let after := c.skip (indent.elim spaces.length fun n => min spaces.length (n - c.column))
    let deepest := max deepest after.column
    if indent.all (after.column < ·) && after.peek == some '\t' then none
    else match after.peek with
      | some x =>
        if isBreak x then blockGapFrom indent bound deepest (breaks ++ [x]) after.next
        else some ⟨deepest, breaks, after⟩
      | none => some ⟨deepest, breaks, after⟩

/-- Passes over empty lines. -/
def blockGap (indent : Option Nat) (c : Cursor) : Option BlockGap :=
  blockGapFrom indent (c.rest.length + 1) 0 [] c

/-- A block, as far as it was read. -/
structure BlockText where
  text : List Char
  /-- The line break after the last line, until the next line decides about it. -/
  ending : List Char
  /-- Whether the last line began with a blank. -/
  moreIndented : Bool
  /-- The empty lines since. -/
  gap : List Char

/-- Reads the lines of a block that is indented by `indent`. In a folded block a single break
between lines that are not more indented is a space. -/
def blockFrom (literal : Bool) (indent : Nat) : Nat → BlockText → Cursor →
    Option (BlockText × Cursor)
  | 0, _, _ => none
  | bound + 1, t, c =>
    if c.column = indent && !c.rest.isEmpty then do
      let blank := c.peek.any isBlank
      let folds := !literal && t.ending == ['\n'] && !t.moreIndented && !blank
      let joint := if folds then if t.gap.isEmpty then [' '] else t.gap else t.ending ++ t.gap
      let (line, c) := c.span (!isBreak ·)
      let gap ← blockGap (some indent) c.next
      blockFrom literal indent bound
        ⟨t.text ++ joint ++ line, c.peek.toList, blank, gap.breaks⟩ gap.after
    else some (t, c)

/-- Reads a block, from its indicator on, inside something that is indented by `outer`. -/
def block (literal : Bool) (outer : Int) (c : Cursor) : Option (List Char × Cursor) := do
  let (header, c) ← blockSigns c.next
  let c ← c.restOfLine
  let known := header.indent.map fun n => (max outer 0).toNat + n
  let gap ← blockGap known c
  let indent := known.getD (max gap.deepest (max (outer + 1).toNat 1))
  let (t, c) ←
    blockFrom literal indent (c.rest.length + 1) ⟨[], [], false, gap.breaks⟩ gap.after
  let ending := match header.chomp with
    | .strip => []
    | .clip => t.ending
    | .keep => t.ending ++ t.gap
  return (t.text ++ ending, c)

end LteMac.Yaml
