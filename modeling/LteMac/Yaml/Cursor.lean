import LteMac.Yaml.Character

/-!
# Places in a document

A cursor is what is left of a document, and where that begins: lines and columns decide what a
document means, and the distance from the start how far a key may reach.
-/

namespace LteMac.Yaml

/-- A place in a document. -/
structure Cursor where
  /-- What is left. -/
  rest : List Char
  /-- Characters before. -/
  index : Nat
  /-- Lines before. -/
  line : Nat
  /-- Characters before on the same line. -/
  column : Nat

namespace Cursor

/-- The beginning of a document. -/
def start (text : List Char) : Cursor := ⟨text, 0, 0, 0⟩

/-- The place after one more character. -/
def next (c : Cursor) : Cursor :=
  match c.rest with
  | [] => c
  | x :: rest =>
    if isBreak x then ⟨rest, c.index + 1, c.line + 1, 0⟩
    else ⟨rest, c.index + 1, c.line, c.column + 1⟩

/-- The place after `n` more characters. -/
def skip (c : Cursor) (n : Nat) : Cursor := Nat.repeat next n c

/-- The next character. -/
def peek (c : Cursor) : Option Char := c.rest.head?

/-- The character `i` places on. -/
def ahead (c : Cursor) (i : Nat) : Option Char := c.rest[i]?

/-- The characters of a kind that come next, and the place after them. -/
def span (c : Cursor) (kind : Char → Bool) : List Char × Cursor :=
  let taken := c.rest.takeWhile kind
  (taken, c.skip taken.length)

/-- The place after all characters of a kind that come next. -/
def pass (c : Cursor) (kind : Char → Bool) : Cursor := (c.span kind).2

/-- The place after a character, if that is what comes next. -/
def expect (c : Cursor) (x : Char) : Option Cursor :=
  if c.peek = some x then some c.next else none

/-- The place after the line, if only blanks and a comment are left of it. -/
def restOfLine (c : Cursor) : Option Cursor :=
  let c := c.pass isBlank
  let c := if c.peek = some '#' then c.pass (!isBreak ·) else c
  if c.peek.all isBreak then some c.next else none

/-- Whether a line begins here with three times a character, as a word. -/
def marks (c : Cursor) (x : Char) : Bool :=
  c.column == 0 && c.rest.take 3 == [x, x, x] && endsWord (c.ahead 3)

/-- Whether a marker between documents stands here. -/
def atMarker (c : Cursor) : Bool := c.marks '-' || c.marks '.'

end Cursor

end LteMac.Yaml
