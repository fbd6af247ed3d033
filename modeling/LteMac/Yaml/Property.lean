import LteMac.Yaml.Cursor

/-!
# Names, tags and directives

A node may carry a name (an anchor), by which later nodes repeat it, and a tag, which says what it
is. A tag is written with a handle that stands for the beginning of many tags; directives before
a document give handles their meaning.
-/

namespace LteMac.Yaml

/-- The characters after which a name may end. -/
def endsName (next : Option Char) : Bool :=
  endsWord next || next.any fun x =>
    x == '?' || x == ':' || x == ',' || x == ']' || x == '\x7d' || x == '%' || x == '@' ||
      x == '\x60'

/-- Reads a name, from its indicator on. -/
def name (c : Cursor) : Option (List Char × Cursor) :=
  let (text, after) := c.next.span isNameChar
  if text.isEmpty || !endsName after.peek then none else some (text, after)

/-! ## Tags -/

/-- Whether a character may stand in a tag. Brackets and commas may only where the end of the tag
is marked. -/
def isTagChar (bracketed : Bool) (x : Char) : Bool :=
  isNameChar x || x == ';' || x == '/' || x == '?' || x == ':' || x == '@' || x == '&' ||
    x == '=' || x == '+' || x == '$' || x == '.' || x == '%' || x == '!' || x == '~' ||
    x == '*' || x == '\x27' || x == '(' || x == ')' ||
    (bracketed && (x == ',' || x == '[' || x == ']'))

/-- The number of bytes of a character, by the first of them. -/
def encodedLength? (byte : Nat) : Option Nat :=
  if byte < 0x80 then some 1
  else if 0xC0 ≤ byte && byte < 0xE0 then some 2
  else if 0xE0 ≤ byte && byte < 0xF0 then some 3
  else if 0xF0 ≤ byte && byte < 0xF8 then some 4
  else none

/-- The bits of a character in the first of `length` bytes. -/
def leadBits (length byte : Nat) : Nat :=
  match length with
  | 1 => byte
  | 2 => byte % 0x20
  | 3 => byte % 0x10
  | _ => byte % 0x08

/-- The byte written as a percent sign and two digits. -/
def escapedByte? : List Char → Option (Nat × List Char)
  | '%' :: x :: y :: rest => do return (16 * (← hexValue? x) + (← hexValue? y), rest)
  | _ => none

/-- The rest of a character that is written byte by byte. -/
def escapedTail? : Nat → Nat → List Char → Option (Nat × List Char)
  | 0, n, rest => some (n, rest)
  | length + 1, n, rest => do
    let (byte, rest) ← escapedByte? rest
    if byte / 0x40 = 2 then escapedTail? length (n * 0x40 + byte % 0x40) rest else none

/-- The text of a tag, its escapes resolved. -/
def unescapeTag : Nat → List Char → Option (List Char)
  | 0, _ => none
  | _ + 1, [] => some []
  | bound + 1, '%' :: rest => do
    let (byte, _) ← escapedByte? ('%' :: rest)
    let length ← encodedLength? byte
    let (n, after) ← escapedTail? (length - 1) (leadBits length byte) (rest.drop 2)
    return Char.ofNat n :: (← unescapeTag bound after)
  | bound + 1, x :: rest => do return x :: (← unescapeTag bound rest)

/-- Reads the characters of a tag; there may be none only after `head`. -/
def tagText (bracketed : Bool) (head : List Char) (c : Cursor) :
    Option (List Char × Cursor) := do
  let (raw, after) := c.span (isTagChar bracketed)
  if raw.isEmpty && head.isEmpty then none
  else
    let text ← unescapeTag (raw.length + 1) raw
    return (head.tail ++ text, after)

/-- Reads a handle: an exclamation mark, or a name between two. Without the second mark what was
read is the beginning of a tag, which a directive does not allow. -/
def handle (directive : Bool) (c : Cursor) : Option (List Char × Cursor) := do
  let c ← c.expect '!'
  let (text, c) := c.span isNameChar
  match c.peek with
  | some '!' => return ('!' :: text ++ ['!'], c.next)
  | _ => if directive && !text.isEmpty then none else return ('!' :: text, c)

/-- A tag as it is written: a handle, which may be empty, and what follows it. -/
structure WrittenTag where
  handle : List Char
  suffix : List Char

/-- Reads a tag, from its indicator on. -/
def tag (inFlow : Bool) (c : Cursor) : Option (WrittenTag × Cursor) := do
  let (written, c) ←
    if c.ahead 1 = some '<' then do
      let (text, c) ← tagText true [] (c.skip 2)
      let c ← c.expect '>'
      pure (⟨[], text⟩, c)
    else do
      let (head, c) ← handle false c
      if 1 < head.length && head.getLast? == some '!' then do
        let (text, c) ← tagText false [] c
        pure (⟨head, text⟩, c)
      else do
        let (text, c) ← tagText false head c
        pure (if text.isEmpty then ⟨[], ['!']⟩ else ⟨['!'], text⟩, c)
  if endsWord c.peek || inFlow && c.peek == some ',' then return (written, c) else none

/-! ## Directives -/

/-- A line before a document. -/
inductive Directive where
  /-- The version of the format. -/
  | version (major minor : Nat)
  /-- A short form for the beginning of a tag. -/
  | handle (written : WrittenTag)

/-- Digits of a version number; more are not allowed. -/
def versionDigits : Nat := 9

/-- Reads one part of a version number. -/
def versionPart (c : Cursor) : Option (Nat × Cursor) :=
  let (digits, after) := c.span Char.isDigit
  if digits.isEmpty || versionDigits < digits.length then none
  else some (digits.foldl (fun n x => 10 * n + (x.toNat - '0'.toNat)) 0, after)

/-- Reads a version. -/
def version (c : Cursor) : Option (Directive × Cursor) := do
  let (major, c) ← versionPart (c.pass isBlank)
  let (minor, c) ← versionPart (← c.expect '.')
  return (.version major minor, c)

/-- Reads what a handle stands for. -/
def handleMeaning (c : Cursor) : Option (Directive × Cursor) := do
  let (head, c) ← handle true (c.pass isBlank)
  if c.peek.any isBlank then
    let (text, c) ← tagText true [] (c.pass isBlank)
    if endsWord c.peek then return (.handle ⟨head, text⟩, c) else none
  else none

/-- Reads a directive, from its indicator to the end of its line. -/
def directive (c : Cursor) : Option (Directive × Cursor) := do
  let (text, c) := c.next.span isNameChar
  if text.isEmpty || !endsWord c.peek then none
  let (d, c) ←
    if text = "YAML".toList then version c
    else if text = "TAG".toList then handleMeaning c
    else none
  return (d, ← c.restOfLine)

end LteMac.Yaml
