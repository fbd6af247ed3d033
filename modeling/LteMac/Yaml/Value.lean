import LteMac.Numeric.Decimal
import LteMac.Yaml.Node

/-!
# Values in a document

How a node is read as a value of a given type. Numbers and truth values are plain texts; a text of
any style is a text. A node that repeats another is read as that one, and to keep a small document
from describing a huge value, the number of repetitions that are followed is limited by the size
of the document.
-/

namespace LteMac.Yaml

/-! ## Plain texts -/

/-- The number that digits of a given base stand for; there has to be one. -/
def digits? (base : Nat) (digits : List Char) : Option Nat :=
  if digits.isEmpty then none
  else digits.foldlM (fun n x => do
    let v ← hexValue? x
    if v < base then some (base * n + v) else none) 0

/-- A whole number without a minus sign. A decimal number does not begin with zeros. -/
def natural? (text : List Char) : Option Nat :=
  match if text.head? = some '+' then text.tail else text with
  | '0' :: 'x' :: rest => digits? 16 rest
  | '0' :: 'o' :: rest => digits? 8 rest
  | '0' :: 'b' :: rest => digits? 2 rest
  | ['0'] => some 0
  | '0' :: _ => none
  | rest => digits? 10 rest

/-- A truth value. -/
def bool? (text : String) : Option Bool :=
  if text ∈ ["true", "True", "TRUE"] then some true
  else if text ∈ ["false", "False", "FALSE"] then some false
  else none

/-- Whether a plain text says that there is no value. -/
def isNull (text : String) : Bool := ["null", "Null", "NULL", "~"].contains text

/-- The exponent at the end of a number, if the rest of it is one. -/
def exponent? : List Char → Option Int
  | [] => some 0
  | e :: rest =>
    if e = 'e' ∨ e = 'E' then
      match rest with
      | '-' :: digits => (digits? 10 digits).map fun n => -n
      | '+' :: digits => (digits? 10 digits).map Int.ofNat
      | digits => (digits? 10 digits).map Int.ofNat
    else none

/-- A number without a sign, as it is written. -/
def decimal? (text : List Char) : Option Decimal := do
  let (whole, rest) := text.span Char.isDigit
  let (places, rest) := match rest with
    | '.' :: rest => rest.span Char.isDigit
    | rest => ([], rest)
  return ⟨← digits? 10 (whole ++ places), (← exponent? rest) - places.length⟩

/-- A finite number without a sign. -/
def finite? (text : List Char) : Option Float := do
  let x := (← decimal? text).toFloat
  if x.isFinite then return x else none

/-- Whether a text is the word for infinity. -/
def isInfinity (text : List Char) : Bool :=
  [".inf", ".Inf", ".INF"].contains (String.ofList text)

/-- A number without a sign, or infinity. -/
def magnitude? (text : List Char) : Option Float :=
  if isInfinity text then some (1.0 / 0.0) else finite? text

/-- A number, an infinity, or the value that is not a number. -/
def float? (text : List Char) : Option Float :=
  match text with
  | '+' :: rest => magnitude? rest
  | '-' :: rest => (magnitude? rest).map fun x => -x
  | rest =>
    if [".nan", ".NaN", ".NAN"].contains (String.ofList rest) then some (0.0 / 0.0)
    else magnitude? rest

/-! ## Nodes -/

/-- Reading from a document, with the number of repetitions that may still be followed. -/
abbrev Read := ReaderT Document (StateT Nat Option)

namespace Read

/-- A value, if there is one. -/
def ofOption {α : Type} : Option α → Read α
  | some a => return a
  | none => failure

/-- A node, or what it repeats. -/
def resolve : Node → Read Node
  | .alias number => do
    match ← get with
    | 0 => failure
    | left + 1 =>
      set left
      ofOption ((← read).anchors.lookup number)
  | n => return n

/-- Whether a node is the empty text that stands where nothing is written. -/
def isBlank : Node → Bool
  | .scalar _ .plain "" => true
  | _ => false

/-- A text of any style. -/
def text (n : Node) : Read String := do
  match ← resolve n with
  | .scalar _ _ text => return text
  | _ => failure

/-- A text that may be a value of a type other than text: a plain one, or a block that is tagged
as one. -/
def plainText (kind : String) (n : Node) : Read String := do
  match ← resolve n with
  | .scalar _ .plain text => return text
  | .scalar p .literal text =>
    if p.tag = some ("tag:yaml.org,2002:" ++ kind) then return text else failure
  | _ => failure

/-- A whole number up to a limit. -/
def natUpTo (limit : Nat) (n : Node) : Read Nat := do
  let value ← ofOption (natural? (← plainText "int" n).toList)
  if value ≤ limit then return value else failure

/-- A whole number of 8 bits. -/
def nat8 : Node → Read Nat := natUpTo (UInt8.size - 1)

/-- A whole number of 16 bits. -/
def nat16 : Node → Read Nat := natUpTo (UInt16.size - 1)

/-- A whole number of 32 bits. -/
def nat32 : Node → Read Nat := natUpTo (UInt32.size - 1)

/-- A whole number of 64 bits. -/
def nat64 : Node → Read Nat := natUpTo (UInt64.size - 1)

/-- A truth value. -/
def bool (n : Node) : Read Bool := do ofOption (bool? (← plainText "bool" n))

/-- A number. -/
def float (n : Node) : Read Float := do ofOption (float? (← plainText "float" n).toList)

/-- A sequence. -/
def list {α : Type} (item : Node → Read α) (n : Node) : Read (List α) := do
  match ← resolve n with
  | .sequence _ items => items.mapM item
  | n => if isBlank n then return [] else failure

/-- Whether a text is absent: it is plain, and empty or a word for it. A tag makes it present,
unless it is the tag of absent values, which no other text may have. -/
def isAbsent (p : Properties) (style : ScalarStyle) (text : String) : Read Bool :=
  match style, p.tag with
  | .plain, none => return text == "" || isNull text
  | .plain, some tag =>
    if tag = "tag:yaml.org,2002:null" then
      if isNull text then return true else failure
    else return false
  | _, _ => return false

/-- A value that may be absent. -/
def optional {α : Type} (value : Node → Read α) (n : Node) : Read (Option α) := do
  let n ← resolve n
  let absent ← match n with
    | .scalar p style text => isAbsent p style text
    | _ => pure false
  if absent then return none else some <$> value n

/-- The name in a tag, which may begin with an exclamation mark. -/
def tagName (tag : String) : String :=
  match tag.toList with
  | '!' :: rest => String.ofList rest
  | _ => tag

/-- One of several names, as a text or as the tag of an absent value. -/
def choice {α : Type} (names : List (String × α)) (n : Node) : Read α := do
  match ← resolve n with
  | .scalar p style text =>
    match p.tag with
    | none => ofOption (names.lookup text)
    | some tag =>
      if style = .plain ∧ (text = "" ∨ isNull text) then ofOption (names.lookup (tagName tag))
      else failure
  | _ => failure

end Read

/-- The fields of a mapping, by their keys. -/
abbrev Fields := List (String × Node)

namespace Fields

/-- The fields of a mapping. A key that is known may not come twice; other keys do not matter. -/
def ofNode (known : List String) (n : Node) : Read Fields := do
  let fields : Fields ← match ← Read.resolve n with
    | .mapping _ entries => entries.mapM fun e => do return (← Read.text e.1, e.2)
    | n => if Read.isBlank n then return [] else failure
  if known.all fun key => fields.countP (·.1 == key) ≤ 1 then return fields else failure

/-- A field that has to be there. -/
def required {α : Type} (fields : Fields) (key : String) (value : Node → Read α) : Read α := do
  value (← Read.ofOption (fields.lookup key))

/-- A field with a value for the case that it is left out. -/
def field {α : Type} (fields : Fields) (key : String) (value : Node → Read α) (usual : α) :
    Read α :=
  match fields.lookup key with
  | some n => value n
  | none => return usual

/-- A field that may be left out or absent. -/
def optional {α : Type} (fields : Fields) (key : String) (value : Node → Read α) :
    Read (Option α) := fields.field key (Read.optional value) none

end Fields

/-- Repetitions followed for each part of a document. -/
def repetitionFactor : Nat := 100

/-- Reads the value of a document. -/
def Document.read? {α : Type} (d : Document) (value : Node → Read α) : Option α :=
  ((value d.root).run d (repetitionFactor * d.root.size)).map (·.1)

end LteMac.Yaml
