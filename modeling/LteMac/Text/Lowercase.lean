import LteMac.Text.CaseTable

/-!
# Lower case

Names are compared without regard to case, in every script. Almost every character has one lower
case letter, whatever stands around it; the capital sigma has two, one of them for the end of a
word.
-/

namespace LteMac.Text

/-- The lower case of a character on its own. -/
def lowerChar (c : Char) : List Char :=
  if c = '\u0130' then ['i', '\u0307'] else
  match lowercaseRuns.find? fun r =>
      r.first ≤ c.toNat && c.toNat ≤ r.last && (c.toNat - r.first) % r.step == 0 with
  | some r => [Char.ofNat (c.toNat + r.shift).toNat]
  | none => [c]

/-- Whether a text begins with a cased letter, after characters that do not matter to case. -/
def beginsCased (text : List Char) : Bool :=
  (text.dropWhile (inRanges caseIgnorableRanges)).head?.any (inRanges casedRanges)

/-- The lower case of a capital sigma, by what stands before it (the nearest first) and what
follows: a letter before it and none after it make it the end of a word. -/
def lowerSigma (before after : List Char) : Char :=
  if beginsCased before && !beginsCased after then '\u03c2' else '\u03c3'

/-- The lower case of a text, by what stands before it (the nearest first). -/
def lowerAfter (before : List Char) : List Char → List Char
  | [] => []
  | c :: rest =>
    (if c = '\u03a3' then [lowerSigma before rest] else lowerChar c) ++
      lowerAfter (c :: before) rest

/-- The lower case of a text. -/
def lowercase (s : String) : String := String.ofList (lowerAfter [] s.toList)

end LteMac.Text
