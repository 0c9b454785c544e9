import TurtleGraphics.Text.CaseTable

/-!
# Lowercase

The full lowercase form of a text. Each character is mapped on its own, with two exceptions to
the simple table: a capital I with a dot becomes two characters, and a capital sigma becomes a
final sigma when a letter stands before it in the word and none behind.
-/

set_option autoImplicit false

namespace TurtleGraphics.Text

/-- Whether a code point lies in one of the ranges. -/
def inRanges (ranges : List (Nat × Nat)) (n : Nat) : Bool :=
  ranges.any fun (lo, hi) => lo ≤ n && n ≤ hi

def isCaseIgnorable (c : Char) : Bool := inRanges caseIgnorableRanges c.toNat

def isCased (c : Char) : Bool := inRanges casedRanges c.toNat

/-- The single lowercase form of a character; the character itself if it has none. -/
def simpleLower (c : Char) : Char :=
  let n := c.toNat
  match lowercaseRows.find? fun (lo, hi, step, _) => lo ≤ n && n ≤ hi && (n - lo) % step == 0 with
  | some (_, _, _, shift) => Char.ofNat ((n : Int) + shift).toNat
  | none => c

/-- The lowercase form of a character without regard to its neighbours. -/
def lowerChar (c : Char) : List Char :=
  if c = 'İ' then ['i', '\u0307'] else [simpleLower c]

/-- A letter comes first, once the characters without a say are passed over. -/
def startsCased (cs : List Char) : Bool :=
  match cs.dropWhile isCaseIgnorable with
  | c :: _ => isCased c
  | [] => false

/-- The lowercase form of `rest`, where `before` is the text in front of it, last character
first. -/
def lowerFrom (before : List Char) : List Char → List Char
  | [] => []
  | c :: rest =>
    let here :=
      if c = 'Σ' then (if startsCased before && !startsCased rest then ['ς'] else ['σ'])
      else lowerChar c
    here ++ lowerFrom (c :: before) rest

/-- The lowercase form of a string. -/
def lower (s : String) : String := String.ofList (lowerFrom [] s.toList)

end TurtleGraphics.Text
