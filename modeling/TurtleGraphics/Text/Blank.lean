/-!
# Blank characters

White space is what Unicode calls white space: 25 characters. `trim` drops it at both ends,
`words` counts on it as the only divider, and `splitFirst` cuts a text after its first word.
-/

set_option autoImplicit false

namespace TurtleGraphics.Text

/-- The characters with Unicode's White_Space property. -/
def isBlank (c : Char) : Bool :=
  let n := c.toNat
  (0x9 ≤ n && n ≤ 0xD) || n == 0x20 || n == 0x85 || n == 0xA0 || n == 0x1680 ||
    (0x2000 ≤ n && n ≤ 0x200A) || n == 0x2028 || n == 0x2029 || n == 0x202F || n == 0x205F ||
    n == 0x3000

/-- Drops the blanks in front. -/
def trimStart (cs : List Char) : List Char := cs.dropWhile isBlank

/-- Drops the blanks behind. -/
def trimEnd (cs : List Char) : List Char := (cs.reverse.dropWhile isBlank).reverse

/-- Drops the blanks at both ends. -/
def trimBoth (cs : List Char) : List Char := trimEnd (trimStart cs)

/-- Drops the blanks at both ends of a string. -/
def trim (s : String) : String := String.ofList (trimBoth s.toList)

/-- The pieces between the members that satisfy `p`; one more than there are such members. -/
def pieces {α : Type} (p : α → Bool) (cs : List α) : List (List α) :=
  cs.foldr (fun c ps => if p c then [] :: ps else
    match ps with
    | [] => [[c]]
    | q :: qs => (c :: q) :: qs) [[]]

/-- The maximal blank-free runs, in order. -/
def words (cs : List Char) : List (List Char) := (pieces isBlank cs).filter (fun w => !w.isEmpty)

/-- The longest blank-free start, and what follows from the first blank on. -/
def splitFirst (cs : List Char) : List Char × List Char :=
  (cs.takeWhile (fun c => !isBlank c), cs.dropWhile (fun c => !isBlank c))

/-! ## Facts about cutting -/

theorem splitFirst_append (cs : List Char) : (splitFirst cs).1 ++ (splitFirst cs).2 = cs :=
  List.takeWhile_append_dropWhile

/-- What is left of a list once its front is dropped does not start with a dropped member. -/
theorem dropWhile_dropWhile {α : Type} (p : α → Bool) (l : List α) :
    (l.dropWhile p).dropWhile p = l.dropWhile p := by
  induction l with
  | nil => rfl
  | cons a l ih =>
    by_cases h : p a
    · simpa [List.dropWhile_cons, h] using ih
    · simp [h]

theorem trimStart_trimStart (cs : List Char) : trimStart (trimStart cs) = trimStart cs :=
  dropWhile_dropWhile _ _

theorem trimEnd_trimEnd (cs : List Char) : trimEnd (trimEnd cs) = trimEnd cs := by
  simp [trimEnd, dropWhile_dropWhile]

theorem pieces_ne_nil {α : Type} (p : α → Bool) (cs : List α) : pieces p cs ≠ [] := by
  cases cs with
  | nil => simp [pieces]
  | cons c cs =>
    simp only [pieces, List.foldr_cons]
    split
    · simp
    · split <;> simp

end TurtleGraphics.Text
