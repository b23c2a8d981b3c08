/-! # Similar words

The Jaro similarity of two words counts the characters they share within a window of
half the longer word's length, less one, and the shared characters that appear in a
different order (transpositions, counted in pairs). With `m` shared characters, `t`
transpositions and lengths `a` and `b`, it is `(m/a + m/b + (m-t)/m) / 3`: 1 for equal
words, 0 for words with nothing in common.

A word is offered as a suggestion for another when their similarity exceeds 0.7;
suggestions are listed from the least to the most similar, ties in their given order. The
similarity is computed in double precision, and the bound is a double too, because the
answer is decided by rounding at the bound: one shared letter between a letter and a word
of ten gives `(1 + 0.1 + 1) / 3`, which comes out just above 0.7 and so is close.
-/

namespace PoolTreasury

/-- Marks, for each character of `a`, the first unmarked equal character of `b` within the
window around its position; returns the marks on `a` and on `b`. -/
def jaroMatches (range : Nat) (a b : List Char) : List Bool × List Bool :=
  let step (acc : List Bool × List Bool × Nat) (c : Char) : List Bool × List Bool × Nat :=
    let (aMarks, bMarks, i) := acc
    let lo := i - range
    let hi := min b.length (i + range + 1)
    let found := (List.range hi).find? fun j =>
      lo ≤ j && b[j]? == some c && bMarks[j]? == some false
    match found with
    | some j => (aMarks ++ [true], bMarks.set j true, i + 1)
    | none => (aMarks ++ [false], bMarks, i + 1)
  let (aMarks, bMarks, _) := a.foldl step ([], b.map fun _ => false, 0)
  (aMarks, bMarks)

/-- The characters of a word that carry a mark, in order. -/
def marked (word : List Char) (marks : List Bool) : List Char :=
  (word.zip marks).filterMap fun (c, m) => if m then some c else none

/-- The Jaro similarity of two words, in double precision. -/
def jaro (a b : String) : Float :=
  let a := a.toList
  let b := b.toList
  if a.isEmpty && b.isEmpty then 1.0
  else if a.isEmpty || b.isEmpty then 0.0
  else
    let range := max a.length b.length / 2 - 1
    let (aMarks, bMarks) := jaroMatches range a b
    let fromA := marked a aMarks
    let fromB := marked b bMarks
    let m := fromA.length
    let t := ((fromA.zip fromB).filter fun (x, y) => x != y).length / 2
    if m = 0 then 0.0
    else (m.toFloat / a.length.toFloat + m.toFloat / b.length.toFloat + (m - t).toFloat / m.toFloat) / 3.0

/-- Whether two words are similar enough for one to be suggested for the other. -/
def isClose (similarity : Float) : Bool := similarity > 0.7

/-- The candidates close to `word`, the closest last. -/
def similarWords (word : String) (candidates : List String) : List String :=
  let close := (candidates.map fun c => (jaro word c, c)).filter (isClose ·.1)
  (close.mergeSort fun x y => x.1 ≤ y.1).map Prod.snd

end PoolTreasury
