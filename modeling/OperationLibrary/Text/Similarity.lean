/-!
How alike two words are: the share of their characters that lie in common runs. The longest common
run counts first, then what is common on its left and on its right.
-/

namespace OperationLibrary.Text

/-- The length of the common beginning. -/
def commonLength : List Char → List Char → Nat
  | a :: as, b :: bs => if a = b then commonLength as bs + 1 else 0
  | _, _ => 0

/-- A run of characters that two words have in common, and where it starts in each. -/
structure CommonRun where
  left : Nat
  right : Nat
  length : Nat

/-- The longest common run, the first one of those that are equally long. -/
def longestRun (a b : List Char) : CommonRun :=
  let starts := (List.range a.length).flatMap fun i => (List.range b.length).map fun j => (i, j)
  starts.foldl (fun best (i, j) =>
    let length := commonLength (a.drop i) (b.drop j)
    if best.length < length then ⟨i, j, length⟩ else best) ⟨0, 0, 0⟩

/-- The number of characters in common runs. Every round takes one character at least. -/
def commonCount : Nat → List Char → List Char → Nat
  | 0, _, _ => 0
  | rounds + 1, a, b =>
    let run := longestRun a b
    if run.length = 0 then 0
    else
      commonCount rounds (a.take run.left) (b.take run.right) + run.length +
        commonCount rounds (a.drop (run.left + run.length)) (b.drop (run.right + run.length))

/-- A word with the number of characters that it shares, out of all of both words. -/
structure Likeness where
  word : String
  shared : Nat
  total : Nat

def likeness (word other : String) : Likeness :=
  ⟨other, 2 * commonCount other.length other.toList word.toList, other.length + word.length⟩

/-- Whether one likeness comes before another: the closer one, or the later word. -/
def Likeness.isBefore (x y : Likeness) : Bool :=
  let left := x.shared * y.total
  let right := y.shared * x.total
  right < left || (left == right && y.word ≤ x.word)

/-- The three words that are most like a word, of those that share three fifths with it, in the
order of the words. -/
def similarWords (words : List String) (word : String) : List String :=
  let alike := (words.map (likeness word)).filter fun l => 3 * l.total ≤ 5 * l.shared
  (((alike.mergeSort Likeness.isBefore).take 3).map Likeness.word).mergeSort fun a b => a ≤ b

end OperationLibrary.Text
