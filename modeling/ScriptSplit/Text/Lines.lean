import ScriptSplit.Text.Bytes

/-!
# Lines of a text

The line of an offset is found by bisection among the offsets at which lines start.

* `bisect`: the first number of a range that passes a test.
* `Bytes.lineStarts`: where the lines of a text start.
* `Bytes.lineAt`: the line that holds a byte.
-/

namespace ScriptSplit

/-- The first number from `low` on, and below `high`, that passes the test, or `high`. What comes after
a number that passes has to pass too. -/
def bisect (test : Nat → Bool) (low high : Nat) : Nat :=
  if low < high then
    let middle := (low + high) / 2
    if test middle then bisect test low middle else bisect test (middle + 1) high
  else low
termination_by high - low
decreasing_by all_goals omega

namespace Bytes

/-- The offsets that follow a newline, when the text starts at `offset`. -/
def lineStartsFrom : (offset : Nat) → Bytes → List Nat
  | _, [] => []
  | offset, b :: r =>
    if b == newlineByte then (offset + 1) :: lineStartsFrom (offset + 1) r else lineStartsFrom (offset + 1) r

/-- The offsets at which the lines of a text start, in order. -/
def lineStarts (t : Bytes) : Array Nat := (0 :: lineStartsFrom 0 t).toArray

/-- The one-based line that holds the byte at `offset`: the number of lines that start no later. -/
def lineAt (t : Bytes) (offset : Nat) : Nat :=
  let starts := t.lineStarts
  bisect (fun i => offset < starts.getD i 0) 0 starts.size

end Bytes

end ScriptSplit
