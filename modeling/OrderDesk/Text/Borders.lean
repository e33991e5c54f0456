/-!
# Sets of characters

A set of code points is told by its borders: the code points, in order, where a run in the set
starts or ends. The first starts one.

## Main definitions

* `inRuns`: whether a code point is in a set
-/

namespace OrderDesk.Text

/-- Whether the run that `n` falls in is in the set, `inside` telling about the run in front of the
next border. -/
def inRunsFrom (inside : Bool) (n : Nat) : List Nat → Bool
  | [] => inside
  | border :: rest => if n < border then inside else inRunsFrom (!inside) n rest

/-- **Whether a code point is in the set** with some borders. -/
def inRuns (borders : List Nat) (n : Nat) : Bool := inRunsFrom false n borders

end OrderDesk.Text
