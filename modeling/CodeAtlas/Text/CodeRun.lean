/-!
# Runs of code points

Unicode properties are given as lists of runs.  Within a run the code points stand at a fixed
distance, because many cased letters alternate between upper and lower case.
-/

namespace CodeAtlas.Text

/-- The code points `first`, `first + step`, … up to `last`. -/
structure CodeRun where
  first : Nat
  last : Nat
  step : Nat
deriving DecidableEq, Repr

namespace CodeRun

/-- Whether a code point belongs to the run. -/
def contains (run : CodeRun) (code : Nat) : Bool :=
  run.first ≤ code && code ≤ run.last && (code - run.first) % run.step == 0

end CodeRun

/-- Whether a code point belongs to one of the runs. -/
def inRuns (runs : List CodeRun) (code : Nat) : Bool :=
  runs.any (·.contains code)

@[simp] theorem inRuns_nil (code : Nat) : inRuns [] code = false := rfl

@[simp] theorem inRuns_cons (run : CodeRun) (runs : List CodeRun) (code : Nat) :
    inRuns (run :: runs) code = (run.contains code || inRuns runs code) := rfl

end CodeAtlas.Text
