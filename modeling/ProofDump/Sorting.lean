/-!
# Sorting by a comparison

The sort takes the longest run at the start of the list that ascends, or that descends strictly, turns
a descending one around, and then inserts the other members one by one at the place that halving
finds. It asks nothing but `before a b`, "does `a` come before `b`", so it is defined for every such
question: one whose answer can fail, and one that is not an order at all. For an order it is a stable
sort; a question that equal things answer with yes in both directions puts them in the opposite order.
-/

namespace ProofDump.Sorting

variable {m : Type → Type} [Monad m] {α : Type}

/-- Put a new member into a list at the place found by halving: before the middle member if it comes
before it, after it otherwise. -/
def insertM (before : α → α → m Bool) (pivot : α) (sorted : List α) : m (List α) :=
  match _hsplit : sorted.drop (sorted.length / 2) with
  | [] => pure [pivot]
  | middle :: right => do
    if ← before pivot middle then
      let left ← insertM before pivot (sorted.take (sorted.length / 2))
      return left ++ middle :: right
    else
      let right ← insertM before pivot right
      return sorted.take (sorted.length / 2) ++ middle :: right
termination_by sorted.length
decreasing_by
  all_goals
    have hlength := congrArg List.length _hsplit
    simp only [List.length_drop, List.length_cons, List.length_take] at hlength ⊢
    omega

/-- Lengthen a run, held last member first, while each new member comes before the last one exactly
if the run descends. -/
def extendM (before : α → α → m Bool) (descending : Bool) (last : α) (run : List α) :
    List α → m (List α × List α)
  | [] => pure (last :: run, [])
  | next :: rest => do
    if (← before next last) == descending then extendM before descending next (last :: run) rest
    else return (last :: run, next :: rest)

/-- The run at the start of a list, ascending, and the members after it. -/
def firstRunM (before : α → α → m Bool) : List α → m (List α × List α)
  | [] => pure ([], [])
  | [only] => pure ([only], [])
  | first :: second :: rest => do
    if ← before second first then extendM before true second [first] rest
    else
      let (run, rest) ← extendM before false second [first] rest
      return (run.reverse, rest)

/-- Insert members one by one. -/
def insertAllM (before : α → α → m Bool) (sorted : List α) : List α → m (List α)
  | [] => pure sorted
  | next :: rest => do insertAllM before (← insertM before next sorted) rest

/-- Sort a list by the answers of `before`. -/
def sortM (before : α → α → m Bool) (members : List α) : m (List α) := do
  let (run, rest) ← firstRunM before members
  insertAllM before run rest

/-- Sort a list by a question that always has an answer. -/
def sort (before : α → α → Bool) (members : List α) : List α :=
  Id.run (sortM (fun a b => pure (before a b)) members)

end ProofDump.Sorting
