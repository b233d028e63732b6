import TracingConsole.Model.Aggregate

/-!
# Labels of the flat table

`--stats` prints the rows as a tree: in front of the last name of a stack there is one column
for each level, and whether its line goes on is read from the rows that follow.
-/

set_option autoImplicit false

namespace TracingConsole.Model

variable {T : Type}

/-- INTERNAL: the rows after one, up to the first that leaves the parent `parent` of its
ancestor `needle` at depth `d`.
SRCLINE: util.rs:58-75 -/
def scanSibling (parent : List String) (needle : String) (d : ℕ) :
    List (BucketKey × T) → Bool
  | [] => false
  | (key, _) :: rest =>
    if key.stack.length < d - 1 then false
    else if key.stack.take (d - 1) ≠ parent then false
    else if key.stack.length < d then scanSibling parent needle d rest
    else if key.stack[d - 1]? ≠ some needle then true
    else scanSibling parent needle d rest

/-- INTERNAL: SRCLINE: util.rs:50-77 -/
def hasSiblingAfter (rows : List (BucketKey × T)) (i : Fin rows.length) (d : ℕ) : Bool :=
  let s := rows[i].1.stack
  if d = 0 ∨ s.length < d then false
  else scanSibling (s.take (d - 1)) (s.getD (d - 1) "") d (rows.drop (i + 1))

/-- INTERNAL: SRCLINE: util.rs:27-48 -/
def treeLabel (rows : List (BucketKey × T)) (i : Fin rows.length) : String :=
  let stack := rows[i].1.stack
  let n := stack.length
  if n = 0 then ""
  else if n = 1 then stack.getD 0 ""
  else
    let columns := (List.range' 2 (n - 1)).map fun d =>
      if d < n then if hasSiblingAfter rows i d then "│  " else "   "
      else if hasSiblingAfter rows i d then "├─ " else "└─ "
    String.join columns ++ stack.getD (n - 1) ""

end TracingConsole.Model
