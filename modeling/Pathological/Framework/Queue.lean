import Mathlib.Data.List.Basic

/-!
# Queues, first in, first out

`Served q pushed taken q'` says that a queue that has had `q` in it has `q'` in it after
`pushed` has been pushed to its back and `taken` taken off its front, in whatever
interleaving. So nothing overtakes: what stands at place `k` is the `k`-th to be taken
(`Served.taken_eq`), and moves up by one with each element that is taken before
(`Served.rest_eq`).
-/

namespace Framework

variable {α : Type}

/-- What has been taken off the front of a queue, and what is left in it, are what was in it
and what has been pushed to its back, in order. -/
def Served (q pushed taken q' : List α) : Prop := q ++ pushed = taken ++ q'

namespace Served

variable {q q' q'' pushed pushed' taken taken' : List α} {a : α} {k : ℕ}

theorem nil (q : List α) : Served q [] [] q := List.append_nil q

/-- One stretch of service after another. -/
theorem trans (h : Served q pushed taken q') (h' : Served q' pushed' taken' q'') :
    Served q (pushed ++ pushed') (taken ++ taken') q'' := by
  calc q ++ (pushed ++ pushed') = q ++ pushed ++ pushed' := (List.append_assoc ..).symm
    _ = taken ++ q' ++ pushed' := by rw [show q ++ pushed = taken ++ q' from h]
    _ = taken ++ (q' ++ pushed') := List.append_assoc ..
    _ = taken ++ (taken' ++ q'') := by rw [show q' ++ pushed' = taken' ++ q'' from h']
    _ = taken ++ taken' ++ q'' := (List.append_assoc ..).symm

/-- **An element is taken in its turn.** -/
theorem taken_eq (h : Served q pushed taken q') (ha : q[k]? = some a) (hk : k < taken.length) :
    taken[k]? = some a := by
  have hlt : k < q.length := (List.getElem?_eq_some_iff.mp ha).1
  calc taken[k]? = (taken ++ q')[k]? := (List.getElem?_append_left hk).symm
    _ = (q ++ pushed)[k]? := by rw [show q ++ pushed = taken ++ q' from h]
    _ = q[k]? := List.getElem?_append_left hlt
    _ = some a := ha

/-- **Until then it moves up** by one with each element that is taken. -/
theorem rest_eq (h : Served q pushed taken q') (ha : q[k]? = some a) (hk : taken.length ≤ k) :
    q'[k - taken.length]? = some a := by
  have hlt : k < q.length := (List.getElem?_eq_some_iff.mp ha).1
  calc q'[k - taken.length]? = (taken ++ q')[k]? := (List.getElem?_append_right hk).symm
    _ = (q ++ pushed)[k]? := by rw [show q ++ pushed = taken ++ q' from h]
    _ = q[k]? := List.getElem?_append_left hlt
    _ = some a := ha

end Served

end Framework
