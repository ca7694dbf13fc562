/-!
# Search by name

Kinds, phases and forms are told by their names, and each is found by a search for its name in the
list of all.  If the search finds every one of them, it finds nothing else: what is found has the
name that was searched for, and a name that is not found belongs to none.  A table of names and
what they stand for says the same in another way.

## Main results

* `find?_name_eq_some_iff`, `find?_name_eq_none_iff` — what is found under a name.
* `mem_table_iff` — what a table lists under a name.
-/

namespace TunnelEvents

variable {α : Type} {name : α → String} {n : String} {a : α}

section Find

variable {all : List α} (hfind : ∀ a, (all.find? fun b => name b = name a) = some a)

include hfind

/-- A search finds nothing but what has the name. -/
theorem find?_name_eq_some_iff : (all.find? fun b => name b = n) = some a ↔ n = name a := by
  constructor
  · intro h
    have hname := List.find?_some h
    exact (of_decide_eq_true hname).symm
  · rintro rfl
    exact hfind a

theorem find?_name_eq_none_iff : (all.find? fun b => name b = n) = none ↔ ∀ a, n ≠ name a := by
  rw [Option.eq_none_iff_forall_ne_some]
  exact forall_congr' fun a => not_congr (find?_name_eq_some_iff hfind)

end Find

/-- A table that says the names, and says them of all, lists under a name what has it. -/
theorem mem_table_iff {table : List (String × α)} (hname : ∀ e ∈ table, e.1 = name e.2)
    (hmem : ∀ a, (name a, a) ∈ table) : (n, a) ∈ table ↔ n = name a := by
  constructor
  · intro h
    exact hname _ h
  · rintro rfl
    exact hmem a

end TunnelEvents
