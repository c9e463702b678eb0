import Mathlib.Data.List.AList
import Mathlib.Logic.Function.Basic

/-! Reading a hash map with a default value: a map with finitely many keys seen as a
total function, and the updates of a map as updates of that function. -/
namespace RsWaku.Maps
variable {κ β : Type*} [DecidableEq κ]

def read (m : AList fun _ : κ => β) (d : β) (k : κ) : β := (m.lookup k).getD d

variable (m : AList fun _ : κ => β) (d v : β) (k : κ)

theorem read_insert : read (m.insert k v) d = Function.update (read m d) k v := by
  funext x
  by_cases hx : x = k
  · subst hx
    rw [read, AList.lookup_insert, Option.getD_some, Function.update_self]
  · rw [read, AList.lookup_insert_ne hx, Function.update_of_ne hx, read]

theorem read_erase : read (m.erase k) d = Function.update (read m d) k d := by
  funext x
  by_cases hx : x = k
  · subst hx
    rw [read, AList.lookup_erase, Option.getD_none, Function.update_self]
  · rw [read, AList.lookup_erase_ne hx, Function.update_of_ne hx, read]

variable {m d k v}

theorem read_of_lookup (h : m.lookup k = some v) : read m d k = v := by
  rw [read, h, Option.getD_some]

theorem read_of_absent (h : m.lookup k = none) : read m d k = d := by
  rw [read, h, Option.getD_none]

end RsWaku.Maps
