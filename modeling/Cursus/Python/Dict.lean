/-
Python's `dict` with integer keys: a finite map.
-/
import Mathlib.Data.Finmap
import Mathlib.Tactic

namespace Cursus.Python

abbrev Dict (α : Type) := Finmap fun _ : ℤ => α

namespace Dict

variable {α β : Type}

/-- Change the value at a key in place; nothing happens when the key is absent. -/
def modify (d : Dict α) (k : ℤ) (f : α → α) : Dict α :=
  match d.lookup k with
  | some v => d.insert k (f v)
  | none => d

theorem modify_of_lookup {d : Dict α} {k : ℤ} {v : α} (h : d.lookup k = some v) (f : α → α) :
    d.modify k f = d.insert k (f v) := by
  simp [modify, h]

theorem lookup_modify (d : Dict α) (k k' : ℤ) (f : α → α) :
    (d.modify k f).lookup k' = if k' = k then (d.lookup k').map f else d.lookup k' := by
  unfold modify
  split
  · rename_i v hv
    split_ifs with hk
    · subst hk; rw [Finmap.lookup_insert, hv]; rfl
    · rw [Finmap.lookup_insert_of_ne _ hk]
  · rename_i hn
    split_ifs with hk
    · subst hk; rw [hn]; rfl
    · rfl

/-- What a projection of the values sees is unchanged when the new value agrees with the old. -/
theorem lookup_modify_map (d : Dict α) (k k' : ℤ) {f : α → α} {g : α → β} (hg : ∀ v, g (f v) = g v) :
    ((d.modify k f).lookup k').map g = (d.lookup k').map g := by
  rw [lookup_modify]
  split_ifs
  · simp [Option.map_map, Function.comp_def, hg]
  · rfl

end Dict

end Cursus.Python
