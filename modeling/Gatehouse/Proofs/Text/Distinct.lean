import Mathlib.Data.List.Induction
import Mathlib.Data.List.Nodup

/-!
# Names without repetitions

Of a list of names each is kept where it comes first. A name at the end is kept if it is new
(`eraseDups_concat`), so no name is kept twice (`nodup_eraseDups`).
-/

namespace Gatehouse

theorem eraseDups_concat (ts : List String) (t : String) :
    (ts ++ [t]).eraseDups = if t ∈ ts.eraseDups then ts.eraseDups else ts.eraseDups ++ [t] := by
  rw [List.eraseDups_append, List.removeAll, List.filter_singleton]
  by_cases known : t ∈ ts
  · simp [known]
  · simp [known, List.eraseDups_cons]

theorem nodup_eraseDups (ts : List String) : ts.eraseDups.Nodup := by
  induction ts using List.reverseRecOn with
  | nil => exact List.nodup_nil
  | append_singleton ts t ih =>
    rw [eraseDups_concat]
    split
    · exact ih
    · rename_i new
      rw [← List.concat_eq_append]
      exact List.Nodup.concat new ih

end Gatehouse
