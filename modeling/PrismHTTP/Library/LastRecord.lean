import Mathlib.Data.List.Basic

/-! The last record of a key in a history.
A table that is written in place holds, for each key, what the history recorded last.
-/

namespace LastRecord

variable {κ ν : Type} [DecidableEq κ]

/-- The value recorded last under the key. -/
def last (history : List (κ × ν)) (key : κ) : Option ν :=
  ((history.filter fun record => record.1 = key).getLast?).map Prod.snd

/-- An empty record has nothing of any key. -/
@[simp] theorem last_nil (key : κ) : last ([] : List (κ × ν)) key = none := rfl

/-- A further record decides its own key and no other. -/
theorem last_append (history : List (κ × ν)) (recorded : κ) (value : ν) (key : κ)
    : last (history ++ [(recorded, value)]) key
      = if key = recorded then some value else last history key := by
  unfold last
  by_cases own : key = recorded
  · subst own
    simp
  · simp [own, Ne.symm own]

end LastRecord
