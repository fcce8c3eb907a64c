import Mathlib.Logic.Function.Basic

/-! A map kept in parts, each responsible for the keys of its shard.
An operation about one key cannot tell the part responsible for it from the map that all the
parts make up, and changes both alike; so does a sequence of such operations, each run at the
part its key belongs to.
-/

namespace PartitionedMap

variable {κ ν ι ρ α : Type}

/-- The map that the parts make up. -/
def whole (shard : κ → ι) (parts : ι → κ → ν) : κ → ν := fun key => parts (shard key) key

/-- An operation that reads and writes one key only. -/
structure LocalTo (key : κ) (op : (κ → ν) → ρ × (κ → ν)) : Prop where
  answer : ∀ s t : κ → ν, s key = t key → (op s).1 = (op t).1
  effect : ∀ s t : κ → ν, s key = t key → (op s).2 key = (op t).2 key
  frame : ∀ (s : κ → ν) (other : κ), other ≠ key → (op s).2 other = s other

/-- Reading a key is local to it. -/
theorem LocalTo.read (key : κ) (answer : ν → ρ) : LocalTo key fun s => (answer (s key), s) where
  answer _ _ same := congrArg answer same
  effect _ _ same := same
  frame _ _ _ := rfl

/-- Writing a key, or failing to, is local to it. -/
theorem LocalTo.write [DecidableEq κ] (key : κ) (answer : ρ) (v : ν) (applied : Bool)
    : LocalTo key fun s => (answer, if applied then Function.update s key v else s) where
  answer _ _ _ := rfl
  effect s t same := by
    cases applied with
    | true => simp
    | false => exact same
  frame s other different := by
    cases applied with
    | true => exact Function.update_of_ne different _ _
    | false => rfl

/-- The answers of operations run one after the other, and the state they leave. -/
def replay {σ : Type} (serve : α → σ → ρ × σ) (s : σ) : List α → List ρ × σ
  | [] => ([], s)
  | a :: rest =>
      let served := serve a s
      let later := replay serve served.2 rest
      (served.1 :: later.1, later.2)

section Replay

variable {σ : Type} {serve : α → σ → ρ × σ}

/-- One more operation runs where the others end, by induction on those. -/
theorem replay_concat (s : σ) (ops : List α) (op : α)
    : replay serve s (ops ++ [op])
      = ((replay serve s ops).1 ++ [(serve op (replay serve s ops).2).1],
        (serve op (replay serve s ops).2).2) := by
  induction ops generalizing s with
  | nil => rfl
  | cons first rest ih =>
      rw [List.cons_append, replay, ih (serve first s).2]
      rfl

end Replay

section Parts

variable [DecidableEq ι] {shard : κ → ι}

/-- The part responsible for a key answers as the whole map would, and the whole changes as if
it had been changed itself.
-/
theorem LocalTo.at_shard {key : κ} {op : (κ → ν) → ρ × (κ → ν)} (about : LocalTo key op)
    (parts : ι → κ → ν)
    : (op (parts (shard key))).1 = (op (whole shard parts)).1
      ∧ whole shard (Function.update parts (shard key) (op (parts (shard key))).2)
        = (op (whole shard parts)).2 := by
  have alike : parts (shard key) key = whole shard parts key := rfl
  refine ⟨about.answer _ _ alike, ?_⟩
  funext other
  by_cases own : other = key
  · subst own
    rw [whole, Function.update_self]
    exact about.effect _ _ alike
  -- another key of the same shard is in the changed part, but was not touched there
  · rw [about.frame _ other own]
    by_cases near : shard other = shard key
    · rw [whole, near, Function.update_self, about.frame _ other own, whole, near]
    · rw [whole, Function.update_of_ne near, whole]

/-- A part's keys of other shards stay as they are. -/
theorem LocalTo.foreign {key : κ} {op : (κ → ν) → ρ × (κ → ν)} (about : LocalTo key op)
    (parts : ι → κ → ν) {i : ι} {other : κ} (foreign : shard other ≠ i)
    : Function.update parts (shard key) (op (parts (shard key))).2 i other = parts i other := by
  by_cases changed : i = shard key
  · subst changed
    have different : other ≠ key := fun same => foreign (congrArg shard same)
    rw [Function.update_self, about.frame _ other different]
  · rw [Function.update_of_ne changed]

end Parts

end PartitionedMap
