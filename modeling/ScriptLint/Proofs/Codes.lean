import Mathlib.Data.List.Basic

/-!
# ScriptLint.Proofs.Codes

Texts that are put together from parts, and from which the parts are read back.

* `ReadableOn`, `flatMap_readable`: items that are written one after the other
* `OneLine`, `splitOn_intercalate_lines`: lines with line ends between them
-/

namespace ScriptLint

section Items

variable {α β : Type}

/-- What is written of an item can be told from what follows it. -/
def ReadableOn (ok : α → Prop) (write : α → List β) : Prop :=
  ∀ x y xs ys, ok x → ok y → write x ++ xs = write y ++ ys → x = y ∧ xs = ys

/-- Items that are written one after the other are read back, up to something that cannot be taken
for another item. -/
theorem flatMap_readable {ok : α → Prop} {write : α → List β} (h : ReadableOn ok write)
    {as bs : List β} (has : ∀ x rest, write x ++ rest ≠ as) (hbs : ∀ x rest, write x ++ rest ≠ bs)
    (xs : List α) : ∀ {ys : List α}, (∀ x ∈ xs, ok x) → (∀ y ∈ ys, ok y) →
      xs.flatMap write ++ as = ys.flatMap write ++ bs → xs = ys ∧ as = bs := by
  induction xs with
  | nil =>
    intro ys _ _ heq
    cases ys with
    | nil => exact ⟨rfl, heq⟩
    | cons y ys =>
      rw [List.flatMap_nil, List.nil_append, List.flatMap_cons, List.append_assoc] at heq
      exact absurd heq.symm (has y _)
  | cons x xs ih =>
    intro ys hxs hys heq
    cases ys with
    | nil =>
      rw [List.flatMap_nil, List.nil_append, List.flatMap_cons, List.append_assoc] at heq
      exact absurd heq (hbs x _)
    | cons y ys =>
      rw [List.forall_mem_cons] at hxs hys
      rw [List.flatMap_cons, List.flatMap_cons, List.append_assoc, List.append_assoc] at heq
      obtain ⟨rfl, hrest⟩ := h x y _ _ hxs.1 hys.1 heq
      obtain ⟨rfl, hend⟩ := ih hxs.2 hys.2 hrest
      exact ⟨rfl, hend⟩

end Items

section Lines

/-- A text that stays on one line. -/
def OneLine (s : String) : Prop := '\n' ∉ s.toList

theorem OneLine.append {s t : String} (hs : OneLine s) (ht : OneLine t) : OneLine (s ++ t) := by
  rw [OneLine, String.toList_append, List.mem_append, not_or]
  exact ⟨hs, ht⟩

/-- Lines are read back from the text that has line ends between them. -/
theorem splitOn_intercalate_lines {ls : List String} (h : ∀ l ∈ ls, OneLine l) (hls : ls ≠ []) :
    (String.intercalate "\n" ls).toList.splitOn '\n' = ls.map String.toList := by
  rw [String.toList_intercalate]
  refine List.splitOn_intercalate '\n' ?_ (by simpa using hls)
  rw [List.forall_mem_map]
  exact h

end Lines

end ScriptLint
