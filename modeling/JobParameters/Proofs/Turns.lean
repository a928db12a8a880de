/-
# Taking turns

Items are dealt to channels in turn: the item at place `i` goes to channel `i % w`. Putting
one item after the other on the batch whose turn it is (`dealEach`) comes to the same as
taking, for each channel, every `w`-th item from its own place on (`dealEach_eq_deal`); what
holds all along is that the batches are those of the items dealt so far
(`modify_deal`).

So a batch has the items at its place, a round later, two rounds later, and so on
(`getElem?_of_deal`), a batch has as many items as there are whole rounds, or one more
(`length_of_mem_deal`), and who takes the first item of each batch, then the second of each,
gets the items back in their order (`takeTurns_deal`).

Key definitions: `dealEach`, `takeTurns`.
-/
import JobParameters.Proofs.Dealing

namespace JobParameters

variable {α : Type} {w : Nat}

/-! ### Every `w`-th item -/

theorem getElem?_everyNth (hw : 0 < w) (xs : List α) (k : Nat) :
    (everyNth w xs)[k]? = xs[k * w]? := by
  induction k generalizing xs with
  | zero => rw [Nat.zero_mul, ← List.head?_eq_getElem?, ← List.head?_eq_getElem?, head?_everyNth]
  | succ k ih =>
    have hplace : w + k * w = (k + 1) * w := by rw [Nat.succ_mul, Nat.add_comm]
    calc (everyNth w xs)[k + 1]?
        = (everyNth w xs).tail[k]? := by rw [List.getElem?_tail]
      _ = (xs.drop w)[k * w]? := by rw [tail_everyNth hw, ih]
      _ = xs[(k + 1) * w]? := by rw [List.getElem?_drop, hplace]

/-- One more item shows where a whole number of rounds is behind. -/
theorem everyNth_concat (hw : 0 < w) (xs : List α) (x : α) :
    everyNth w (xs ++ [x]) = everyNth w xs ++ if xs.length % w = 0 then [x] else [] := by
  induction xs using everyNth.induct w with
  | case1 => simp [everyNth]
  | case2 y ys ih =>
    rw [List.cons_append, everyNth, everyNth, List.length_cons, List.cons_append]
    by_cases hround : w - 1 ≤ ys.length
    · have hmod : (ys.length + 1) % w = (ys.drop (w - 1)).length % w := by
        have hlength : ys.length + 1 = (ys.drop (w - 1)).length + w := by
          rw [List.length_drop]
          omega
        rw [hlength, Nat.add_mod_right]
      rw [List.drop_append_of_le_length hround, ih, hmod]
    · have hlt : ys.length + 1 < w := by omega
      have hmod : (ys.length + 1) % w ≠ 0 := by
        rw [Nat.mod_eq_of_lt hlt]
        omega
      have hdrop : (ys ++ [x]).drop (w - 1) = [] := by
        rw [List.drop_eq_nil_iff]
        simp
        omega
      have hdrop' : ys.drop (w - 1) = [] := by
        rw [List.drop_eq_nil_iff]
        omega
      rw [hdrop, hdrop', if_neg hmod, List.append_nil]

theorem length_everyNth (hw : 0 < w) (xs : List α) :
    (everyNth w xs).length = (xs.length + (w - 1)) / w := by
  induction xs using everyNth.induct w with
  | case1 =>
    have hlt : w - 1 < w := by omega
    simp [everyNth, Nat.div_eq_of_lt hlt]
  | case2 x xs ih =>
    have hplus : xs.length + 1 + (w - 1) = xs.length + w := by omega
    rw [everyNth, List.length_cons, ih, List.length_drop, List.length_cons, hplus,
      Nat.add_div_right _ hw]
    by_cases hround : w - 1 ≤ xs.length
    · rw [Nat.sub_add_cancel hround]
    · have hlt : xs.length < w := by omega
      have hlt' : xs.length - (w - 1) + (w - 1) < w := by omega
      rw [Nat.div_eq_of_lt hlt, Nat.div_eq_of_lt hlt']

/-! ### One item after the other -/

/-- Puts items on batches one after the other, each on the batch whose turn it is; the first
of them is at the given place. -/
def dealOnto (w : Nat) : Nat → List (List α) → List α → List (List α)
  | _, bs, [] => bs
  | i, bs, x :: xs => dealOnto w (i + 1) (bs.modify (i % w) fun b => b ++ [x]) xs

/-- Deals items one after the other to `w` batches, which are empty at first. -/
def dealEach (w : Nat) (xs : List α) : List (List α) :=
  dealOnto w 0 (List.replicate w []) xs

theorem getElem?_deal (w : Nat) (xs : List α) (c : Nat) :
    (deal w xs)[c]? = if c < w then some (everyNth w (xs.drop c)) else none := by
  by_cases hc : c < w <;> simp [deal, hc]

/-- It is the turn of a channel when whole rounds have gone by since its first item. -/
theorem mod_eq_iff_sub_mod {c n : Nat} (hc : c < w) (hle : c ≤ n) :
    n % w = c ↔ (n - c) % w = 0 := by
  constructor
  · intro h
    have hround := Nat.div_add_mod n w
    have hsub : n - c = w * (n / w) := by omega
    rw [hsub, Nat.mul_mod_right]
  · intro h
    obtain ⟨k, hk⟩ := Nat.dvd_of_mod_eq_zero h
    have hn : n = c + w * k := by omega
    rw [hn, Nat.add_mul_mod_self_left, Nat.mod_eq_of_lt hc]

/-- **To put an item on the batch whose turn it is, is to deal it after the others.** -/
theorem modify_deal (hw : 0 < w) (xs : List α) (x : α) :
    ((deal w xs).modify (xs.length % w) fun b => b ++ [x]) = deal w (xs ++ [x]) := by
  refine List.ext_getElem? fun c => ?_
  rw [List.getElem?_modify, getElem?_deal, getElem?_deal]
  by_cases hc : c < w
  · have hbatch : everyNth w ((xs ++ [x]).drop c) =
        if xs.length % w = c then everyNth w (xs.drop c) ++ [x] else everyNth w (xs.drop c) := by
      by_cases hle : c ≤ xs.length
      · rw [List.drop_append_of_le_length hle, everyNth_concat hw, List.length_drop]
        by_cases hturn : xs.length % w = c
        · rw [if_pos hturn, if_pos ((mod_eq_iff_sub_mod hc hle).mp hturn)]
        · rw [if_neg hturn, if_neg (mt (mod_eq_iff_sub_mod hc hle).mpr hturn), List.append_nil]
      · -- The batch is further on than the list goes, so it stays empty.
        have hother : xs.length % w ≠ c := by
          rw [Nat.mod_eq_of_lt (by omega)]
          omega
        have hnil : xs.drop c = [] := List.drop_eq_nil_iff.mpr (by omega)
        have hnil' : (xs ++ [x]).drop c = [] := by
          rw [List.drop_eq_nil_iff, List.length_append, List.length_singleton]
          omega
        rw [if_neg hother, hnil, hnil']
    simp [hc, hbatch]
  · simp [hc]

/-- What is put on the batches of items already dealt is dealt after them. -/
theorem dealOnto_deal (hw : 0 < w) (xs ys : List α) :
    dealOnto w xs.length (deal w xs) ys = deal w (xs ++ ys) := by
  induction ys generalizing xs with
  | nil => rw [List.append_nil, dealOnto]
  | cons y ys ih =>
    have hlength : xs.length + 1 = (xs ++ [y]).length := by simp
    rw [dealOnto, modify_deal hw, hlength, ih, List.append_assoc, List.singleton_append]

/-- **Dealing one item after the other** gives the same batches as taking every `w`-th item
for each. -/
theorem dealEach_eq_deal (hw : 0 < w) (xs : List α) : dealEach w xs = deal w xs := by
  have hnone : List.replicate w [] = deal w ([] : List α) := by
    refine List.ext_getElem? fun c => ?_
    rw [getElem?_deal, List.getElem?_replicate, List.drop_nil, everyNth]
  rw [dealEach, hnone]
  exact dealOnto_deal hw [] xs

/-! ### What a batch has -/

/-- A batch has the item at its own place, the one a round later, and so on. -/
theorem getElem?_of_deal (hw : 0 < w) {xs b : List α} {c : Nat} (hb : (deal w xs)[c]? = some b)
    (k : Nat) : b[k]? = xs[c + k * w]? := by
  rw [getElem?_deal] at hb
  split at hb
  · cases hb
    rw [getElem?_everyNth hw, List.getElem?_drop]
  · cases hb

/-- A batch has an item for each whole round, or one more. -/
theorem length_of_mem_deal (hw : 0 < w) {xs b : List α} (hb : b ∈ deal w xs) :
    xs.length / w ≤ b.length ∧ b.length ≤ xs.length / w + 1 := by
  obtain ⟨c, hc, rfl⟩ := List.mem_map.mp hb
  have hc : c < w := List.mem_range.mp hc
  have hlow : xs.length ≤ xs.length - c + (w - 1) := by omega
  have hhigh : xs.length - c + (w - 1) ≤ xs.length + w := by omega
  rw [length_everyNth hw, List.length_drop, ← Nat.add_div_right _ hw]
  exact ⟨Nat.div_le_div_right hlow, Nat.div_le_div_right hhigh⟩

/-! ### Taking back -/

/-- The first items of the batches that have one, in the order of the batches. -/
def firsts (bs : List (List α)) : List α := bs.filterMap List.head?

/-- The batches without their first items. -/
def rests (bs : List (List α)) : List (List α) := bs.map List.tail

/-- A round takes the first items and leaves the others. -/
theorem length_firsts_add_rests (bs : List (List α)) :
    (firsts bs).length + (rests bs).flatten.length = bs.flatten.length := by
  induction bs with
  | nil => rfl
  | cons b bs ih =>
    rw [List.flatten_cons, List.length_append, ← ih]
    cases b with
    | nil => simp [firsts, rests, List.filterMap_cons]
    | cons x b =>
      simp only [firsts, rests, List.filterMap_cons, List.head?_cons, List.map_cons,
        List.tail_cons, List.flatten_cons, List.length_append, List.length_cons]
      omega

/-- The first items of the batches in their order, then the second ones, and so on until no
batch has any left. -/
def takeTurns (bs : List (List α)) : List α :=
  if firsts bs = [] then [] else firsts bs ++ takeTurns (rests bs)
termination_by bs.flatten.length
decreasing_by
  next h =>
    have hround := length_firsts_add_rests bs
    have hpos : 0 < (firsts bs).length := List.length_pos_iff.mpr h
    omega

/-- The first round takes the first items that were dealt. -/
theorem firsts_deal (w : Nat) (xs : List α) : firsts (deal w xs) = xs.take w := by
  have hhead (c : Nat) : (everyNth w (xs.drop c)).head? = xs[c]? := by
    rw [head?_everyNth, List.head?_drop]
  rw [firsts, deal, List.filterMap_map, ← flatMap_getElem?_range,
    List.filterMap_eq_flatMap_toList]
  simp [hhead]

/-- It leaves the batches as if only the others had been dealt. -/
theorem rests_deal (hw : 0 < w) (xs : List α) : rests (deal w xs) = deal w (xs.drop w) := by
  rw [rests, deal, deal, List.map_map]
  refine List.map_congr_left fun c _ => ?_
  rw [Function.comp_apply, tail_everyNth hw, List.drop_drop, List.drop_drop, Nat.add_comm]

/-- **Taking turns gives the items back in their order.** -/
theorem takeTurns_deal (hw : 0 < w) (xs : List α) : takeTurns (deal w xs) = xs := by
  -- By induction on the number of items, round by round.
  induction hn : xs.length using Nat.strongRecOn generalizing xs with
  | _ n ih =>
    rw [takeTurns, firsts_deal, rests_deal hw]
    by_cases hnil : xs = []
    · simp [hnil]
    · have hpos : 0 < xs.length := List.length_pos_iff.mpr hnil
      have hround : xs.take w ≠ [] := by
        rw [ne_eq, List.take_eq_nil_iff]
        exact fun h => h.elim (by omega) hnil
      have hless : (xs.drop w).length < n := by
        rw [List.length_drop]
        omega
      rw [if_neg hround, ih _ hless _ rfl, List.take_append_drop]

/-! ### The whole deal -/

/-- **Dealing in turn loses and doubles nothing.** Items that are put one after the other on
the batch whose turn it is make `w` batches; the batch of a channel has the item at its place,
the one a round later, and so on, in their order. The batches together are the items, but for
the order; two of them differ by one item at most; and the first item of each batch, then the
second of each, and so on, are the items in their order. -/
theorem dealt_in_turn (hw : 0 < w) (xs : List α) :
    dealEach w xs = deal w xs ∧ (deal w xs).length = w ∧
    (∀ c b, (deal w xs)[c]? = some b → ∀ k, b[k]? = xs[c + k * w]?) ∧
    (deal w xs).flatten.Perm xs ∧
    (∀ a ∈ deal w xs, ∀ b ∈ deal w xs, a.length ≤ b.length + 1) ∧
    takeTurns (deal w xs) = xs := by
  refine ⟨dealEach_eq_deal hw xs, length_deal w xs, fun c b hb => getElem?_of_deal hw hb,
    flatten_deal_perm hw xs, fun a ha b hb => ?_, takeTurns_deal hw xs⟩
  have hlong := (length_of_mem_deal hw ha).2
  have hshort := (length_of_mem_deal hw hb).1
  omega

/-- Seven items go to three channels, and two of five channels go empty where there are only
three items. -/
theorem dealt_in_turn_seven : 0 < 3 ∧ 0 < 5 ∧
    dealEach 3 [0, 1, 2, 3, 4, 5, 6] = [[0, 3, 6], [1, 4], [2, 5]] ∧
    takeTurns [[0, 3, 6], [1, 4], [2, 5]] = [0, 1, 2, 3, 4, 5, 6] ∧
    dealEach 5 ["a", "b", "c"] = [["a"], ["b"], ["c"], [], []] ∧
    takeTurns [["a"], ["b"], ["c"], [], []] = ["a", "b", "c"] := by
  have hseven : deal 3 [0, 1, 2, 3, 4, 5, 6] = [[0, 3, 6], [1, 4], [2, 5]] := by
    rw [← (dealt_in_turn (by decide) _).1]
    rfl
  have hthree : deal 5 ["a", "b", "c"] = [["a"], ["b"], ["c"], [], []] := by
    rw [← (dealt_in_turn (by decide) _).1]
    rfl
  refine ⟨by decide, by decide, rfl, ?_, rfl, ?_⟩
  · rw [← hseven]
    exact (dealt_in_turn (by decide) _).2.2.2.2.2
  · rw [← hthree]
    exact (dealt_in_turn (by decide) _).2.2.2.2.2

end JobParameters
