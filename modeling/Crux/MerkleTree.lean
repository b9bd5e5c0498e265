import Mathlib.Tactic
import Mathlib.Data.Nat.Log

/-!
Merkle trees over lists of any length: the root and the audit path by splitting at
the largest power of two, the same by pairing neighbours level by level, and the
check of a path that walks an index and the last index up together.
-/

namespace Crux.Merkle
open List

/-- The largest power of two below a number of at least two. -/
def splitPoint (n : Nat) : Nat := 2 ^ Nat.log 2 (n - 1)

theorem splitPoint_pos (n : Nat) : 0 < splitPoint n := Nat.pow_pos (by norm_num)

theorem splitPoint_lt (two : 2 ≤ n) : splitPoint n < n := by
  have below := Nat.pow_log_le_self 2 (show n - 1 ≠ 0 by omega)
  unfold splitPoint
  omega

theorem splitPoint_half (three : 3 ≤ n) : splitPoint n = 2 * splitPoint ((n + 1) / 2) := by
  have halved : (n - 1) / 2 = (n + 1) / 2 - 1 := by omega
  unfold splitPoint
  rw [Nat.log_of_one_lt_of_le (by norm_num) (by omega), halved, pow_succ, Nat.mul_comm]

section
variable {H : Type} (node : H → H → H) (empty : H)

/-- The root over leaf hashes. -/
def treeHash (leaves : List H) : H :=
  match leaves with
  | [] => empty
  | [leaf] => leaf
  | a :: b :: rest =>
    node (treeHash ((a :: b :: rest).take (splitPoint (rest.length + 2))))
      (treeHash ((a :: b :: rest).drop (splitPoint (rest.length + 2))))
termination_by leaves.length
decreasing_by
  all_goals
    have below := @splitPoint_lt (rest.length + 2) (by omega)
    have positive := splitPoint_pos (rest.length + 2)
    simp only [length_take, length_drop, length_cons]
    omega

/-- The hashes beside the way from a leaf to the root, the lowest first. -/
def auditPath (index : Nat) (leaves : List H) : List H :=
  if _ : 2 ≤ leaves.length then
    if index < splitPoint leaves.length then
      auditPath index (leaves.take (splitPoint leaves.length)) ++ [treeHash node empty (leaves.drop (splitPoint leaves.length))]
    else
      auditPath (index - splitPoint leaves.length) (leaves.drop (splitPoint leaves.length)) ++
        [treeHash node empty (leaves.take (splitPoint leaves.length))]
  else []
termination_by leaves.length
decreasing_by
  all_goals
    have below := @splitPoint_lt leaves.length (by assumption)
    have positive := splitPoint_pos leaves.length
    simp only [length_take, length_drop]
    omega

variable {leaves : List H}

theorem treeHash_split (two : 2 ≤ leaves.length) : treeHash node empty leaves =
      node (treeHash node empty (leaves.take (splitPoint leaves.length)))
        (treeHash node empty (leaves.drop (splitPoint leaves.length))) := by
  match leaves, two with
  | a :: b :: rest, _ =>
    rw [treeHash]
    rfl

theorem auditPath_split (index : Nat) (two : 2 ≤ leaves.length) : auditPath node empty index leaves =
      if index < splitPoint leaves.length then auditPath node empty index (leaves.take (splitPoint leaves.length)) ++
          [treeHash node empty (leaves.drop (splitPoint leaves.length))] else
        auditPath node empty (index - splitPoint leaves.length) (leaves.drop (splitPoint leaves.length)) ++
          [treeHash node empty (leaves.take (splitPoint leaves.length))] := by
  rw [auditPath, dif_pos two]

/-- The next level: neighbours are hashed together, a last one without neighbour stays. -/
def pairUp : List H → List H
  | a :: b :: rest => node a b :: pairUp rest
  | rest => rest

/-- The place beside a place. -/
def sibling (index : Nat) : Nat := if index % 2 = 1 then index - 1 else index + 1

section
variable (leaves : List H)

@[simp] theorem length_pairUp : (pairUp node leaves).length = (leaves.length + 1) / 2 := by
  fun_induction pairUp node leaves with
  | case1 a b rest ih =>
    simp
    omega
  | case2 rest short =>
    match rest, short with
    | [], _ => simp
    | [a], _ => simp
    | a :: b :: rest, short => exact absurd rfl (short a b rest)

theorem take_pairUp (k : Nat) : pairUp node (leaves.take (2 * k)) = (pairUp node leaves).take k := by
  induction k generalizing leaves with
  | zero => simp [pairUp]
  | succ k ih =>
    match leaves with
    | [] => simp
    | [a] => simp [pairUp, Nat.mul_succ]
    | a :: b :: rest =>
      rw [Nat.mul_succ, take_succ_cons, take_succ_cons, pairUp, pairUp, take_succ_cons, ih]

theorem drop_pairUp (k : Nat) : pairUp node (leaves.drop (2 * k)) = (pairUp node leaves).drop k := by
  induction k generalizing leaves with
  | zero => simp
  | succ k ih =>
    match leaves with
    | [] => simp [pairUp]
    | [a] => simp [pairUp, Nat.mul_succ]
    | a :: b :: rest =>
      rw [Nat.mul_succ, drop_succ_cons, drop_succ_cons, pairUp, drop_succ_cons, ih]

theorem getElem?_pairUp (k : Nat) :
    (pairUp node leaves)[k]? = leaves[2 * k]?.map fun a => (leaves[2 * k + 1]?.map (node a)).getD a := by
  induction k generalizing leaves with
  | zero =>
    match leaves with
    | [] => rfl
    | [a] => rfl
    | a :: b :: rest => rfl
  | succ k ih =>
    match leaves with
    | [] => rfl
    | [a] => simp
    | a :: b :: rest =>
      rw [pairUp, List.getElem?_cons_succ, ih]
      simp [Nat.mul_succ]

theorem treeHash_pairUp : treeHash node empty (pairUp node leaves) = treeHash node empty leaves := by
  induction size : leaves.length using Nat.strong_induction_on generalizing leaves with
  | _ n ih =>
    match leaves, size with
    | [], _ => rfl
    | [a], _ => rfl
    | [a, b], _ =>
      have one : splitPoint 2 = 1 := by decide
      simp [pairUp, treeHash, one]
    | a :: b :: c :: rest, size =>
      generalize whole : a :: b :: c :: rest = leaves at size
      have three : 3 ≤ leaves.length := by simp [← whole]
      have below := @splitPoint_lt leaves.length (by omega)
      have positive := splitPoint_pos ((leaves.length + 1) / 2)
      have two : 2 ≤ leaves.length := by omega
      have two' : 2 ≤ (pairUp node leaves).length := by
        rw [length_pairUp]
        omega
      rw [treeHash_split node empty two', treeHash_split node empty two, length_pairUp, splitPoint_half three,
        ← take_pairUp, ← drop_pairUp]
      rw [splitPoint_half three] at below
      rw [ih _ _ (leaves.take _) rfl, ih _ _ (leaves.drop _) rfl]
      · rw [length_drop]
        omega
      · rw [length_take]
        omega

end

/-- A path begins with the neighbour, if there is one, and goes on with the path of the next level. -/
theorem auditPath_pairUp (inside : index < leaves.length) : auditPath node empty index leaves =
      leaves[sibling index]?.toList ++ auditPath node empty (index / 2) (pairUp node leaves) := by
  induction size : leaves.length using Nat.strong_induction_on generalizing leaves index with
  | _ n ih =>
    match leaves, size with
    | [], _ => cases inside
    | [a], _ =>
      have first : index = 0 := by simpa using inside
      subst first
      simp [auditPath, sibling]
    | [a, b], _ =>
      have one : splitPoint 2 = 1 := by decide
      match index, inside with
      | 0, _ =>
        rw [auditPath]
        simp [one, auditPath, pairUp, sibling, treeHash]
      | 1, _ =>
        rw [auditPath]
        simp [one, auditPath, sibling, treeHash]
    | a :: b :: c :: rest, size =>
      generalize whole : a :: b :: c :: rest = leaves at size inside
      have three : 3 ≤ leaves.length := by simp [← whole]
      have half := splitPoint_half three
      have below := @splitPoint_lt leaves.length (by omega)
      have positive := splitPoint_pos ((leaves.length + 1) / 2)
      have two : 2 ≤ leaves.length := by omega
      have two' : 2 ≤ (pairUp node leaves).length := by
        rw [length_pairUp]
        omega
      rw [auditPath_split node empty _ two, auditPath_split node empty _ two', length_pairUp, ← take_pairUp,
        ← drop_pairUp, treeHash_pairUp, treeHash_pairUp, ← half]
      by_cases left : index < splitPoint leaves.length
      · have left' : index / 2 < splitPoint ((leaves.length + 1) / 2) := by omega
        have beside : sibling index < splitPoint leaves.length := by
          unfold sibling
          split_ifs <;> omega
        have length : (leaves.take (splitPoint leaves.length)).length = splitPoint leaves.length := by
          rw [length_take]
          omega
        rw [if_pos left, if_pos left', ih _ (by omega) (by omega) length, List.getElem?_take_of_lt beside, append_assoc]
      · have right' : ¬ index / 2 < splitPoint ((leaves.length + 1) / 2) := by omega
        have beside : splitPoint leaves.length + sibling (index - splitPoint leaves.length) = sibling index := by
          unfold sibling
          split_ifs <;> omega
        have halved : (index - splitPoint leaves.length) / 2 = index / 2 - splitPoint ((leaves.length + 1) / 2) := by omega
        have length : (leaves.drop (splitPoint leaves.length)).length = leaves.length - splitPoint leaves.length :=
          length_drop
        rw [if_neg left, if_neg right', ih _ (by omega) (by omega) length, List.getElem?_drop, beside, halved,
          append_assoc]

/-- Both indexes are halved while the first is even and not zero. -/
def shiftEven : Nat → Nat → Nat → Nat × Nat
  | 0, fn_index, sn => (fn_index, sn)
  | fuel + 1, fn_index, sn =>
    if fn_index ≠ 0 ∧ fn_index % 2 = 0 then shiftEven fuel (fn_index / 2) (sn / 2) else (fn_index, sn)

/-- The root a path leads to from a leaf; `none` when the path has not the length it must have. -/
def walk : Nat → Nat → H → List H → Option H
  | _, sn, computed, [] => if sn = 0 then some computed else none
  | fn_index, sn, computed, beside :: path =>
    if sn = 0 then none
    else if fn_index % 2 = 1 ∨ fn_index = sn then
      walk ((shiftEven fn_index fn_index sn).1 / 2) ((shiftEven fn_index fn_index sn).2 / 2) (node beside computed) path
    else walk (fn_index / 2) (sn / 2) (node computed beside) path

/-- The pairs that are hashed on the way. -/
def walkPairs : Nat → Nat → H → List H → List (H × H)
  | _, _, _, [] => []
  | fn_index, sn, computed, beside :: path =>
    if sn = 0 then []
    else if fn_index % 2 = 1 ∨ fn_index = sn then
      (beside, computed) ::
        walkPairs ((shiftEven fn_index fn_index sn).1 / 2) ((shiftEven fn_index fn_index sn).2 / 2) (node beside computed) path
    else (computed, beside) :: walkPairs (fn_index / 2) (sn / 2) (node computed beside) path

variable {fn_index : Nat}

theorem shiftEven_fuel (enough : fn_index ≤ fuel) (sn : Nat) :
    shiftEven fuel fn_index sn = shiftEven fn_index fn_index sn := by
  induction fuel using Nat.strong_induction_on generalizing fn_index sn with
  | _ fuel ih =>
    rcases Nat.eq_zero_or_pos fn_index with rfl | positive
    · cases fuel <;> simp [shiftEven]
    · obtain ⟨fuel, rfl⟩ : ∃ k, fuel = k + 1 := ⟨fuel - 1, by omega⟩
      obtain ⟨fewer, same⟩ : ∃ k, fn_index = k + 1 := ⟨fn_index - 1, by omega⟩
      have unfolded : shiftEven fn_index fn_index sn =
          if fn_index ≠ 0 ∧ fn_index % 2 = 0 then shiftEven fewer (fn_index / 2) (sn / 2) else (fn_index, sn) := by
        conv_lhs => rw [same]
        rw [shiftEven, ← same]
      rw [unfolded, shiftEven]
      split_ifs with even
      · rw [ih fuel (by omega) (by omega), ih fewer (by omega) (by omega)]
      · rfl

theorem shiftEven_odd (odd : fn_index % 2 = 1) (fuel sn : Nat) : shiftEven fuel fn_index sn = (fn_index, sn) := by
  cases fuel with
  | zero => rfl
  | succ fuel => rw [shiftEven, if_neg (by omega)]

theorem shiftEven_even (positive : fn_index ≠ 0) (even : fn_index % 2 = 0) (sn : Nat) :
    shiftEven fn_index fn_index sn = shiftEven (fn_index / 2) (fn_index / 2) (sn / 2) := by
  rw [← shiftEven_fuel (Nat.le_succ fn_index), shiftEven, if_pos ⟨positive, even⟩, shiftEven_fuel (by omega)]

theorem walk_last (positive : last ≠ 0) (even : last % 2 = 0) (computed : H) (path : List H) :
    walk node last last computed path = walk node (last / 2) (last / 2) computed path ∧
      walkPairs node last last computed path = walkPairs node (last / 2) (last / 2) computed path := by
  have positive' : last / 2 ≠ 0 := by omega
  cases path with
  | nil => simp [walk, walkPairs, positive, positive']
  | cons beside path => simp [walk, walkPairs, positive, positive', shiftEven_even positive even]

theorem walk_odd (later : sn ≠ 0) (odd : fn_index % 2 = 1) (computed beside : H) (path : List H) :
    walk node fn_index sn computed (beside :: path) = walk node (fn_index / 2) (sn / 2) (node beside computed) path ∧
      walkPairs node fn_index sn computed (beside :: path) =
        (beside, computed) :: walkPairs node (fn_index / 2) (sn / 2) (node beside computed) path := by
  simp [walk, walkPairs, later, odd, shiftEven_odd odd]

theorem walk_even (even : fn_index % 2 = 0) (before : fn_index < sn) (computed beside : H) (path : List H) :
    walk node fn_index sn computed (beside :: path) = walk node (fn_index / 2) (sn / 2) (node computed beside) path ∧
      walkPairs node fn_index sn computed (beside :: path) =
        (computed, beside) :: walkPairs node (fn_index / 2) (sn / 2) (node computed beside) path := by
  have later : sn ≠ 0 := by omega
  have here : ¬ (fn_index % 2 = 1 ∨ fn_index = sn) := by omega
  simp [walk, walkPairs, later, here]

/-- Two walks hash no two pairs to one hash. -/
def Apart (pairs others : List (H × H)) : Prop :=
  ∀ pair ∈ pairs, ∀ other ∈ others, node pair.1 pair.2 = node other.1 other.2 → pair = other

theorem Apart.head (apart : Apart node ((a, b) :: pairs) ((c, d) :: others)) :
    node a b = node c d ↔ a = c ∧ b = d := by
  constructor
  · intro same
    exact Prod.mk.inj (apart (a, b) mem_cons_self (c, d) mem_cons_self same)
  · rintro ⟨rfl, rfl⟩
    rfl

theorem Apart.tail (apart : Apart node (pair :: pairs) (other :: others)) :
    Apart node pairs others :=
  fun p here o there => apart p (mem_cons_of_mem _ here) o (mem_cons_of_mem _ there)

/-- A path leads from a hash to the root exactly when the hash is the leaf's and the path is its audit path. -/
theorem walk_eq_root_iff (here : leaves[index]? = some leaf) (computed : H) (path : List H)
    (apart : Apart node (walkPairs node index (leaves.length - 1) computed path)
      (walkPairs node index (leaves.length - 1) leaf (auditPath node empty index leaves))) :
    walk node index (leaves.length - 1) computed path = some (treeHash node empty leaves) ↔
      computed = leaf ∧ path = auditPath node empty index leaves := by
  induction size : leaves.length using Nat.strong_induction_on generalizing leaves index leaf computed path with
  | _ n ih =>
    have inside : index < leaves.length := (List.getElem?_eq_some_iff.mp here).1
    subst size
    by_cases single : leaves.length = 1
    · obtain ⟨only, rfl⟩ := length_eq_one_iff.mp single
      have first : index = 0 := by simpa using inside
      subst first
      cases here
      cases path with
      | nil => simp [walk, treeHash, auditPath]
      | cons beside path => simp [walk, auditPath]
    · -- one level up
      obtain ⟨sn, same⟩ : ∃ sn, leaves.length - 1 = sn := ⟨_, rfl⟩
      have last : (pairUp node leaves).length - 1 = sn / 2 := by
        rw [length_pairUp]
        omega
      have fewer : (pairUp node leaves).length < leaves.length := by
        rw [length_pairUp]
        omega
      have up := fun {above : H} (there : (pairUp node leaves)[index / 2]? = some above) (computed : H) (path : List H) =>
        ih _ fewer there computed path
      rw [last] at up
      rw [same, auditPath_pairUp node empty inside] at apart
      rw [same, ← treeHash_pairUp, auditPath_pairUp node empty inside]
      have higher := getElem?_pairUp node leaves (index / 2)
      rcases Nat.mod_two_eq_zero_or_one index with even | odd
      · have twice : 2 * (index / 2) = index := by omega
        have beside : sibling index = index + 1 := if_neg (by omega)
        rw [twice, here, ← beside] at higher
        by_cases ended : index = sn
        · have alone : leaves[sibling index]? = none := by
            rw [beside, List.getElem?_eq_none_iff]
            omega
          rw [alone] at higher apart ⊢
          rw [← ended] at up apart ⊢
          rw [Option.toList_none, nil_append] at apart ⊢
          rw [(walk_last node (by omega) even _ _).2, (walk_last node (by omega) even _ _).2] at apart
          rw [(walk_last node (by omega) even _ _).1]
          exact up higher _ _ apart rfl
        · have before : index < sn := by omega
          have exists_right : sibling index < leaves.length := by omega
          obtain ⟨right, found⟩ : ∃ right, leaves[sibling index]? = some right := ⟨_, List.getElem?_eq_getElem exists_right⟩
          rw [found] at higher apart ⊢
          change (pairUp node leaves)[index / 2]? = some (node leaf right) at higher
          rw [Option.toList_some, singleton_append] at apart ⊢
          cases path with
          | nil => simp [walk, show sn ≠ 0 by omega]
          | cons p path =>
            rw [(walk_even node even before _ _ _).2, (walk_even node even before _ _ _).2] at apart
            rw [(walk_even node even before _ _ _).1, up higher _ _ apart.tail rfl, apart.head, List.cons.injEq, and_assoc]
      · have twice : 2 * (index / 2) + 1 = index := by omega
        have beside : sibling index = 2 * (index / 2) := by
          rw [sibling, if_pos odd]
          omega
        have exists_left : sibling index < leaves.length := by omega
        obtain ⟨left, found⟩ : ∃ left, leaves[sibling index]? = some left := ⟨_, List.getElem?_eq_getElem exists_left⟩
        rw [twice, here, ← beside, found] at higher
        change (pairUp node leaves)[index / 2]? = some (node left leaf) at higher
        rw [found] at apart ⊢
        rw [Option.toList_some, singleton_append] at apart ⊢
        have later : sn ≠ 0 := by omega
        cases path with
        | nil => simp [walk, later]
        | cons p path =>
          rw [(walk_odd node later odd _ _ _).2, (walk_odd node later odd _ _ _).2] at apart
          rw [(walk_odd node later odd _ _ _).1, up higher _ _ apart.tail rfl, apart.head, List.cons.injEq, and_assoc,
            and_left_comm]

end

end Crux.Merkle
