import Mathlib.Tactic
import Mathlib.Data.List.Forall2
import Mathlib.Data.List.Sort

/-!
# Lists that run in parallel, and sorted lists

Two lists related element by element, and the parts of a sorted list that a
search by a key finds.
-/

namespace Crux.Lists
open List

section Related
variable {α β γ δ : Type} {R : α → β → Prop} {S : α → γ → Prop} {xs : List α} {ys : List β}

end Related

section Sorted
variable {α : Type} {le : α → α → Prop} {l : List α} {p : α → Bool}

end Sorted

section Keyed
variable {α κ : Type} [DecidableEq κ] {key : α → κ} {l : List α} {a : α}

theorem find?_of_mem (unique : (l.map key).Nodup) (here : a ∈ l) : l.find? (fun x => decide (key x = key a)) = some a := by
  cases found : l.find? (fun x => decide (key x = key a)) with
  | none =>
    have missed := find?_eq_none.mp found a here
    simp at missed
  | some b =>
    have same : key b = key a := by simpa using find?_some found
    rw [inj_on_of_nodup_map unique (mem_of_find?_eq_some found) here same]

theorem sum_change (unique : (l.map key).Nodup) (here : a ∈ l) (f : α → Nat) (change : α → α) :
    ((l.map fun x => if key x = key a then change x else x).map f).sum + f a = (l.map f).sum + f (change a) := by
  induction l with
  | nil => cases here
  | cons b rest ih =>
    rw [map_cons, nodup_cons] at unique
    rcases mem_cons.mp here with rfl | later
    · have others : (rest.map fun x => if key x = key a then change x else x) = rest := by
        rw [map_congr_left (g := id), map_id]
        intro x member
        have other : key x ≠ key a := fun same => unique.1 (same ▸ mem_map_of_mem member)
        exact if_neg other
      simp [others]
      omega
    · have other : key b ≠ key a := fun same => unique.1 (same ▸ mem_map_of_mem later)
      have tail := ih unique.2 later
      simp only [map_cons, sum_cons, if_neg other]
      omega

end Keyed

end Crux.Lists
