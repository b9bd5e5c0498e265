import Mathlib.Data.List.Sort
import Mathlib.Data.List.Forall2
import Mathlib.Order.Basic

/-!
# Intervals that tile a stretch

Half-open intervals in a row, each beginning where the one before it ends. A
point of the stretch is in one of them only, and it is the last one that begins
at or before the point. Lists with distinct keys are sorted by them in one way
only.
-/

namespace Crux.Tiling
open List

section
variable {K A : Type} [LinearOrder K] (first last : A → K)

/-- Intervals in a row from one point to another, none of them empty. -/
def Tiles : K → List A → K → Prop
  | a, [], b => a = b
  | a, x :: rest, b => first x = a ∧ a < last x ∧ Tiles (last x) rest b

/-- The interval has the point. -/
def covers (x : K) (e : A) : Bool := decide (first e ≤ x ∧ x < last e)

variable {first last} {a b : K} {l : List A}

theorem Tiles.le (tiles : Tiles first last a l b) : a ≤ b := by
  induction l generalizing a with
  | nil => exact le_of_eq tiles
  | cons x rest ih => exact tiles.2.1.le.trans (ih tiles.2.2)

theorem Tiles.first_ge (tiles : Tiles first last a l b) {e : A} (member : e ∈ l) : a ≤ first e := by
  induction l generalizing a with
  | nil => cases member
  | cons x rest ih =>
    rcases mem_cons.mp member with rfl | later
    · exact tiles.1.ge
    · exact tiles.2.1.le.trans (ih tiles.2.2 later)

theorem Tiles.last_le (tiles : Tiles first last a l b) {e : A} (member : e ∈ l) : last e ≤ b := by
  induction l generalizing a with
  | nil => cases member
  | cons x rest ih =>
    rcases mem_cons.mp member with rfl | later
    · exact tiles.2.2.le
    · exact ih tiles.2.2 later

theorem tiles_map {B : Type} {f : B → A} {l : List B} :
    Tiles first last a (l.map f) b ↔ Tiles (fun x => first (f x)) (fun x => last (f x)) a l b := by
  induction l generalizing a with
  | nil => rfl
  | cons x rest ih => exact and_congr_right fun _ => and_congr_right fun _ => ih

theorem Tiles.increasing (tiles : Tiles first last a l b) : l.Pairwise fun x y => first x < first y := by
  induction l generalizing a with
  | nil => exact .nil
  | cons x rest ih =>
    refine .cons (fun y later => ?_) (ih tiles.2.2)
    rw [tiles.1]
    exact tiles.2.1.trans_le (tiles.2.2.first_ge later)

/-- A point of the stretch is in one interval, the last one that begins at or before it. -/
theorem Tiles.locate {x : K} (tiles : Tiles first last a l b) (from_a : a ≤ x) (below_b : x < b) :
    ∃ e, l.filter (covers first last x) = [e] ∧ (l.takeWhile fun e => decide (first e ≤ x)).getLast? = some e := by
  induction l generalizing a with
  | nil => exact absurd ((tiles : a = b) ▸ from_a) below_b.not_ge
  | cons y rest ih =>
    obtain ⟨begins, some_point, later⟩ := tiles
    have started : first y ≤ x := begins.trans_le from_a
    by_cases inside : x < last y
    · refine ⟨y, ?_, ?_⟩
      · have none : rest.filter (covers first last x) = [] := by
          rw [filter_eq_nil_iff]
          intro e member has
          have has := of_decide_eq_true has
          exact absurd (inside.trans_le ((later.first_ge member).trans has.1)) (lt_irrefl x)
        have has : covers first last x y = true := decide_eq_true ⟨started, inside⟩
        rw [filter_cons, if_pos has, none]
      · have none : (rest.takeWhile fun e => decide (first e ≤ x)) = [] := by
          cases rest with
          | nil => rfl
          | cons z more =>
            have beyond : ¬ first z ≤ x := by
              rw [later.1]
              exact inside.not_ge
            rw [takeWhile_cons, if_neg (by simpa using beyond)]
        rw [takeWhile_cons, if_pos (decide_eq_true started), none]
        rfl
    · obtain ⟨e, only, last_one⟩ := ih later (not_lt.mp inside)
      refine ⟨e, ?_, ?_⟩
      · have outside : ¬ covers first last x y = true := fun has => inside (of_decide_eq_true has).2
        rw [filter_cons, if_neg outside, only]
      · rw [takeWhile_cons, if_pos (decide_eq_true started), getLast?_cons, last_one]
        rfl

theorem getElem?_takeWhile {B : Type} {p : B → Bool} {l : List B} {e : B} (last_one : (l.takeWhile p).getLast? = some e) :
    (l.takeWhile p).length ≠ 0 ∧ l[(l.takeWhile p).length - 1]? = some e := by
  have some_element : 0 < (l.takeWhile p).length := by
    rw [length_pos_iff]
    intro none
    rw [none] at last_one
    cases last_one
  refine ⟨some_element.ne', ?_⟩
  rw [getLast?_eq_getElem?] at last_one
  have whole : l.takeWhile p ++ l.dropWhile p = l := takeWhile_append_dropWhile
  rw [← last_one]
  conv_lhs => enter [1]; rw [← whole]
  exact getElem?_append_left (by omega)

/-- Intervals in order that touch each other tile the stretch between the first and the last of them. -/
theorem tiles_of_chain (some_interval : l ≠ []) (filled : ∀ e ∈ l, first e < last e)
    (touching : l.IsChain fun x y => last x = first y) (starts : l.head?.map first = some a) (ends : l.getLast?.map last = some b) :
    Tiles first last a l b := by
  induction l generalizing a with
  | nil => exact absurd rfl some_interval
  | cons x rest ih =>
    have begins : first x = a := Option.some.inj starts
    have here := filled x mem_cons_self
    refine ⟨begins, begins ▸ here, ?_⟩
    cases rest with
    | nil => exact Option.some.inj ends
    | cons y more =>
      rw [isChain_cons_cons] at touching
      refine ih (by simp) (fun e member => filled e (mem_cons_of_mem _ member)) touching.2 ?_ ?_
      · rw [touching.1]
        rfl
      · rw [← ends, getLast?_cons_cons]

theorem Tiles.chain (tiles : Tiles first last a l b) : l.IsChain fun x y => last x = first y := by
  induction l generalizing a with
  | nil => exact .nil
  | cons x rest ih =>
    cases rest with
    | nil => exact .singleton x
    | cons y more => exact isChain_cons_cons.mpr ⟨tiles.2.2.1.symm, ih tiles.2.2⟩

theorem Tiles.ends (tiles : Tiles first last a l b) (some_interval : l ≠ []) :
    l.head?.map first = some a ∧ l.getLast?.map last = some b := by
  induction l generalizing a with
  | nil => exact absurd rfl some_interval
  | cons x rest ih =>
    refine ⟨congrArg some tiles.1, ?_⟩
    cases rest with
    | nil => exact congrArg some tiles.2.2
    | cons y more =>
      rw [getLast?_cons_cons]
      exact (ih tiles.2.2 (by simp)).2

end

section
variable {K A : Type} [LinearOrder K]

/-- Sorted by a key, equal keys in the order they came. -/
def sortBy (key : A → K) (l : List A) : List A := l.insertionSort fun x y => key x ≤ key y

theorem sortBy_perm (key : A → K) (l : List A) : (sortBy key l).Perm l := perm_insertionSort _ l

theorem sortBy_sorted (key : A → K) (l : List A) : (sortBy key l).Pairwise fun x y => key x ≤ key y := by
  have : Std.Total fun x y : A => key x ≤ key y := ⟨fun x y => le_total (key x) (key y)⟩
  have : IsTrans A fun x y => key x ≤ key y := ⟨fun _ _ _ => le_trans⟩
  exact pairwise_insertionSort _ l

theorem sortBy_map {B : Type} (key : A → K) (f : B → A) (l : List B) :
    sortBy key (l.map f) = (sortBy (fun x => key (f x)) l).map f :=
  (map_insertionSort _ _ f l fun _ _ _ _ => Iff.rfl).symm

theorem Tiles.sorted {first last : A → K} {a b : K} {l : List A} (tiles : Tiles first last a l b) : sortBy first l = l :=
  (tiles.increasing.imp fun less => less.le).insertionSort_eq

theorem sortBy_eq_of_perm {key : A → K} {l l' : List A} (perm : l.Perm l') (distinct : (l.map key).Nodup) :
    sortBy key l = sortBy key l' := by
  have across : (sortBy key l).Perm (sortBy key l') := (sortBy_perm key l).trans (perm.trans (sortBy_perm key l').symm)
  refine List.Perm.eq_of_pairwise (fun x y here there up down => ?_) (sortBy_sorted key l) (sortBy_sorted key l') across
  have here := (sortBy_perm key l).mem_iff.mp here
  have there := perm.mem_iff.mpr ((sortBy_perm key l').mem_iff.mp there)
  exact inj_on_of_nodup_map distinct here there (le_antisymm up down)

end

end Crux.Tiling
