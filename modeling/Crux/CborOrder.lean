import Crux.CborCanonical

/-!
# CBOR trees up to the order of map pairs

Two trees that differ only in the order of the pairs of their maps, at any
depth, have one encoding, and trees with one encoding differ in nothing else.
The tree the decoder returns has its pairs in ascending key order.
-/

namespace Crux.Session
open Crux.Bytes List

/-- The trees differ at most in the order of the pairs of their maps, at any depth. -/
inductive Reordered : CborValue → CborValue → Prop
  | refl (v : CborValue) : Reordered v v
  | trans {u v w : CborValue} : Reordered u v → Reordered v w → Reordered u w
  | swap (front back : List (String × CborValue)) (p q : String × CborValue) :
    Reordered (.Map (front ++ p :: q :: back)) (.Map (front ++ q :: p :: back))
  | item (front back : List CborValue) {v w : CborValue} :
    Reordered v w → Reordered (.Array (front ++ v :: back)) (.Array (front ++ w :: back))
  | value (front back : List (String × CborValue)) (k : String) {v w : CborValue} :
    Reordered v w → Reordered (.Map (front ++ (k, v) :: back)) (.Map (front ++ (k, w) :: back))

variable {v w : CborValue}

section
variable (same : Reordered v w)
include same

theorem Reordered.symm : Reordered w v := by
  induction same with
  | refl v => exact .refl v
  | trans _ _ first second => exact second.trans first
  | swap front back p q => exact .swap front back q p
  | item front back _ ih => exact .item front back ih
  | value front back k _ ih => exact .value front back k ih

theorem Reordered.lengthsFit_eq : lengthsFit v = lengthsFit w := by
  induction same with
  | refl v => rfl
  | trans _ _ first second => rw [first, second]
  | swap front back p q => simp [lengthsFit, Bool.and_left_comm]
  | item front back _ ih => simp [lengthsFit]
  | value front back k _ ih => simp [lengthsFit]

theorem Reordered.keysDistinct_eq : keysDistinct v = keysDistinct w := by
  induction same with
  | refl v => rfl
  | trans _ _ first second => rw [first, second]
  | swap front back p q =>
    have moved : (front ++ p :: q :: back).Perm (front ++ q :: p :: back) := (List.Perm.swap q p back).append_left front
    simp only [keysDistinct, (moved.map Prod.fst).nodup_iff]
  | item front back _ ih => rfl
  | value front back k _ ih => simp [keysDistinct]

/-- A test that does not look at the order of pairs holds throughout both trees or neither. -/
theorem Reordered.every (blind : ∀ v w, Reordered v w → test v = test w) :
    everyValue test v = everyValue test w := by
  induction same with
  | refl v => rfl
  | trans _ _ first second => rw [first, second]
  | swap front back p q =>
    rw [everyValue, everyValue, blind _ _ (.swap front back p q), everyPair_eq, everyPair_eq]
    simp [Bool.and_left_comm]
  | item front back inner ih =>
    rw [everyValue, everyValue, blind _ _ (.item front back inner), everyItem_eq, everyItem_eq]
    simp [ih]
  | value front back k inner ih =>
    rw [everyValue, everyValue, blind _ _ (.value front back k inner), everyPair_eq, everyPair_eq]
    simp [ih]

theorem Reordered.fits (fits : Fits v) : Fits w := by
  rw [Fits, ← same.every fun _ _ => Reordered.lengthsFit_eq]
  exact fits

theorem Reordered.distinct (distinct : DistinctKeys v) : DistinctKeys w := by
  rw [DistinctKeys, ← same.every fun _ _ => Reordered.keysDistinct_eq]
  exact distinct

end

theorem inKeyOrder_unique (moved : ps.Perm qs) (distinct : (ps.map Prod.fst).Nodup)
    (fits : ∀ p ∈ ps, (as_bytes p.1).length < 2 ^ 64) : inKeyOrder ps = inKeyOrder qs := by
  have perm : (inKeyOrder ps).Perm (inKeyOrder qs) :=
    (inKeyOrder_perm ps).trans (moved.trans (inKeyOrder_perm qs).symm)
  refine perm.eq_of_pairwise ?_ (inKeyOrder_ascending distinct fits) ?_
  · intro p q _ _ less more
    exact absurd (List.lt_trans less more) (List.lt_irrefl _)
  · exact inKeyOrder_ascending ((moved.map Prod.fst).nodup_iff.mp distinct) fun q member =>
      fits q (moved.mem_iff.mpr member)

theorem Reordered.write_eq (same : Reordered v w) (fits : Fits v) (distinct : DistinctKeys v) :
    write_value v = write_value w := by
  induction same with
  | refl v => rfl
  | trans one _ first second =>
    rw [first fits distinct, second (one.fits fits) (one.distinct distinct)]
  | swap front back p q =>
    have moved : (front ++ p :: q :: back).Perm (front ++ q :: p :: back) := (List.Perm.swap q p back).append_left front
    have keys := (everyValue_map.mp fits).1
    have nodup := (everyValue_map.mp distinct).1
    simp only [lengthsFit, Bool.and_eq_true, all_eq_true, decide_eq_true_eq] at keys
    simp only [keysDistinct, decide_eq_true_eq] at nodup
    rw [write_value_map, write_value_map, inKeyOrder_unique moved nodup keys.2, moved.length_eq]
  | @item front back v w _ ih =>
    have here := ih ((everyValue_array.mp fits).2 v (by simp)) ((everyValue_array.mp distinct).2 v (by simp))
    simp [write_value_array, here]
  | @value front back k v w _ ih =>
    have here := ih ((everyValue_map.mp fits).2 (k, v) (by simp)) ((everyValue_map.mp distinct).2 (k, v) (by simp))
    rw [write_value, write_value, write_pairs_eq, write_pairs_eq]
    simp [here]

theorem Reordered.items (each : List.Forall₂ Reordered xs ys) (front : List CborValue) :
    Reordered (.Array (front ++ xs)) (.Array (front ++ ys)) := by
  induction each generalizing front with
  | nil => exact .refl _
  | @cons x y xs ys here _ ih =>
    have later := ih (front ++ [y])
    rw [append_assoc, append_assoc] at later
    exact (Reordered.item front xs here).trans later

theorem Reordered.values {change : CborValue → CborValue} (each : ∀ p ∈ xs, Reordered p.2 (change p.2))
    (front : List (String × CborValue)) :
    Reordered (.Map (front ++ xs)) (.Map (front ++ xs.map fun p => (p.1, change p.2))) := by
  induction xs generalizing front with
  | nil => exact .refl _
  | cons p xs ih =>
    have later := ih (fun q member => each q (by simp [member])) (front ++ [(p.1, change p.2)])
    rw [append_assoc, append_assoc] at later
    exact (Reordered.value front xs p.1 (each p (by simp))).trans later

theorem Reordered.perm (moved : ps.Perm qs) (front : List (String × CborValue)) :
    Reordered (.Map (front ++ ps)) (.Map (front ++ qs)) := by
  induction moved generalizing front with
  | nil => exact .refl _
  | cons p _ ih =>
    have later := ih (front ++ [p])
    rwa [append_assoc, append_assoc] at later
  | swap p q rest => exact .swap front rest q p
  | trans _ _ first second => exact (first front).trans (second front)

theorem reordered_canon (v : CborValue) : Reordered v (canon v) := by
  induction v with
  | array items ih =>
    rw [canon_array]
    refine Reordered.items ?_ []
    rw [List.forall₂_map_right_iff, List.forall₂_same]
    exact ih
  | map pairs ih =>
    rw [canon_map]
    have sorted := Reordered.perm (inKeyOrder_perm pairs).symm []
    refine sorted.trans (Reordered.values ?_ [])
    intro p member
    exact ih p ((inKeyOrder_perm pairs).mem_iff.mp member)
  | _ => exact .refl _

/-- Every map of the tree has its keys in ascending order. -/
def keysAscend : CborValue → Bool
  | .Map pairs => decide (pairs.Pairwise fun p q => write_text p.1 < write_text q.1)
  | _ => true

abbrev InKeyOrder (v : CborValue) : Prop := everyValue keysAscend v = true

theorem canon_inKeyOrder (fits : Fits v) (distinct : DistinctKeys v) : InKeyOrder (canon v) := by
  induction v with
  | array items ih =>
    rw [canon_array]
    refine everyValue_array.mpr ⟨rfl, ?_⟩
    intro w member
    obtain ⟨v, inside, rfl⟩ := mem_map.mp member
    exact ih v inside ((everyValue_array.mp fits).2 v inside) ((everyValue_array.mp distinct).2 v inside)
  | map pairs ih =>
    obtain ⟨keys, fits⟩ := everyValue_map.mp fits
    obtain ⟨nodup, distinct⟩ := everyValue_map.mp distinct
    simp only [lengthsFit, Bool.and_eq_true, all_eq_true, decide_eq_true_eq] at keys
    simp [keysDistinct] at nodup
    rw [canon_map]
    refine everyValue_map.mpr ⟨?_, ?_⟩
    · simp [keysAscend]
      exact pairwise_map.mpr (inKeyOrder_ascending nodup keys.2)
    · intro q member
      obtain ⟨p, inside, rfl⟩ := mem_map.mp member
      have inside := (inKeyOrder_perm pairs).mem_iff.mp inside
      exact ih p inside (fits p inside) (distinct p inside)
  | _ => rfl

theorem canon_eq_of_encode (fits : Fits v) (fits' : Fits w) (same : v.encode = w.encode) : canon v = canon w := by
  have one := decode_encode fits
  rw [same, decode_encode fits'] at one
  exact (Except.ok.inj one).symm

theorem encode_eq_iff_reordered (fits : Fits v) (fits' : Fits w) (distinct : DistinctKeys v) :
    v.encode = w.encode ↔ Reordered v w := by
  constructor
  · intro same
    have forth := reordered_canon v
    rw [canon_eq_of_encode fits fits' same] at forth
    exact forth.trans (reordered_canon w).symm
  · intro same
    exact same.write_eq fits distinct

section
variable {ps qs : List (String × CborValue)} (same : canon (.Map ps) = canon (.Map qs))
include same

theorem canonPairs_perm : (ps.map canonPair).Perm (qs.map canonPair) := by
  rw [canon_map, canon_map] at same
  have sorted := ((inKeyOrder_perm ps).map canonPair).symm
  rw [CborValue.Map.inj same] at sorted
  exact sorted.trans ((inKeyOrder_perm qs).map canonPair)

theorem canon_keys (k : String) : k ∈ ps.map Prod.fst ↔ k ∈ qs.map Prod.fst := by
  have keys : ∀ pairs : List (String × CborValue), (pairs.map canonPair).map Prod.fst = pairs.map Prod.fst := by
    intro pairs
    rw [map_map]
    rfl
  rw [← keys ps, ← keys qs]
  exact ((canonPairs_perm same).map Prod.fst).mem_iff

theorem canon_field (distinct : (qs.map Prod.fst).Nodup) (here : (k, v) ∈ ps) (there : (k, w) ∈ qs) : canon v = canon w := by
  have moved : (k, canon v) ∈ qs.map canonPair := (canonPairs_perm same).mem_iff.mp (mem_map_of_mem here)
  obtain ⟨⟨k', u⟩, member, built⟩ := mem_map.mp moved
  obtain ⟨rfl, same⟩ := Prod.mk.inj built
  have one := inj_on_of_nodup_map distinct member there rfl
  rw [← same, (Prod.mk.inj one).2]

/-- Maps with the same keys in the same places agree in canonical order only if they agree place by place. -/
theorem canon_places (keys : ps.map Prod.fst = qs.map Prod.fst) (distinct : (qs.map Prod.fst).Nodup) :
    ps.map canonPair = qs.map canonPair := by
  have all : ∀ p ∈ ps, ∀ q ∈ qs, p.1 = q.1 → canonPair p = canonPair q := by
    rintro ⟨k, v⟩ here ⟨k', w⟩ there rfl
    exact Prod.ext rfl (canon_field same distinct here there)
  clear same
  induction ps generalizing qs with
  | nil =>
    have empty : qs = [] := by simpa using keys.symm
    rw [empty]
  | cons p ps ih =>
    cases qs with
    | nil => cases keys
    | cons q qs =>
      obtain ⟨first, others⟩ := List.cons.inj keys
      have later := ih others (nodup_cons.mp distinct).2 fun p here q there =>
        all p (by simp [here]) q (by simp [there])
      rw [map_cons, map_cons, all p (by simp) q (by simp) first, later]

end

/-- An encoder that tells its arguments apart, up to the order of pairs. -/
def Tells {α : Type} (to_cbor : α → CborValue) : Prop := ∀ a b, canon (to_cbor a) = canon (to_cbor b) → a = b

theorem Tells.iff {f : α → CborValue} (tells : Tells f) : canon (f a) = canon (f b) ↔ a = b :=
  ⟨tells a b, fun same => by rw [same]⟩

theorem tells_text : Tells CborValue.Text := by
  intro a b same
  exact CborValue.Text.inj same

theorem tells_uint : Tells CborValue.Uint := by
  intro a b same
  exact CborValue.Uint.inj same

theorem tells_bytes : Tells CborValue.Bytes := by
  intro a b same
  exact CborValue.Bytes.inj same

theorem tells_bool : Tells CborValue.Bool := by
  intro a b same
  exact CborValue.Bool.inj same

theorem Tells.comp (tells : Tells to_cbor) (injective : Function.Injective f) : Tells fun a => to_cbor (f a) := by
  intro a b same
  exact injective (tells _ _ same)

theorem Tells.array {α : Type} {to_cbor : α → CborValue} (tells : Tells to_cbor) :
    Tells fun items : List α => .Array (items.map to_cbor) := by
  intro a b same
  rw [canon_array, canon_array, map_map, map_map] at same
  exact map_injective_iff.mpr (fun x y => tells x y) (CborValue.Array.inj same)

end Crux.Session
