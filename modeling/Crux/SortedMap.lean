import Mathlib.Order.Defs.LinearOrder
import Mathlib.Data.List.Basic
import Mathlib.Data.List.Nodup
import Mathlib.Tactic

/-!
# Maps in the order of their keys

A map as the list of its pairs, strictly ascending by key, so that a map with the same
values at all keys is the same map and is walked over in the same order.
-/

namespace Crux
open List

/-- Pairs in strictly ascending order of their keys. -/
structure SortedMap (K V : Type) [LinearOrder K] where
  entries : List (K × V)
  sorted : entries.Pairwise fun a b => a.1 < b.1

namespace SortedMap
variable {K V : Type} [LinearOrder K]

instance [DecidableEq V] : DecidableEq (SortedMap K V) := fun a b =>
  decidable_of_iff (a.entries = b.entries) ⟨fun h => by cases a; cases b; cases h; rfl, fun h => h ▸ rfl⟩

/-- The value at a key of a list of pairs. -/
def lookup (k : K) : List (K × V) → Option V
  | [] => none
  | e :: rest => if e.1 = k then some e.2 else lookup k rest

def empty : SortedMap K V := ⟨[], .nil⟩

section
variable (m : SortedMap K V)

def get (k : K) : Option V := lookup k m.entries

def contains (k : K) : Bool := (m.get k).isSome

def keys : List K := m.entries.map Prod.fst

def values : List V := m.entries.map Prod.snd

def size : Nat := m.entries.length

end

variable {k : K} {v : V} {l : List (K × V)}

theorem mem_of_lookup (found : lookup k l = some v) : (k, v) ∈ l := by
  induction l with
  | nil => cases found
  | cons e rest ih =>
    rw [lookup] at found
    split_ifs at found with same
    · cases found
      subst same
      exact mem_cons_self
    · exact mem_cons_of_mem _ (ih found)

theorem lookup_of_mem (sorted : l.Pairwise fun a b => a.1 < b.1) (member : (k, v) ∈ l) : lookup k l = some v := by
  induction l with
  | nil => cases member
  | cons e rest ih =>
    rw [pairwise_cons] at sorted
    rw [lookup]
    rcases mem_cons.mp member with rfl | later
    · rw [if_pos rfl]
    · have before := sorted.1 (k, v) later
      rw [if_neg (ne_of_lt before), ih sorted.2 later]

variable {m : SortedMap K V}

theorem mem_entries : (k, v) ∈ m.entries ↔ m.get k = some v :=
  ⟨lookup_of_mem m.sorted, mem_of_lookup⟩

theorem mem_keys : k ∈ m.keys ↔ ∃ v, m.get k = some v := by
  unfold keys
  rw [mem_map]
  constructor
  · rintro ⟨e, member, rfl⟩
    exact ⟨e.2, mem_entries.mp member⟩
  · rintro ⟨v, found⟩
    exact ⟨(k, v), mem_entries.mpr found, rfl⟩

theorem mem_values : v ∈ m.values ↔ ∃ k, m.get k = some v := by
  unfold values
  rw [mem_map]
  constructor
  · rintro ⟨e, member, rfl⟩
    exact ⟨e.1, mem_entries.mp member⟩
  · rintro ⟨k, found⟩
    exact ⟨(k, v), mem_entries.mpr found, rfl⟩

@[simp] theorem get_empty (k : K) : (empty : SortedMap K V).get k = none := rfl

theorem contains_iff : m.contains k = true ↔ ∃ v, m.get k = some v :=
  Option.isSome_iff_exists

/-- Two ascending lists with the same members are the same list. -/
theorem eq_of_mem_iff {l' : List (K × V)} (sorted : l.Pairwise fun a b => a.1 < b.1)
    (sorted' : l'.Pairwise fun a b => a.1 < b.1) (same : ∀ e, e ∈ l ↔ e ∈ l') : l = l' := by
  induction l generalizing l' with
  | nil =>
    cases l' with
    | nil => rfl
    | cons e' rest' => exact absurd ((same e').mpr mem_cons_self) not_mem_nil
  | cons e rest ih =>
    cases l' with
    | nil => exact absurd ((same e).mp mem_cons_self) not_mem_nil
    | cons e' rest' =>
      rw [pairwise_cons] at sorted sorted'
      -- the least elements agree, since each is in the other list
      have heads : e = e' := by
        rcases mem_cons.mp ((same e).mp mem_cons_self) with here | later
        · exact here
        · rcases mem_cons.mp ((same e').mpr mem_cons_self) with here' | later'
          · exact here'.symm
          · exact absurd (sorted.1 _ later') (not_lt_of_gt (sorted'.1 _ later))
      subst heads
      congr 1
      refine ih sorted.2 sorted'.2 fun x => ?_
      constructor
      · intro here
        rcases mem_cons.mp ((same x).mp (mem_cons_of_mem _ here)) with rfl | there
        · exact absurd (sorted.1 _ here) (lt_irrefl _)
        · exact there
      · intro here
        rcases mem_cons.mp ((same x).mpr (mem_cons_of_mem _ here)) with rfl | there
        · exact absurd (sorted'.1 _ here) (lt_irrefl _)
        · exact there

theorem ext_get {n : SortedMap K V} (same : ∀ k, m.get k = n.get k) : m = n := by
  have lists : m.entries = n.entries := eq_of_mem_iff m.sorted n.sorted fun e => by
    obtain ⟨k, v⟩ := e
    rw [mem_entries, mem_entries, same]
  cases m
  cases n
  cases lists
  rfl

def insertList (k : K) (v : V) : List (K × V) → List (K × V)
  | [] => [(k, v)]
  | e :: rest => if k < e.1 then (k, v) :: e :: rest else if k = e.1 then (k, v) :: rest else e :: insertList k v rest

theorem insertList_mem {e : K × V} (member : e ∈ insertList k v l) : e = (k, v) ∨ e ∈ l := by
  induction l with
  | nil => exact .inl (mem_singleton.mp member)
  | cons d rest ih =>
    rw [insertList] at member
    split_ifs at member with below same
    · rcases mem_cons.mp member with here | there
      · exact .inl here
      · exact .inr there
    · rcases mem_cons.mp member with here | there
      · exact .inl here
      · exact .inr (mem_cons_of_mem _ there)
    · rcases mem_cons.mp member with here | there
      · exact .inr (here ▸ mem_cons_self)
      · rcases ih there with here | there
        · exact .inl here
        · exact .inr (mem_cons_of_mem _ there)

theorem insertList_sorted (k : K) (v : V) (sorted : l.Pairwise fun a b => a.1 < b.1) :
    (insertList k v l).Pairwise fun a b => a.1 < b.1 := by
  induction l with
  | nil => exact pairwise_singleton _ _
  | cons d rest ih =>
    have parts := pairwise_cons.mp sorted
    rw [insertList]
    split_ifs with below same
    · refine pairwise_cons.mpr ⟨?_, sorted⟩
      intro e member
      rcases mem_cons.mp member with rfl | later
      · exact below
      · exact lt_trans below (parts.1 e later)
    · refine pairwise_cons.mpr ⟨?_, parts.2⟩
      intro e member
      exact same ▸ parts.1 e member
    · refine pairwise_cons.mpr ⟨?_, ih parts.2⟩
      intro e member
      rcases insertList_mem member with rfl | old
      · exact lt_of_le_of_ne (not_lt.mp below) (Ne.symm same)
      · exact parts.1 e old

theorem lookup_insertList (k x : K) (v : V) (l : List (K × V)) :
    lookup x (insertList k v l) = if x = k then some v else lookup x l := by
  induction l with
  | nil =>
    rw [insertList, lookup, lookup]
    by_cases same : x = k
    · rw [if_pos same.symm, if_pos same]
    · rw [if_neg (Ne.symm same), if_neg same]
      rfl
  | cons d rest ih =>
    rw [insertList]
    by_cases same : x = k
    · subst same
      rw [if_pos rfl] at ih ⊢
      split_ifs with below here
      · rw [lookup, if_pos rfl]
      · rw [lookup, if_pos rfl]
      · rw [lookup, if_neg (Ne.symm here), ih]
    · rw [if_neg same] at ih ⊢
      split_ifs with below here
      · rw [lookup, if_neg (Ne.symm same)]
      · rw [lookup, if_neg (Ne.symm same), lookup, if_neg (here ▸ Ne.symm same)]
      · rw [lookup, lookup, ih]

def insert (m : SortedMap K V) (k : K) (v : V) : SortedMap K V := ⟨insertList k v m.entries, insertList_sorted k v m.sorted⟩

@[simp] theorem get_insert (m : SortedMap K V) (k x : K) (v : V) : (m.insert k v).get x = if x = k then some v else m.get x :=
  lookup_insertList k x v m.entries

theorem insert_last {m : SortedMap K V} {k : K} {v : V} (above : ∀ e ∈ m.entries, e.1 < k) :
    (m.insert k v).entries = m.entries ++ [(k, v)] := by
  show insertList k v m.entries = _
  generalize m.entries = l at above
  induction l with
  | nil => rfl
  | cons e rest ih =>
    have below := above e mem_cons_self
    rw [insertList, if_neg (not_lt_of_gt below), if_neg (ne_of_gt below),
      ih fun x member => above x (mem_cons_of_mem _ member)]
    rfl

theorem mem_keys_insert {x : K} : x ∈ (m.insert k v).keys ↔ x = k ∨ x ∈ m.keys := by
  rw [mem_keys, mem_keys, get_insert]
  by_cases same : x = k <;> simp [same]

theorem mem_keys_foldl {A : Type} {step : SortedMap K V → A → SortedMap K V} (place : A → K)
    (grows : ∀ m a k, k ∈ (step m a).keys → k = place a ∨ k ∈ m.keys) {l : List A}
    (member : k ∈ (l.foldl step m).keys) : k ∈ m.keys ∨ ∃ a ∈ l, k = place a := by
  induction l generalizing m with
  | nil => exact .inl member
  | cons a rest ih =>
    rcases ih member with old | ⟨b, later, same⟩
    · rcases grows m a k old with same | older
      · exact .inr ⟨a, mem_cons_self, same⟩
      · exact .inl older
    · exact .inr ⟨b, mem_cons_of_mem _ later, same⟩

/-- The pairs whose key passes a test. -/
def filterKeys (m : SortedMap K V) (test : K → Bool) : SortedMap K V :=
  ⟨m.entries.filter fun e => test e.1, m.sorted.filter _⟩

theorem get_filterKeys (m : SortedMap K V) (test : K → Bool) (k : K) :
    (m.filterKeys test).get k = if test k then m.get k else none := by
  ext v
  rw [← mem_entries]
  unfold filterKeys
  rw [mem_filter, mem_entries]
  by_cases passes : test k = true <;> simp [passes]

/-- The pairs that pass a test. -/
def filter (m : SortedMap K V) (test : K → V → Bool) : SortedMap K V :=
  ⟨m.entries.filter fun e => test e.1 e.2, m.sorted.filter _⟩

theorem get_filter (m : SortedMap K V) (test : K → V → Bool) (k : K) : (m.filter test).get k = (m.get k).filter (test k) := by
  ext v
  rw [← mem_entries]
  unfold filter
  rw [mem_filter, mem_entries, Option.filter_eq_some_iff]

def remove (m : SortedMap K V) (k : K) : SortedMap K V := m.filterKeys fun x => decide (x ≠ k)

@[simp] theorem get_remove (m : SortedMap K V) (k x : K) : (m.remove k).get x = if x = k then none else m.get x := by
  unfold remove
  rw [get_filterKeys]
  by_cases same : x = k <;> simp

theorem mem_keys_remove {x : K} (member : x ∈ (m.remove k).keys) : x ∈ m.keys := by
  rw [mem_keys] at member ⊢
  obtain ⟨v, found⟩ := member
  rw [get_remove] at found
  split_ifs at found with same
  exact ⟨v, found⟩

/-- The pairs whose key lies between two keys. -/
def range (m : SortedMap K V) (start stop : K) : SortedMap K V := m.filterKeys fun k => decide (start ≤ k) && decide (k ≤ stop)

def insertAll (m : SortedMap K V) (l : List (K × V)) : SortedMap K V := l.foldl (fun m e => m.insert e.1 e.2) m

def ofList (l : List (K × V)) : SortedMap K V := empty.insertAll l

/-- With one value for each key of the list, exactly the pairs of the list are put into a map. -/
theorem get_insertAll (single : ∀ k v w, (k, v) ∈ l → (k, w) ∈ l → v = w) (k : K) (v : V) :
    (m.insertAll l).get k = some v ↔ (k, v) ∈ l ∨ (m.get k = some v ∧ ∀ w, (k, w) ∉ l) := by
  unfold insertAll
  induction l generalizing m with
  | nil => simp
  | cons e rest ih =>
    obtain ⟨x, y⟩ := e
    have tail : ∀ k v w, (k, v) ∈ rest → (k, w) ∈ rest → v = w := fun k v w here there =>
      single k v w (mem_cons_of_mem _ here) (mem_cons_of_mem _ there)
    rw [foldl_cons, ih tail, get_insert]
    by_cases same : k = x
    · subst same
      simp
      constructor
      · rintro (later | ⟨rfl, _⟩)
        · exact .inl (.inr later)
        · exact .inl (.inl rfl)
      · rintro ((rfl | later) | ⟨_, none_here⟩)
        · by_cases again : ∃ w, (k, w) ∈ rest
          · obtain ⟨w, there⟩ := again
            have equal := single k v w mem_cons_self (mem_cons_of_mem _ there)
            subst equal
            exact .inl there
          · exact .inr ⟨rfl, fun w there => again ⟨w, there⟩⟩
        · exact .inl later
        · exact absurd rfl (none_here y).1
    · simp [same]

theorem get_ofList (single : ∀ k v w, (k, v) ∈ l → (k, w) ∈ l → v = w) (k : K) (v : V) :
    (ofList l).get k = some v ↔ (k, v) ∈ l := by
  unfold ofList
  rw [get_insertAll single]
  simp

theorem ofList_entries (m : SortedMap K V) : ofList m.entries = m := by
  have single : ∀ k v w, (k, v) ∈ m.entries → (k, w) ∈ m.entries → v = w := by
    intro k v w here there
    rw [mem_entries] at here there
    exact Option.some.inj (here.symm.trans there)
  apply ext_get
  intro k
  ext v
  rw [get_ofList single, mem_entries]

theorem keys_nodup (m : SortedMap K V) : m.keys.Nodup := by
  unfold keys
  rw [nodup_map_iff_inj_on]
  · intro a a_mem b b_mem same
    obtain ⟨k, v⟩ := a
    obtain ⟨k', w⟩ := b
    cases same
    rw [mem_entries] at a_mem b_mem
    rw [Option.some.inj (a_mem.symm.trans b_mem)]
  · exact m.sorted.imp fun below same => by
      rw [same] at below
      exact lt_irrefl _ below

/-- The same keys with other values. -/
def mapValues {W : Type} (m : SortedMap K V) (f : V → W) : SortedMap K W :=
  ⟨m.entries.map fun e => (e.1, f e.2), pairwise_map.mpr m.sorted⟩

theorem get_mapValues {W : Type} (m : SortedMap K V) (f : V → W) (k : K) : (m.mapValues f).get k = (m.get k).map f := by
  ext w
  rw [← mem_entries]
  unfold mapValues
  rw [mem_map, Option.map_eq_some_iff]
  constructor
  · rintro ⟨e, member, same⟩
    cases same
    exact ⟨e.2, mem_entries.mp member, rfl⟩
  · rintro ⟨v, found, rfl⟩
    exact ⟨(k, v), mem_entries.mpr found, rfl⟩

/-- The keys of a list in ascending order, each once. -/
def sortedKeys (l : List K) : List K := (ofList (l.map fun k => (k, ()))).keys

@[simp] theorem mem_sortedKeys {l : List K} : k ∈ sortedKeys l ↔ k ∈ l := by
  unfold sortedKeys
  rw [mem_keys]
  constructor
  · rintro ⟨⟨⟩, found⟩
    rw [get_ofList fun _ _ _ _ _ => rfl] at found
    simpa using found
  · intro member
    exact ⟨(), (get_ofList (fun _ _ _ _ _ => rfl) _ _).mpr (by simpa using member)⟩

end SortedMap

end Crux
