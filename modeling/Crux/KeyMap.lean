import Mathlib.Tactic

/-!
# Maps from keys to values

Two forms of a map: `KeyMap`, a partial function that is only looked up, and
`Entries`, a list of pairs with at most one entry for a key, that can also be
walked over.
-/

namespace Crux

/-- A map that is only looked up. -/
abbrev KeyMap (K V : Type) := K → Option V

namespace KeyMap
variable {K V : Type} [DecidableEq K]

def empty : KeyMap K V := fun _ => none

def insert (m : KeyMap K V) (k : K) (v : V) : KeyMap K V := fun x => if x = k then some v else m x

def remove (m : KeyMap K V) (k : K) : KeyMap K V := fun x => if x = k then none else m x

@[simp] theorem insert_same (m : KeyMap K V) (k : K) (v : V) : m.insert k v k = some v := if_pos rfl

theorem insert_other (m : KeyMap K V) {k x : K} (v : V) (h : x ≠ k) : m.insert k v x = m x := if_neg h

theorem insert_apply (m : KeyMap K V) (k x : K) (v : V) : m.insert k v x = if x = k then some v else m x := rfl

end KeyMap

/-- A map that can be walked over: a list of pairs, one for each key. -/
abbrev Entries (K V : Type) := List (K × V)

namespace Entries
variable {K V : Type} [DecidableEq K]

section
variable (m : Entries K V)

def get (k : K) : Option V := (m.find? fun e => e.1 = k).map Prod.snd

def remove (k : K) : Entries K V := m.filter fun e => e.1 ≠ k

/-- The entry of a key, put at the end in place of an earlier one. -/
def put (k : K) (v : V) : Entries K V := m.remove k ++ [(k, v)]

def keys : List K := m.map Prod.fst

theorem get_remove (k x : K) : (m.remove k).get x = if x = k then none else m.get x := by
  unfold get remove
  by_cases same : x = k
  · subst same
    simp
  · rw [if_neg same, List.find?_filter]
    congr 1
    congr 1
    funext e
    by_cases here : e.1 = x
    · simp [here, same]
    · simp [here]

end

theorem get_append (m n : Entries K V) (x : K) : Entries.get (m ++ n) x = (m.get x).or (Entries.get n x) := by
  unfold get
  rw [List.find?_append]
  cases m.find? fun e => e.1 = x <;> simp

theorem get_put (m : Entries K V) (k x : K) (v : V) : (m.put k v).get x = if x = k then some v else m.get x := by
  unfold put
  rw [get_append, get_remove]
  by_cases same : x = k
  · simp [same, get]
  · have other : k ≠ x := fun h => same h.symm
    simp [same, other, get]

theorem mem_keys_of_get {m : Entries K V} {k : K} {v : V} (h : m.get k = some v) : k ∈ m.keys := by
  unfold get at h
  rw [Option.map_eq_some_iff] at h
  obtain ⟨e, found, _⟩ := h
  have holds := List.find?_some found
  have member := List.mem_of_find?_eq_some found
  exact List.mem_map.mpr ⟨e, member, by simpa using holds⟩

end Entries

end Crux
