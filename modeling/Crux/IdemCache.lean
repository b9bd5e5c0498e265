import Crux.KeyMap

/-!
# The hot cache of idempotency entries

`IdemHotCache` (`corecrux-storage/src/lib.rs`) keeps the entries that were inserted
last, by key, with a queue for the eviction of the oldest.
-/

namespace Crux.Idem
open List

structure IdemEntry (L : Type) where
  seq : UInt64
  loc : L

structure IdemHotCache (K L : Type) where
  cap : Nat
  by_key : KeyMap K (List (IdemEntry L)) := .empty
  /-- Keys and sequence numbers (`IdemOrderEntry`), the oldest first. -/
  order : List (K × UInt64) := []
  total_entries : Nat := 0
  incomplete : Bool := false

/-- `Vec::swap_remove`: the last element takes the place of the removed one. -/
def swap_remove {α : Type} (v : List α) (idx : Nat) : List α :=
  match v.getLast? with
  | some last => (v.set idx last).dropLast
  | none => v

namespace IdemHotCache
variable {K L : Type} [DecidableEq K] (c : IdemHotCache K L)

def is_incomplete : Bool := c.incomplete

def candidates (key : K) : Option (List (IdemEntry L)) := c.by_key key

def evict_one : IdemHotCache K L :=
  match c.order with
  | [] => c
  | (key, seq) :: order =>
    match c.by_key key with
    | none => { c with order, incomplete := true }
    | some v =>
      let (v, total_entries) := match v.findIdx? fun e => e.seq = seq with
        | some idx => (swap_remove v idx, c.total_entries - 1)
        | none => (v, c.total_entries)
      let by_key := if v = [] then c.by_key.remove key else c.by_key.insert key v
      { c with by_key, order, total_entries, incomplete := true }

/-- The loop of the eviction. A turn takes an entry off the queue; with an empty queue it would not end. -/
def evict : Nat → IdemHotCache K L → IdemHotCache K L
  | 0, c => c
  | turns + 1, c => if c.cap < c.total_entries then evict turns c.evict_one else c

def push (key : K) (entry : IdemEntry L) : IdemHotCache K L :=
  { c with
    by_key := c.by_key.insert key ((c.by_key key).getD [] ++ [entry])
    order := c.order ++ [(key, entry.seq)]
    total_entries := c.total_entries + 1 }

def insert (key : K) (entry : IdemEntry L) : IdemHotCache K L :=
  if c.cap = 0 then { c with incomplete := true }
  else (c.push key entry).evict (c.push key entry).order.length

def inserts (cap : Nat) (entries : List (K × IdemEntry L)) : IdemHotCache K L :=
  entries.foldl (fun c e => c.insert e.1 e.2) { cap }

/-- The sequence numbers of a key's candidates. -/
def seqs (key : K) : List UInt64 := ((c.candidates key).getD []).map IdemEntry.seq

end IdemHotCache

open IdemHotCache

section
variable {K L : Type} [DecidableEq K] (c : IdemHotCache K L)

/-- The sequence numbers of a key in a list of pairs. -/
def seqsOf (pairs : List (K × UInt64)) (key : K) : List UInt64 := (pairs.filter fun p => p.1 = key).map Prod.snd

/-- The candidates of every key are those in the queue. -/
structure Kept : Prop where
  filled : ∀ key, c.by_key key ≠ some []
  held : ∀ key, c.seqs key ~ seqsOf c.order key
  total : c.total_entries = c.order.length

end

theorem swap_remove_perm {α : Type} {v : List α} {idx : Nat} (inside : idx < v.length) :
    v ~ v[idx] :: swap_remove v idx := by
  rcases eq_nil_or_concat' v with rfl | ⟨front, last, rfl⟩
  · simp at inside
  · have removed : swap_remove (front ++ [last]) idx = ((front ++ [last]).set idx last).dropLast := by simp [swap_remove]
    by_cases before : idx < front.length
    · rw [removed, set_append_left _ _ before, dropLast_concat, getElem_append_left before]
      calc front ++ [last] ~ last :: front := perm_append_singleton _ _
        _ ~ last :: front[idx] :: front.eraseIdx idx := (getElem_cons_eraseIdx_perm before).symm.cons _
        _ ~ front[idx] :: last :: front.eraseIdx idx := .swap _ _ _
        _ ~ front[idx] :: front.set idx last := (set_perm_cons_eraseIdx before last).symm.cons _
    · have at_end : idx = front.length := by simp at inside; omega
      subst at_end
      rw [removed]
      simp

section
variable {K L : Type} [DecidableEq K] {c : IdemHotCache K L} {key : K} {seq : UInt64} {order : List (K × UInt64)}

theorem kept_push (kept : Kept c) (key : K) (entry : IdemEntry L) : Kept (c.push key entry) where
  filled x := by
    by_cases same : x = key <;> simp [push, KeyMap.insert_apply, same, kept.filled]
  held x := by
    have before := kept.held x
    by_cases same : x = key
    · subst same
      simpa [push, seqs, candidates, seqsOf] using before.append_right [entry.seq]
    · simpa [push, seqs, candidates, seqsOf, KeyMap.insert_apply, same, Ne.symm same] using before
  total := by simp [push, kept.total]

/-- An eviction takes off the oldest entry and nothing else. -/
theorem kept_evict_one (kept : Kept c) (oldest : c.order = (key, seq) :: order) : Kept c.evict_one ∧
    c.evict_one.order = order ∧ c.evict_one.cap = c.cap ∧ c.evict_one.incomplete = true := by
  have here : c.seqs key ~ seq :: seqsOf order key := by simpa [oldest, seqsOf] using kept.held key
  unfold seqs candidates at here
  cases known : c.by_key key with
  | none => simp [known] at here
  | some v =>
    rw [known, Option.getD_some] at here
    cases found : v.findIdx? fun e => e.seq = seq with
    | none =>
      obtain ⟨e, there, same⟩ := mem_map.mp (here.mem_iff.mpr mem_cons_self)
      simpa [same] using findIdx?_eq_none_iff.mp found e there
    | some idx =>
      obtain ⟨inside, same, _⟩ := findIdx?_eq_some_iff_getElem.mp found
      have left := ((swap_remove_perm inside).map IdemEntry.seq).symm.trans here
      rw [map_cons, of_decide_eq_true same, perm_cons] at left
      have result : c.evict_one = { c with
          by_key := if swap_remove v idx = [] then c.by_key.remove key else c.by_key.insert key (swap_remove v idx)
          order, total_entries := c.total_entries - 1, incomplete := true } := by
        simp [evict_one, oldest, known, found]
      rw [result]
      refine ⟨⟨fun x => ?_, fun x => ?_, ?_⟩, rfl, rfl, rfl⟩
      · dsimp only
        split_ifs with empty <;> by_cases other : x = key <;>
          simp [KeyMap.remove, KeyMap.insert_apply, other, kept.filled, empty]
      · by_cases other : x = key
        · subst other
          by_cases empty : swap_remove v idx = [] <;>
            simpa [seqs, candidates, KeyMap.remove, empty] using left
        · have before := kept.held x
          rw [oldest] at before
          by_cases empty : swap_remove v idx = [] <;>
            simpa [seqs, candidates, seqsOf, KeyMap.remove, KeyMap.insert_apply, other, Ne.symm other,
              empty] using before
      · rw [kept.total, oldest]
        rfl

theorem kept_evict (kept : Kept c) (turns : Nat) (enough : c.order.length ≤ turns) : Kept (c.evict turns) ∧
    (c.evict turns).order = c.order.drop (c.order.length - c.cap) ∧ (c.evict turns).cap = c.cap ∧
    (c.evict turns).incomplete = (c.incomplete || decide (c.cap < c.order.length)) := by
  induction turns generalizing c with
  | zero =>
    have empty : c.order = [] := by simpa using enough
    simp [evict, kept, empty]
  | succ turns ih =>
    rw [evict, kept.total]
    split_ifs with full
    · cases queue : c.order with
      | nil => simp [queue] at full
      | cons oldest rest =>
        obtain ⟨later, order, cap, gone⟩ := kept_evict_one kept queue
        simp [queue] at enough full
        obtain ⟨done, left, limit, flag⟩ := ih later (by rw [order]; omega)
        have more : rest.length + 1 - c.cap = rest.length - c.cap + 1 := by omega
        exact ⟨done, by rw [left, order, cap, length_cons, more, drop_succ_cons], by rw [limit, cap],
          by simp [flag, gone, full]⟩
    · have all : c.order.length - c.cap = 0 := by omega
      exact ⟨kept, by rw [all, drop_zero], rfl, by simp [full]⟩

theorem inserts_kept (cap : Nat) (entries : List (K × IdemEntry L)) : Kept (.inserts cap entries) ∧
    (inserts cap entries).order = (entries.map fun e => (e.1, e.2.seq)).drop (entries.length - cap) ∧
    (inserts cap entries).cap = cap ∧
    (inserts cap entries).incomplete = decide (cap < entries.length) := by
  induction entries using reverseRecOn with
  | nil => exact ⟨⟨by simp [inserts, KeyMap.empty], fun _ => .refl _, rfl⟩, by simp [inserts], rfl, rfl⟩
  | append_singleton entries e ih =>
    obtain ⟨kept, order, limit, flag⟩ := ih
    have next : inserts cap (entries ++ [e]) = (inserts cap entries).insert e.1 e.2 := by simp [inserts]
    rw [next, IdemHotCache.insert]
    split_ifs with closed
    · rw [limit] at closed
      subst closed
      have none := order
      rw [drop_eq_nil_of_le (by simp)] at none
      exact ⟨⟨kept.filled, kept.held, kept.total⟩, by rw [none, drop_eq_nil_of_le (by simp)], limit, by simp⟩
    · obtain ⟨done, left, top, full⟩ := kept_evict (kept_push kept e.1 e.2) _ le_rfl
      have size : (inserts cap entries).order.length = min cap entries.length := by simp [order]; omega
      refine ⟨done, ?_, top.trans limit, ?_⟩
      · rw [left]
        simp only [push, limit, order]
        rw [← drop_append_of_le_length (by simp), drop_drop]
        simp
        omega
      · rw [full]
        simp [push, limit, flag, size]
        omega

/-- The cache holds the pairs that were inserted last, as many as it has room for, and says so when others were dropped. -/
theorem idem_cache_accounts (cap : Nat) (entries : List (K × IdemEntry L)) :
    let c := inserts cap entries
    let pairs := entries.map fun e => (e.1, e.2.seq)
    (∀ key, c.seqs key ~ seqsOf (pairs.drop (pairs.length - cap)) key) ∧ c.total_entries = c.order.length ∧
      c.total_entries = ((c.order.map Prod.fst).dedup.map fun key => (c.seqs key).length).sum ∧
      (∀ key, c.candidates key ≠ none → key ∈ c.order.map Prod.fst) ∧ c.total_entries ≤ cap ∧
      (∀ key, c.candidates key ≠ some []) ∧ (c.is_incomplete = false ↔ ∀ key, c.seqs key ~ seqsOf pairs key) := by
  intro c pairs
  obtain ⟨kept, order, flag⟩ : Kept c ∧ c.order = pairs.drop (pairs.length - cap) ∧
      c.incomplete = decide (cap < pairs.length) := by
    obtain ⟨kept, order, -, flag⟩ := inserts_kept cap entries
    exact ⟨kept, by rw [length_map]; exact order, by rw [length_map]; exact flag⟩
  clear_value c pairs
  refine ⟨fun key => order ▸ kept.held key, kept.total, ?_, fun key known => ?_, ?_, kept.filled, ?_⟩
  · rw [kept.total, ← length_map Prod.fst, ← sum_map_count_dedup_eq_length]
    refine congrArg sum (map_congr_left fun key _ => ?_)
    rw [(kept.held key).length_eq]
    simp [seqsOf, count, countP_eq_length_filter, filter_map, Function.comp_def, BEq.beq]
  · by_contra absent
    have none : seqsOf c.order key = [] := by
      simp only [seqsOf, map_eq_nil_iff, filter_eq_nil_iff]
      exact fun p member same => absent (mem_map.mpr ⟨p, member, by simpa using same⟩)
    have empty := (none ▸ kept.held key).eq_nil
    have filled := kept.filled key
    unfold seqs at empty
    unfold candidates at empty known
    cases there : c.by_key key <;> simp_all
  · rw [kept.total, order, length_drop]
    omega
  · rw [is_incomplete, flag, decide_eq_false_iff_not, Nat.not_lt]
    constructor
    · intro fits key
      have all := kept.held key
      rwa [order, Nat.sub_eq_zero_of_le fits, drop_zero] at all
    · intro all
      by_contra many
      cases split : pairs with
      | nil => simp [split] at many
      | cons p rest =>
        have same := ((all p.1).symm.trans (kept.held p.1)).length_eq
        have drops : c.order = rest.drop (rest.length - cap) := by
          rw [split, length_cons] at order many
          rw [order, Nat.succ_sub (by omega), drop_succ_cons]
        have fewer := (((drop_sublist (rest.length - cap) rest).filter fun q => q.1 = p.1).map Prod.snd).length_le
        simp [split, drops, seqsOf] at same fewer
        omega

end

end Crux.Idem
