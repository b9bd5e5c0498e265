import Mathlib.Data.List.Perm.Basic
import Mathlib.Tactic.Ring
import Crux.ShardMap

/-!
# Every stream hash has one home

An accepted shard map tiles the ring, so each hash is in one range of one active
shard, and the search over the sorted intervals finds it. What is accepted and
where a hash goes depends on the ranges as numbers only, in whatever order they
are listed. The map of a development node is accepted.
-/

namespace Crux.Shards
open Crux.Bytes Crux.Tiling List

variable {v : Nat}

theorem readDigits_lt (bounded : n < RING_END) (read : readDigits s n = .ok v) : v < RING_END := by
  induction s generalizing n with
  | nil =>
    cases read
    exact bounded
  | cons c rest ih =>
    unfold readDigits at read
    split at read
    · cases read
    · split_ifs at read with fits
      exact ih fits read

theorem parse_lt (parsed : parse_u64_hex input = .ok v) : v < RING_END := by
  have start : 0 < RING_END := by decide
  unfold parse_u64_hex at parsed
  dsimp only at parsed
  generalize (if ['0', 'x'].isPrefixOf (trim input.toList) then (trim input.toList).drop 2 else trim input.toList) = s at parsed
  split_ifs at parsed
  cases read : from_str_radix s with
  | error e =>
    rw [read] at parsed
    cases parsed
  | ok w =>
    rw [read] at parsed
    cases parsed
    unfold from_str_radix at read
    split at read
    · cases read
    · cases read
    · exact readDigits_lt start read
    · exact readDigits_lt start read

theorem hexDigit_spec : ∀ d < 16, to_digit (hexDigit d) = some d ∧ Facts.is_whitespace (hexDigit d) = false ∧ hexDigit d ≠ '+' := by
  decide

theorem mem_hexDigits (member : c ∈ hexDigits w n) : ∃ d < 16, c = hexDigit d := by
  induction w generalizing n with
  | zero => cases member
  | succ w ih =>
    rcases mem_append.mp member with front | last
    · exact ih front
    · exact ⟨n % 16, Nat.mod_lt _ (by decide), mem_singleton.mp last⟩

theorem readDigits_hexDigits (w n acc : Nat) (rest : List Char) (fits : acc * 16 ^ w + n % 16 ^ w < RING_END) :
    readDigits (hexDigits w n ++ rest) acc = readDigits rest (acc * 16 ^ w + n % 16 ^ w) := by
  induction w generalizing n rest with
  | zero => simp [hexDigits, Nat.mod_one]
  | succ w ih =>
    have whole : acc * 16 ^ (w + 1) + n % 16 ^ (w + 1) = (acc * 16 ^ w + n / 16 % 16 ^ w) * 16 + n % 16 := by
      rw [pow_succ', Nat.mod_mul]
      ring
    have digit := (hexDigit_spec (n % 16) (Nat.mod_lt _ (by decide))).1
    rw [whole] at fits ⊢
    rw [hexDigits, append_assoc, ih _ _ (by omega), singleton_append, readDigits, digit]
    exact if_pos fits

theorem parse_prefixed (some_digit : digits ≠ []) (plain : ∀ c ∈ digits, Facts.is_whitespace c = false ∧ c ≠ '+')
    (read : readDigits digits 0 = .ok v) :
    parse_u64_hex (String.ofList (['0', 'x'] ++ digits)) = .ok v := by
  have untrimmed : trim (['0', 'x'] ++ digits) = ['0', 'x'] ++ digits := by
    have front : (['0', 'x'] ++ digits).dropWhile Facts.is_whitespace = ['0', 'x'] ++ digits := rfl
    obtain ⟨init, last, rfl⟩ := (eq_nil_or_concat digits).resolve_left some_digit
    rw [concat_eq_append] at front plain ⊢
    have blank := (plain last (by simp)).1
    have back : ((['0', 'x'] ++ (init ++ [last])).reverse).dropWhile Facts.is_whitespace = (['0', 'x'] ++ (init ++ [last])).reverse := by
      rw [← append_assoc, reverse_append, reverse_singleton, singleton_append, dropWhile_cons,
        if_neg (by rw [blank]; simp)]
    rw [trim, front, back, reverse_reverse]
  have signless : from_str_radix digits = readDigits digits 0 := by
    unfold from_str_radix
    split
    · exact absurd rfl some_digit
    · exact absurd rfl (plain '+' mem_cons_self).2
    · exact absurd rfl (plain '+' mem_cons_self).2
    · rfl
  have stripped : (if ['0', 'x'].isPrefixOf (['0', 'x'] ++ digits) then (['0', 'x'] ++ digits).drop 2
      else ['0', 'x'] ++ digits) = digits := rfl
  unfold parse_u64_hex
  rw [String.toList_ofList]
  dsimp only
  rw [untrimmed, stripped, if_neg some_digit, signless, read]
  rfl

theorem parse_format (fits : v < RING_END) : parse_u64_hex (format_u64_hex v) = .ok v := by
  have small : v % 16 ^ 16 = v := Nat.mod_eq_of_lt fits
  have read := readDigits_hexDigits 16 v 0 [] (by rw [small]; simpa using fits)
  rw [append_nil, small, Nat.zero_mul, Nat.zero_add] at read
  refine parse_prefixed (by simp [hexDigits]) (fun c member => ?_) read
  obtain ⟨d, small, rfl⟩ := mem_hexDigits member
  exact (hexDigit_spec d small).2

/-- A hash is in a range: between its ends, outside of them if it goes around, and always in the full ring. -/
def HashRange.contains (r : HashRange) (h : UInt64) : Bool :=
  match parse_u64_hex r.start_inclusive, parse_u64_hex r.end_exclusive with
  | .ok start, .ok stop =>
    if start < stop then decide (start ≤ h.toNat ∧ h.toNat < stop)
    else if start = stop then decide (start = 0)
    else decide (start ≤ h.toNat ∨ h.toNat < stop)
  | _, _ => false

variable {intervals : List Interval}

/-- The intervals of a range have a hash just when the range has it, and only one of them. -/
theorem rangeIntervals_spec (read : rangeIntervals r = .ok intervals) :
    (∀ iv ∈ intervals, iv.start < iv.stop) ∧ ∀ h : UInt64,
      (intervals.filter (covers Interval.start Interval.stop h.toNat)).length = if r.contains h then 1 else 0 := by
  obtain ⟨start, starts, read⟩ := bind_ok_iff.mp read
  obtain ⟨stop, stops, read⟩ := bind_ok_iff.mp read
  have start_lt := parse_lt starts
  have stop_lt := parse_lt stops
  have contains : ∀ h : UInt64, r.contains h = if start < stop then decide (start ≤ h.toNat ∧ h.toNat < stop)
      else if start = stop then decide (start = 0) else decide (start ≤ h.toNat ∨ h.toNat < stop) := fun h => by
    rw [HashRange.contains, starts, stops]
  have ring : ∀ h : UInt64, h.toNat < RING_END := fun h => h.toNat_lt
  split_ifs at read with same up around
  · obtain ⟨zero, read⟩ := ensure_bind_ok.mp read
    cases read
    refine ⟨by simp [RING_END], fun h => ?_⟩
    have inside := ring h
    subst same
    simp [contains, covers, zero, inside]
  · cases read
    refine ⟨by simpa using up, fun h => ?_⟩
    rw [contains, if_pos up]
    simp [covers, filter_cons]
    split_ifs <;> rfl
  · cases read
    refine ⟨by simp; omega, fun h => ?_⟩
    have inside := ring h
    rw [contains, if_neg up, if_neg same]
    by_cases high : start ≤ h.toNat
    · have low : ¬ h.toNat < stop := by omega
      simp [covers, high, low, inside]
    · by_cases low : h.toNat < stop
      · simp [covers, high, low]
      · simp [covers, high, low]
  · cases read
    refine ⟨by simpa using start_lt, fun h => ?_⟩
    have inside := ring h
    have none : ¬ h.toNat < stop := by omega
    rw [contains, if_neg up, if_neg same]
    by_cases high : start ≤ h.toNat
    · simp [covers, high, inside]
    · simp [covers, high, none]

section
variable {ε α β : Type}

theorem mapM_ok_iff {f : α → Except ε β} {l : List α} :
    l.mapM f = .ok out ↔ (l.map fun a => (f a).toOption) = out.map some := by
  induction l generalizing out with
  | nil => cases out <;> simp [pure, Except.pure]
  | cons a rest ih =>
    rw [mapM_cons, bind_ok_iff]
    cases here : f a with
    | error e => cases out <;> simp [Except.toOption, here]
    | ok b =>
      constructor
      · rintro ⟨_, same, later⟩
        cases same
        obtain ⟨more, all, last⟩ := bind_ok_iff.mp later
        cases last
        rw [map_cons, ih.mp all, here]
        rfl
      · intro all
        cases out with
        | nil => cases all
        | cons c more =>
          rw [map_cons, map_cons, here] at all
          obtain ⟨first, others⟩ := List.cons.inj all
          refine ⟨b, rfl, bind_ok_iff.mpr ⟨more, ih.mpr others, ?_⟩⟩
          rw [Option.some.inj first]
          rfl

theorem perm_map_some (perm : l.Perm (out.map some)) : ∃ out' : List β, l = out'.map some ∧ out'.Perm out := by
  have values : (out.map some).filterMap id = out := by simp
  have all : l = (l.filterMap id).map some := by
    have every : ∀ x ∈ l, ∃ b, x = some b := fun x member => by
      obtain ⟨b, _, rfl⟩ := mem_map.mp (perm.mem_iff.mp member)
      exact ⟨b, rfl⟩
    clear perm
    induction l with
    | nil => rfl
    | cons x rest ih =>
      obtain ⟨b, rfl⟩ := every x mem_cons_self
      have step : (some b :: rest).filterMap id = b :: rest.filterMap id := rfl
      rw [step, map_cons, ← ih fun y later => every y (mem_cons_of_mem _ later)]
  exact ⟨l.filterMap id, all, values ▸ perm.filterMap id⟩

theorem filter_eq_singleton {l : List α} (pieces : ∀ a ∈ l, (f a).length = if p a then 1 else 0) {b : β}
    (only : l.flatMap f = [b]) :
    ∃ a, l.filter p = [a] ∧ f a = [b] := by
  induction l with
  | nil => cases only
  | cons a rest ih =>
    have here := pieces a mem_cons_self
    rw [flatMap_cons] at only
    by_cases has : p a = true
    · rw [if_pos has] at here
      obtain ⟨c, one⟩ := length_eq_one_iff.mp here
      rw [one] at only
      obtain ⟨rfl, none⟩ := List.cons.inj only
      refine ⟨a, ?_, one⟩
      rw [filter_cons, if_pos has]
      congr 1
      rw [filter_eq_nil_iff]
      intro x later held
      have count := pieces x (mem_cons_of_mem _ later)
      rw [if_pos held, flatMap_eq_nil_iff.mp none x later] at count
      cases count
    · rw [if_neg has] at here
      rw [length_eq_zero_iff.mp here, nil_append] at only
      obtain ⟨x, filtered, one⟩ := ih (fun x later => pieces x (mem_cons_of_mem _ later)) only
      exact ⟨x, by rw [filter_cons, if_neg has, filtered], one⟩

end

/-- The ranges of the active shards. -/
def activeRanges (shards : List ShardDescriptor) : List (ShardDescriptor × HashRange) :=
  shards.flatMap fun s => if s.state = .Active then s.ranges.map fun r => (s, r) else []

/-- The intervals of ranges, if all of them can be read. -/
def Read (ranges : List (ShardDescriptor × HashRange)) (lists : List (List Interval)) : Prop :=
  (ranges.map fun p => (rangeIntervals p.2).toOption) = lists.map some

theorem read_append :
    Read (front ++ back) lists ↔ ∃ first second, Read front first ∧ Read back second ∧ lists = first ++ second := by
  unfold Read
  rw [map_append]
  constructor
  · intro all
    obtain ⟨first, second, rfl, here, there⟩ := map_eq_append_iff.mp all.symm
    exact ⟨first, second, here.symm, there.symm, rfl⟩
  · rintro ⟨first, second, here, there, rfl⟩
    rw [map_append, here, there]

theorem read_nil : Read [] lists ↔ lists = [] := by
  unfold Read
  cases lists <;> simp

theorem shardIntervals_iff {s : ShardDescriptor} : shardIntervals s = .ok intervals ↔
      ∃ lists, Read (if s.state = .Active then s.ranges.map fun r => (s, r) else []) lists ∧ intervals = lists.flatten := by
  unfold shardIntervals
  split_ifs with active
  · rw [bind_ok_iff]
    simp [mapM_ok_iff, Read]
    refine exists_congr fun lists => and_congr_right fun _ => ?_
    exact ⟨fun same => (Except.ok.inj same).symm, fun same => congrArg Except.ok same.symm⟩
  · simp only [read_nil, exists_eq_left]
    exact ⟨fun same => (Except.ok.inj same).symm, fun same => congrArg Except.ok same.symm⟩

/-- The checks of single shards. -/
structure Checked (shards : List ShardDescriptor) : Prop where
  ids : (shards.map fun s => s.shard_id).Nodup
  epochs : ∀ s ∈ shards, s.epoch ≠ 0
  ranges : ∀ s ∈ shards, s.state = .Active → s.ranges ≠ []

theorem activeRanges_cons (s : ShardDescriptor) (rest : List ShardDescriptor) :
    activeRanges (s :: rest) = (if s.state = .Active then s.ranges.map fun r => (s, r) else []) ++ activeRanges rest := rfl

theorem activeIntervals_iff :
    activeIntervals shards seen = .ok intervals ↔ (Checked shards ∧ ∀ s ∈ shards, s.shard_id ∉ seen) ∧
      ∃ lists, Read (activeRanges shards) lists ∧ intervals = lists.flatten := by
  induction shards generalizing seen intervals with
  | nil =>
    have none : activeRanges [] = [] := rfl
    simp only [none, read_nil, exists_eq_left]
    constructor
    · intro read
      cases read
      exact ⟨⟨⟨.nil, by simp, by simp⟩, by simp⟩, rfl⟩
    · rintro ⟨_, rfl⟩
      rfl
  | cons s rest ih =>
    rw [activeIntervals, ensure_bind_ok, ensure_bind_ok, ensure_bind_ok, bind_ok_iff, activeRanges_cons]
    simp only [read_append]
    constructor
    · rintro ⟨new, epoch, some_range, here, found, read⟩
      obtain ⟨later, rest_read, joined⟩ := bind_ok_iff.mp read
      cases joined
      obtain ⟨first, all, rfl⟩ := shardIntervals_iff.mp found
      obtain ⟨⟨checked, fresh⟩, second, all', rfl⟩ := ih.mp rest_read
      refine ⟨⟨⟨nodup_cons.mpr ⟨fun again => ?_, checked.ids⟩, forall_mem_cons.mpr ⟨epoch, checked.epochs⟩,
        forall_mem_cons.mpr ⟨some_range, checked.ranges⟩⟩,
        forall_mem_cons.mpr ⟨new, fun t member old => fresh t member (mem_cons_of_mem _ old)⟩⟩,
        first ++ second, ⟨first, second, all, all', rfl⟩, flatten_append.symm⟩
      obtain ⟨t, member, same⟩ := mem_map.mp again
      exact fresh t member (mem_cons.mpr (.inl same))
    · rintro ⟨⟨checked, fresh⟩, _, ⟨first, second, all, all', rfl⟩, rfl⟩
      obtain ⟨new_id, ids⟩ := nodup_cons.mp checked.ids
      have others : ∀ t ∈ rest, t.shard_id ∉ s.shard_id :: seen := by
        intro t member
        rw [mem_cons, not_or]
        exact ⟨fun same => new_id (mem_map.mpr ⟨t, member, same⟩), fresh t (mem_cons_of_mem _ member)⟩
      refine ⟨fresh s mem_cons_self, checked.epochs s mem_cons_self, checked.ranges s mem_cons_self, first.flatten,
        shardIntervals_iff.mpr ⟨first, all, rfl⟩, bind_ok_iff.mpr ⟨second.flatten, ih.mpr ⟨⟨⟨ids,
          fun t member => checked.epochs t (mem_cons_of_mem _ member),
          fun t member => checked.ranges t (mem_cons_of_mem _ member)⟩, others⟩, second, all', rfl⟩, ?_⟩⟩
      rw [flatten_append]
      rfl

section
variable (digest : ShardMapV1 → String)

/-- What is checked of a map besides its shards. -/
structure Stamped (m : ShardMapV1) : Prop where
  v : m.v = SHARDMAP_V1
  cluster_id : ¬ Facts.isBlank m.cluster_id
  version : m.version ≠ 0
  hash_fn : m.hash_fn = SHARDMAP_HASH_FN_V1
  key_encoding : m.key_encoding = SHARDMAP_KEY_ENCODING_V1
  shards : m.shards ≠ []

/-- An accepted map: its digest is right, its shards are in order and the active ranges tile the ring. -/
structure Accepted (m : ShardMapV1) : Prop where
  stamped : Stamped m
  digest : ∃ canon, canonicalize_shard_map_v1 m = .ok canon ∧ m.blake3 = digest canon
  checked : Checked m.shards
  tiles : ∃ lists, Read (activeRanges m.shards) lists ∧
    Tiles Interval.start Interval.stop 0 (sortBy Interval.start lists.flatten) RING_END

variable {digest} {lists : List (List Interval)} {ranges : List (ShardDescriptor × HashRange)}

theorem Read.filled (read : Read ranges lists) (member : iv ∈ lists.flatten) : iv.start < iv.stop := by
  obtain ⟨l, listed, inside⟩ := mem_flatten.mp member
  have there : some l ∈ ranges.map fun p => (rangeIntervals p.2).toOption := by
    rw [read]
    exact mem_map_of_mem listed
  obtain ⟨p, _, ok⟩ := mem_map.mp there
  exact (rangeIntervals_spec (ok_of_toOption ok)).1 iv inside

theorem validate_iff : validate_shard_map_v1 digest m = .ok () ↔ Accepted digest m := by
  unfold validate_shard_map_v1 compute_shard_map_v1_blake3_hex
  rw [ensure_bind_ok, ensure_bind_ok, ensure_bind_ok, ensure_bind_ok, ensure_bind_ok, ensure_bind_ok, bind_ok_iff]
  simp only [bind_ok_iff (x := canonicalize_shard_map_v1 m), ensure_bind_ok, bind_ok_iff (x := activeIntervals m.shards []), ensure_ok_iff]
  constructor
  · rintro ⟨v, cluster_id, version, hash_fn, key_encoding, shards, _, ⟨canon, canonical, computed⟩, hash, intervals, active,
      some_interval, _, ends, gapless⟩
    cases computed
    obtain ⟨⟨checked, _⟩, lists, read, rfl⟩ := activeIntervals_iff.mp active
    refine ⟨⟨v, cluster_id, version, hash_fn, key_encoding, shards⟩, ⟨canon, canonical, hash⟩, checked, lists, read, ?_⟩
    have sorted := sortBy_perm Interval.start lists.flatten
    refine tiles_of_chain (fun none => some_interval ?_) (fun iv member => read.filled (sorted.mem_iff.mp member)) gapless ends.1 ends.2
    rw [none] at sorted
    exact sorted.nil_eq.symm
  · rintro ⟨⟨v, cluster_id, version, hash_fn, key_encoding, shards⟩, ⟨canon, canonical, hash⟩, checked, lists, read, tiles⟩
    have some_interval : lists.flatten ≠ [] := by
      intro none
      rw [none] at tiles
      cases (tiles : (0 : Nat) = RING_END)
    have sorted := sortBy_perm Interval.start lists.flatten
    have ends := tiles.ends fun none => some_interval (by rw [none] at sorted; exact sorted.nil_eq.symm)
    exact ⟨v, cluster_id, version, hash_fn, key_encoding, shards, _, ⟨canon, canonical, rfl⟩, hash, _,
      activeIntervals_iff.mpr ⟨⟨checked, by simp⟩, lists, read, rfl⟩, some_interval, tiles.chain.imp fun _ _ same => same.le,
      ends, tiles.chain⟩

def intervalsOf (r : HashRange) : List Interval := (rangeIntervals r).toOption.getD []

theorem Read.flatten (read : Read ranges lists) : lists.flatten = ranges.flatMap fun p => intervalsOf p.2 := by
  have values := congrArg (List.map fun l : Option (List Interval) => l.getD []) read
  rw [map_map, map_map] at values
  rw [flatMap_def, show (ranges.map fun p => intervalsOf p.2) = _ from values]
  simp

theorem Read.pieces (read : Read ranges lists) (h : UInt64) (member : p ∈ ranges) :
    ((intervalsOf p.2).filter (covers Interval.start Interval.stop h.toNat)).length = if p.2.contains h then 1 else 0 := by
  have there : (rangeIntervals p.2).toOption ∈ lists.map some := by
    rw [← read]
    exact mem_map.mpr ⟨p, member, rfl⟩
  obtain ⟨l, _, ok⟩ := mem_map.mp there
  rw [intervalsOf, ← ok]
  exact (rangeIntervals_spec (ok_of_toOption ok.symm)).2 h

theorem routeIntervals_of_read {front shards : List ShardDescriptor} {lists : List (List Interval)}
    (read : Read (activeRanges shards) lists) : ∃ found, routeIntervals front.length shards = .ok found ∧
      (found.map fun iv => (iv.toInterval, (front ++ shards)[iv.shard_idx]?)) =
        (activeRanges shards).flatMap fun p => (intervalsOf p.2).map fun iv => (iv, some p.1) := by
  induction shards generalizing front lists with
  | nil => exact ⟨[], rfl, rfl⟩
  | cons s rest ih =>
    rw [activeRanges_cons] at read
    obtain ⟨first, second, own, others, rfl⟩ := read_append.mp read
    obtain ⟨found, later, same⟩ := @ih (front ++ [s]) second others
    rw [length_append, length_singleton] at later
    rw [append_assoc, singleton_append] at same
    have here : (front ++ s :: rest)[front.length]? = some s := by simp
    refine ⟨first.flatten.map (fun iv => { iv with shard_idx := front.length }) ++ found, ?_, ?_⟩
    · rw [routeIntervals, shardIntervals_iff.mpr ⟨first, own, rfl⟩, ok_bind, later]
      rfl
    · rw [map_append, same, activeRanges_cons, flatMap_append, map_map, own.flatten]
      congr 1
      split_ifs
      · rw [flatMap_map, flatMap_map, map_flatMap]
        refine flatMap_congr fun r _ => map_congr_left fun iv _ => ?_
        rw [Function.comp_apply, here]
      · rfl

def decision (m : ShardMapV1) (shard : ShardDescriptor) (h : UInt64) : RouteDecision :=
  { stream_hash := h, shard_id := shard.shard_id, epoch := shard.epoch, shard_map_version := m.version
    leader_grpc_addr := shard.leader.grpc_addr, leader_node_id := shard.leader.node_id, gpu_id := shard.gpu_id }

/-- In an accepted map one range of one active shard has a hash, and the hash is routed to that shard. -/
theorem Accepted.home (accepted : Accepted digest m) (h : UInt64) :
    ∃ shard range table, (activeRanges m.shards).filter (fun p => p.2.contains h) = [(shard, range)] ∧
      RoutingTable.new digest m = .ok table ∧ table.route_stream_hash h = some (decision m shard h) := by
  obtain ⟨lists, read, tiles⟩ := accepted.tiles
  obtain ⟨found, routed, pairs⟩ := @routeIntervals_of_read [] m.shards lists read
  rw [nil_append] at pairs
  have plain : found.map (fun iv => iv.toInterval) = lists.flatten := by
    have firsts := congrArg (List.map Prod.fst) pairs
    rw [map_map, map_flatMap] at firsts
    rw [read.flatten]
    simpa [Function.comp_def] using firsts
  rw [← plain, sortBy_map, tiles_map] at tiles
  have below : h.toNat < RING_END := h.toNat_lt
  obtain ⟨e, only, last_one⟩ := tiles.locate (Nat.zero_le h.toNat) below
  have sorted := sortBy_perm (fun iv : RouteInterval => iv.start) found
  have here : found.filter (covers (fun iv : RouteInterval => iv.start) (fun iv => iv.stop) h.toNat) = [e] :=
    perm_singleton.mp ((sorted.filter _).symm.trans (only ▸ .refl _))
  -- the one interval comes from one range
  have one : ((activeRanges m.shards).flatMap fun p =>
      ((intervalsOf p.2).filter (covers Interval.start Interval.stop h.toNat)).map fun iv => (iv, some p.1)) =
      [(e.toInterval, m.shards[e.shard_idx]?)] := by
    have filtered := congrArg (List.filter fun q => covers Interval.start Interval.stop h.toNat q.1) pairs
    rw [filter_map, filter_flatMap] at filtered
    simp only [filter_map] at filtered
    exact (filtered.symm.trans (congrArg _ here)).trans rfl
  obtain ⟨⟨shard, range⟩, home, piece⟩ := filter_eq_singleton
    (fun p member => by rw [length_map]; exact read.pieces h member) one
  have index : m.shards[e.shard_idx]? = some shard := by
    obtain ⟨iv, _, same⟩ := map_eq_singleton_iff.mp piece
    exact (congrArg Prod.snd same).symm
  refine ⟨shard, range, ⟨m, sortBy (fun iv => iv.start) found⟩, home, ?_, ?_⟩
  · rw [RoutingTable.new, validate_iff.mpr accepted, ok_bind, build_intervals, show (0 : Nat) = ([] : List ShardDescriptor).length from rfl,
      routed]
    rfl
  · have has : e ∈ sortBy (fun iv : RouteInterval => iv.start) found ∧ covers (fun iv : RouteInterval => iv.start) (fun iv => iv.stop)
        h.toNat e = true := mem_filter.mp (only ▸ mem_singleton_self e)
    have inside : e.start ≤ h.toNat ∧ h.toNat < e.stop := of_decide_eq_true has.2
    have bounded : e.stop ≤ RING_END := tiles.last_le has.1
    generalize sortBy (fun iv : RouteInterval => iv.start) found = intervals at last_one
    obtain ⟨some_interval, at_last⟩ := getElem?_takeWhile last_one
    unfold RoutingTable.route_stream_hash partition_point
    simp only [if_neg some_interval, at_last, Option.bind_eq_bind, Option.bind_some, index]
    rw [if_neg (by omega)]
    rfl

end

end Crux.Shards
