import Crux.ShardRouting

/-!
# One home for every hash

The order of shards, ranges and followers and the spelling of the bounds change
neither what is accepted nor where a hash is routed, and the map of a
development node is accepted.
-/

namespace Crux.Shards
open Crux.Bytes Crux.Tiling List

/-! ## Other orders and spellings -/

/-- The bounds of a range as numbers. -/
def HashRange.bounds (r : HashRange) : Option Nat × Option Nat :=
  ((parse_u64_hex r.start_inclusive).toOption, (parse_u64_hex r.end_exclusive).toOption)

/-- The same ranges, however they are spelled, in the same order or in another one if no two of them start at one place. -/
def SameRanges (ranges ranges' : List HashRange) : Prop :=
  ranges.map HashRange.bounds = ranges'.map HashRange.bounds ∨
    ((ranges.map HashRange.bounds).Perm (ranges'.map HashRange.bounds) ∧ (ranges.map fun r => r.bounds.1).Nodup)

/-- The same followers, in another order only if their ids are distinct. -/
def SameFollowers (followers followers' : Option (List NodeAddr)) : Prop :=
  followers = followers' ∨
    ∃ l l', followers = some l ∧ followers' = some l' ∧ l.Perm l' ∧ (l.map fun n => n.node_id).Nodup

structure SameShard (s s' : ShardDescriptor) : Prop where
  rest : { s' with ranges := s.ranges, followers := s.followers } = s
  ranges : SameRanges s.ranges s'.ranges
  followers : SameFollowers s.followers s'.followers

/-- The same map with its shards, their ranges and followers in another order and the bounds spelled in another way. -/
structure SameMap (m m' : ShardMapV1) : Prop where
  rest : { m' with shards := m.shards } = m
  shards : ∃ between, m.shards.Forall₂ SameShard between ∧ between.Perm m'.shards

section
variable {ε α β K : Type} [LinearOrder K]

theorem toOption_bind (x : Except ε α) (f : α → Except ε β) : (x >>= f).toOption = x.toOption.bind fun a => (f a).toOption := by
  cases x <;> rfl

theorem map_of_results {γ : Type} {g : β → γ} {g' : α → γ} (keeps : ∀ a b, f a = some b → g b = g' a) {l : List α}
    {out : List β} (all : l.map f = out.map some) : out.map g = l.map g' := by
  induction l generalizing out with
  | nil =>
    cases out with
    | nil => rfl
    | cons _ _ => cases all
  | cons a rest ih =>
    cases out with
    | nil => cases all
    | cons b more =>
      obtain ⟨here, later⟩ := List.cons.inj all
      rw [map_cons, map_cons, keeps a b here, ih later]

theorem sorted_results {key : β → K} {results results' : List (Option β)}
    (same : results = results' ∨ (results.Perm results' ∧ ((results.filterMap id).map key).Nodup)) {out : List β}
    (all : results = out.map some) : ∃ out' : List β, results' = out'.map some ∧ sortBy key out = sortBy key out' := by
  rcases same with rfl | ⟨perm, distinct⟩
  · exact ⟨out, all, rfl⟩
  · rw [all] at perm distinct
    obtain ⟨out', all', perm'⟩ := perm_map_some perm.symm
    have values : (out.map some).filterMap id = out := by simp
    rw [values] at distinct
    exact ⟨out', all', sortBy_eq_of_perm perm'.symm distinct⟩

end

/-- A range in normal form, from its bounds. -/
def keyedBounds (bounds : Option Nat × Option Nat) : Option (Nat × HashRange) :=
  bounds.1.bind fun start => bounds.2.map fun stop => (start, ⟨format_u64_hex start, format_u64_hex stop⟩)

theorem keyedRange_bounds (r : HashRange) : (keyedRange r).toOption = keyedBounds r.bounds := by
  unfold keyedRange normalize_range keyedBounds HashRange.bounds
  cases starts : parse_u64_hex r.start_inclusive with
  | error e => rfl
  | ok start =>
    cases parse_u64_hex r.end_exclusive with
    | error e => rfl
    | ok stop =>
      simp [parse_format (parse_lt starts)]
      rfl

/-- The intervals of a range, from its bounds. -/
def boundsIntervals (bounds : Option Nat × Option Nat) : Option (List Interval) :=
  bounds.1.bind fun start => bounds.2.bind fun stop =>
    if start = stop then if start = 0 then some [⟨0, RING_END⟩] else none
    else if start < stop then some [⟨start, stop⟩]
    else some (⟨start, RING_END⟩ :: if stop ≠ 0 then [⟨0, stop⟩] else [])

theorem rangeIntervals_bounds (r : HashRange) : (rangeIntervals r).toOption = boundsIntervals r.bounds := by
  unfold rangeIntervals boundsIntervals HashRange.bounds
  rw [toOption_bind]
  refine Option.bind_congr fun start _ => ?_
  rw [toOption_bind]
  refine Option.bind_congr fun stop _ => ?_
  split_ifs with same zero
  · rw [ensure_true _ zero]
    rfl
  · rw [ensure, if_neg zero]
    rfl
  · rfl
  · rfl
  · rfl

theorem SameFollowers.sorted (same : SameFollowers followers followers') :
    followers.map (sortBy fun n => n.node_id) = followers'.map (sortBy fun n => n.node_id) := by
  rcases same with rfl | ⟨l, l', rfl, rfl, perm, distinct⟩
  · rfl
  · exact congrArg some (sortBy_eq_of_perm perm distinct)

variable {ranges ranges' : List HashRange}

theorem SameRanges.symm (same : SameRanges ranges ranges') : SameRanges ranges' ranges := by
  rcases same with equal | ⟨perm, distinct⟩
  · exact .inl equal.symm
  · refine .inr ⟨perm.symm, ?_⟩
    have starts := perm.map Prod.fst
    rw [map_map, map_map] at starts
    exact starts.nodup_iff.mp distinct

theorem SameFollowers.symm (same : SameFollowers followers followers') : SameFollowers followers' followers := by
  rcases same with rfl | ⟨l, l', rfl, rfl, perm, distinct⟩
  · exact .inl rfl
  · exact .inr ⟨l', l, rfl, rfl, perm.symm, (perm.map _).nodup_iff.mp distinct⟩

variable {s s' : ShardDescriptor}

theorem SameShard.symm (same : SameShard s s') : SameShard s' s := by
  refine ⟨?_, same.ranges.symm, same.followers.symm⟩
  rw [← same.rest]

theorem SameRanges.keyed (same : SameRanges ranges ranges') (all : ranges.mapM keyedRange = .ok out) :
    ∃ out' : List (Nat × HashRange), ranges'.mapM keyedRange = .ok out' ∧ sortBy Prod.fst out = sortBy Prod.fst out' := by
  rw [mapM_ok_iff] at all
  simp only [mapM_ok_iff, keyedRange_bounds] at all ⊢
  have through : ∀ l : List HashRange, (l.map fun r => keyedBounds r.bounds) = (l.map HashRange.bounds).map keyedBounds := fun l => by
    rw [map_map]
    rfl
  rw [through] at all ⊢
  refine sorted_results (same.imp (congrArg _) fun ⟨perm, distinct⟩ => ⟨perm.map _, ?_⟩) all
  -- the key of a range in normal form is its start
  have starts : (out.map fun e => some e.1) = (ranges.map HashRange.bounds).map Prod.fst := by
    refine map_of_results (fun b e found => ?_) all
    obtain ⟨x, start, found⟩ := Option.bind_eq_some_iff.mp found
    obtain ⟨y, _, rfl⟩ := Option.map_eq_some_iff.mp found
    exact start.symm
  rw [map_map] at starts
  rw [show (ranges.map fun r => r.bounds.1) = _ from starts.symm] at distinct
  rw [all]
  have values : (out.map some).filterMap id = out := by simp
  rw [values]
  refine List.Nodup.of_map some ?_
  rwa [map_map]

theorem SameShard.normal (same : SameShard s s') (normal : normalize_shard s = .ok n) : normalize_shard s' = .ok n := by
  obtain ⟨out, all, last⟩ := bind_ok_iff.mp normal
  cases last
  obtain ⟨out', all', sorted⟩ := same.ranges.keyed all
  refine bind_ok_iff.mpr ⟨out', all', ?_⟩
  rw [sorted, same.followers.sorted, ← same.rest]
  rfl

theorem SameShard.normal_eq (same : SameShard s s') : (normalize_shard s).toOption = (normalize_shard s').toOption := by
  cases here : normalize_shard s with
  | ok n => rw [same.normal here]
  | error e =>
    cases there : normalize_shard s' with
    | ok n =>
      rw [same.symm.normal there] at here
      cases here
    | error e' => rfl

/-- What routing needs of a shard. -/
def ShardDescriptor.core (s : ShardDescriptor) : String × UInt64 × NodeAddr × Option Int32 := (s.shard_id, s.epoch, s.leader, s.gpu_id)

/-- The bounds of the active ranges, each with its shard. -/
def boundsOf (shards : List ShardDescriptor) : List ((String × UInt64 × NodeAddr × Option Int32) × (Option Nat × Option Nat)) :=
  (activeRanges shards).map fun p => (p.1.core, p.2.bounds)

theorem boundsOf_eq (shards : List ShardDescriptor) :
    boundsOf shards = shards.flatMap fun s => if s.state = .Active then s.ranges.map fun r => (s.core, r.bounds) else [] := by
  unfold boundsOf activeRanges
  rw [map_flatMap]
  refine flatMap_congr fun s _ => ?_
  split_ifs
  · rw [map_map]
    rfl
  · rfl

theorem SameRanges.perm (same : SameRanges ranges ranges') :
    (ranges.map HashRange.bounds).Perm (ranges'.map HashRange.bounds) := by
  rcases same with equal | ⟨perm, _⟩
  · exact .of_eq equal
  · exact perm

/-- What acceptance and routing depend on. -/
structure Alike (m m' : ShardMapV1) : Prop where
  rest : { m' with shards := m.shards } = m
  ids : (m.shards.map fun s => s.shard_id).Perm (m'.shards.map fun s => s.shard_id)
  normal : (m.shards.map fun s => (normalize_shard s).toOption).Perm (m'.shards.map fun s => (normalize_shard s).toOption)
  checks : (m.shards.map fun s => (s.epoch, s.state, s.ranges.isEmpty)).Perm (m'.shards.map fun s => (s.epoch, s.state, s.ranges.isEmpty))
  bounds : (boundsOf m.shards).Perm (boundsOf m'.shards)

variable {m m' : ShardMapV1}

theorem Alike.symm (alike : Alike m m') : Alike m' m :=
  ⟨by rw [← alike.rest], alike.ids.symm, alike.normal.symm, alike.checks.symm, alike.bounds.symm⟩

theorem forall₂_map_eq {A B : Type} {R : A → A → Prop} {f : A → B} (same : ∀ a a', R a a' → f a = f a') {l l' : List A}
    (all : l.Forall₂ R l') : l.map f = l'.map f := by
  induction all with
  | nil => rfl
  | cons here _ ih => rw [map_cons, map_cons, same _ _ here, ih]

theorem boundsOf_same (all : shards.Forall₂ SameShard shards') : (boundsOf shards).Perm (boundsOf shards') := by
  rw [boundsOf_eq, boundsOf_eq]
  induction all with
  | nil => exact .nil
  | @cons s s' rest rest' here _ ih =>
    rw [flatMap_cons, flatMap_cons]
    refine List.Perm.append ?_ ih
    have core : s.core = s'.core := by rw [← here.rest]; rfl
    have state : s.state = s'.state := by rw [← here.rest]
    rw [core, state]
    split_ifs
    · have pairs := here.ranges.perm.map fun b => (s'.core, b)
      rwa [map_map, map_map] at pairs
    · exact .nil

theorem SameMap.alike (same : SameMap m m') : Alike m m' := by
  obtain ⟨between, all, perm⟩ := same.shards
  have field : ∀ {B : Type} {f : ShardDescriptor → B}, (∀ s s', SameShard s s' → f s = f s') →
      (m.shards.map f).Perm (m'.shards.map f) := fun eq => forall₂_map_eq eq all ▸ perm.map _
  refine ⟨same.rest, field fun s s' same => ?_, field fun s s' same => same.normal_eq, field fun s s' same => ?_,
    (boundsOf_same all).trans ((perm.flatMap_right _).map _)⟩
  · rw [← same.rest]
  · have sizes := same.ranges.perm.length_eq
    rw [length_map, length_map] at sizes
    have empty : s.ranges.isEmpty = s'.ranges.isEmpty := by
      rw [Bool.eq_iff_iff, isEmpty_iff_length_eq_zero, isEmpty_iff_length_eq_zero, sizes]
    rw [empty, ← same.rest]

theorem normalize_shard_id (normal : (normalize_shard s).toOption = some n) : n.shard_id = s.shard_id := by
  obtain ⟨_, _, last⟩ := bind_ok_iff.mp (ok_of_toOption normal)
  cases last
  rfl

theorem Alike.canonical (alike : Alike m m') (distinct : (m.shards.map fun s => s.shard_id).Nodup)
    (canonical : canonicalize_shard_map_v1 m = .ok canon) : canonicalize_shard_map_v1 m' = .ok canon := by
  obtain ⟨out, all, last⟩ := bind_ok_iff.mp canonical
  cases last
  rw [mapM_ok_iff] at all
  have ids : (out.map fun s => s.shard_id) = m.shards.map fun s => s.shard_id :=
    map_of_results (fun _ _ normal => normalize_shard_id normal) all
  have values : (out.map some).filterMap id = out := by simp
  obtain ⟨out', all', sorted⟩ := @sorted_results _ _ _ (fun s : ShardDescriptor => s.shard_id) _ _
    (.inr ⟨alike.normal, by rw [all, values, ids]; exact distinct⟩) out all
  refine bind_ok_iff.mpr ⟨out', mapM_ok_iff.mpr all', ?_⟩
  rw [← sorted, ← alike.rest]
  rfl

theorem Alike.checked (alike : Alike m m') (checked : Checked m.shards) : Checked m'.shards := by
  have same : ∀ s' ∈ m'.shards, ∃ s ∈ m.shards, s.epoch = s'.epoch ∧ s.state = s'.state ∧ s.ranges.isEmpty = s'.ranges.isEmpty := by
    intro s' member
    obtain ⟨s, there, same⟩ := mem_map.mp (alike.checks.mem_iff.mpr (mem_map.mpr ⟨s', member, rfl⟩))
    simp at same
    exact ⟨s, there, same⟩
  refine ⟨alike.ids.nodup_iff.mp checked.ids, fun s' member => ?_, fun s' member active => ?_⟩
  · obtain ⟨s, there, epoch, _⟩ := same s' member
    rw [← epoch]
    exact checked.epochs s there
  · obtain ⟨s, there, _, state, empty⟩ := same s' member
    have filled := checked.ranges s there (state.trans active)
    rw [← isEmpty_eq_false_iff] at filled ⊢
    rw [← empty, filled]

theorem Alike.tiles (alike : Alike m m') (read : Read (activeRanges m.shards) lists)
    (tiles : Tiles Interval.start Interval.stop 0 (sortBy Interval.start lists.flatten) RING_END) :
    ∃ lists', Read (activeRanges m'.shards) lists' ∧
      Tiles Interval.start Interval.stop 0 (sortBy Interval.start lists'.flatten) RING_END := by
  have through : ∀ shards, ((activeRanges shards).map fun p => (rangeIntervals p.2).toOption) =
      (boundsOf shards).map fun q => boundsIntervals q.2 := fun shards => by
    rw [boundsOf, map_map]
    exact map_congr_left fun p _ => rangeIntervals_bounds p.2
  unfold Read at read
  rw [through] at read
  obtain ⟨lists', all, perm⟩ := perm_map_some ((alike.bounds.symm.map fun q => boundsIntervals q.2).trans (.of_eq read))
  refine ⟨lists', (through m'.shards).trans all, ?_⟩
  have distinct : (lists.flatten.map Interval.start).Nodup := by
    rw [← ((sortBy_perm Interval.start lists.flatten).map Interval.start).nodup_iff]
    exact pairwise_map.mpr (tiles.increasing.imp fun less => less.ne)
  rw [← sortBy_eq_of_perm perm.symm.flatten distinct]
  exact tiles

section
variable {digest : ShardMapV1 → String} {m : ShardMapV1}

theorem Alike.accepted (alike : Alike m m') (accepted : Accepted digest m) : Accepted digest m' := by
  obtain ⟨stamped, ⟨canon, canonical, hash⟩, checked, lists, read, tiles⟩ := accepted
  have rest := alike.rest
  have cluster : m'.cluster_id = m.cluster_id := by rw [← rest]
  have version : m'.version = m.version := by rw [← rest]
  refine ⟨⟨?_, ?_, ?_, ?_, ?_, ?_⟩, ⟨canon, alike.canonical checked.ids canonical, ?_⟩, alike.checked checked, alike.tiles read tiles⟩
  · exact (congrArg ShardMapV1.v rest).trans stamped.v
  · exact cluster ▸ stamped.cluster_id
  · exact version ▸ stamped.version
  · exact (congrArg ShardMapV1.hash_fn rest).trans stamped.hash_fn
  · exact (congrArg ShardMapV1.key_encoding rest).trans stamped.key_encoding
  · intro none
    have ids := alike.ids
    rw [none] at ids
    exact stamped.shards (map_eq_nil_iff.mp ids.eq_nil)
  · exact (congrArg ShardMapV1.blake3 rest).trans hash

/-- Where a hash is routed by a map, if the map is accepted. -/
def route (digest : ShardMapV1 → String) (m : ShardMapV1) (h : UInt64) : Option RouteDecision :=
  (RoutingTable.new digest m).toOption.bind fun table => table.route_stream_hash h

theorem route_of_rejected (rejected : ¬ Accepted digest m) (h : UInt64) : route digest m h = none := by
  cases made : RoutingTable.new digest m with
  | error e => rw [route, made]; rfl
  | ok table =>
    obtain ⟨_, valid, _⟩ := bind_ok_iff.mp made
    exact absurd (validate_iff.mp valid) rejected

/-- Bounds with a hash between them. -/
def boundsContain (bounds : Option Nat × Option Nat) (h : UInt64) : Bool :=
  match bounds with
  | (some start, some stop) =>
    if start < stop then decide (start ≤ h.toNat ∧ h.toNat < stop)
    else if start = stop then decide (start = 0)
    else decide (start ≤ h.toNat ∨ h.toNat < stop)
  | _ => false

theorem contains_bounds (r : HashRange) (h : UInt64) : r.contains h = boundsContain r.bounds h := by
  unfold HashRange.contains boundsContain HashRange.bounds
  cases parse_u64_hex r.start_inclusive <;> cases parse_u64_hex r.end_exclusive <;> rfl

theorem Accepted.route_core (accepted : Accepted digest m) (h : UInt64) :
    ∃ shard range, (boundsOf m.shards).filter (fun q => boundsContain q.2 h) = [(shard.core, range)] ∧
      route digest m h = some (decision m shard h) := by
  obtain ⟨shard, range, table, home, made, routed⟩ := accepted.home h
  refine ⟨shard, range.bounds, ?_, ?_⟩
  · have same : (fun q : (String × UInt64 × NodeAddr × Option Int32) × (Option Nat × Option Nat) => boundsContain q.2 h) ∘
        (fun p : ShardDescriptor × HashRange => (p.1.core, p.2.bounds)) = fun p => p.2.contains h :=
      funext fun p => (contains_bounds p.2 h).symm
    rw [boundsOf, filter_map, same, home]
    rfl
  · rw [route, made]
    exact routed

theorem Alike.route (alike : Alike m m') (h : UInt64) : route digest m h = route digest m' h := by
  by_cases accepted : Accepted digest m
  · obtain ⟨shard, range, here, routed⟩ := accepted.route_core h
    obtain ⟨shard', range', there, routed'⟩ := (alike.accepted accepted).route_core h
    have one := alike.bounds.filter fun q => boundsContain q.2 h
    rw [here, there] at one
    have core : shard.core = shard'.core := congrArg Prod.fst (singleton_inj.mp (perm_singleton.mp one))
    have version : m.version = m'.version := by rw [← alike.rest]
    simp [ShardDescriptor.core] at core
    obtain ⟨id, epoch, leader, gpu_id⟩ := core
    rw [routed, routed', decision, decision, id, epoch, leader, gpu_id, version]
  · rw [route_of_rejected accepted, route_of_rejected fun accepted' => accepted (alike.symm.accepted accepted')]

end

theorem ofDigitChars_pad4 (n : Nat) : Nat.ofDigitChars 10 (pad4 n) 0 = n := by
  rw [pad4, Nat.ofDigitChars_append, Nat.ofDigitChars_replicate_zero, Nat.mul_zero, Nat.ofDigitChars_toDigits (by decide) (by decide)]

theorem devShardId_injective : Function.Injective devShardId := by
  intro a b same
  have digits : pad4 a = pad4 b := append_cancel_left (String.ofList_injective same)
  rw [← ofDigitChars_pad4 a, digits, ofDigitChars_pad4]

section
variable {node : DevNode} {count : Nat}

/-- The interval of one of the shards. -/
def devInterval (count i : Nat) : Interval :=
  ⟨RING_END / count * i, if i = count - 1 then RING_END else RING_END / count * (i + 1)⟩

theorem step_pos (some_shard : 0 < count) (few : count < 2 ^ 32) : 0 < RING_END / count :=
  Nat.div_pos (few.le.trans (by decide)) some_shard

theorem step_lt (some_shard : 0 < count) (few : count < 2 ^ 32) (inside : i < count) : RING_END / count * i < RING_END :=
  calc RING_END / count * i < RING_END / count * count := Nat.mul_lt_mul_of_pos_left inside (step_pos some_shard few)
    _ ≤ RING_END := Nat.div_mul_le_self RING_END count

section
variable (few : count < 2 ^ 32) {i : Nat} (inside : i < count) {r : HashRange} (own : r ∈ (devShard node count i).ranges)
include few inside own

theorem dev_bounds : parse_u64_hex r.start_inclusive = .ok (RING_END / count * i) ∧
      parse_u64_hex r.end_exclusive = .ok (if i = count - 1 then 0 else RING_END / count * (i + 1)) := by
  have some_shard : 0 < count := by omega
  rw [mem_singleton.mp own]
  refine ⟨parse_format (step_lt some_shard few inside), parse_format ?_⟩
  split_ifs with last
  · decide
  · exact step_lt some_shard few (by omega)

theorem dev_rangeIntervals : rangeIntervals r = .ok [devInterval count i] := by
  obtain ⟨start, stop⟩ := dev_bounds few inside own
  have step := step_pos (by omega) few
  rw [rangeIntervals, start, stop, ok_bind, ok_bind, devInterval]
  by_cases last : i = count - 1
  · simp only [if_pos last]
    rcases Nat.eq_zero_or_pos i with zero | pos
    · subst zero
      rfl
    · have positive : 0 < RING_END / count * i := Nat.mul_pos step pos
      rw [if_neg positive.ne', if_neg (Nat.not_lt_zero _)]
      rfl
  · simp only [if_neg last]
    have more : RING_END / count * i < RING_END / count * (i + 1) := Nat.mul_lt_mul_of_pos_left (Nat.lt_succ_self i) step
    rw [if_neg more.ne, if_pos more]
    rfl

end

theorem dev_normal (few : count < 2 ^ 32) (inside : i < count) :
    normalize_shard (devShard node count i) = .ok (devShard node count i) := by
  obtain ⟨start, stop⟩ := @dev_bounds node count few i inside _ (mem_singleton_self _)
  have keyed : (devShard node count i).ranges.mapM keyedRange =
      .ok ((devShard node count i).ranges.map fun r => (RING_END / count * i, r)) := by
    refine mapM_ok_iff.mpr ?_
    simp [devShard, keyedRange, normalize_range, start, stop, Except.toOption]
  rw [normalize_shard, keyed]
  rfl

theorem dev_tiles (few : count < 2 ^ 32) {n k : Nat} (whole : k + n + 1 = count) :
    Tiles Interval.start Interval.stop (RING_END / count * k) ((List.range' k (n + 1)).map (devInterval count)) RING_END := by
  have step := step_pos (by omega) few
  induction n generalizing k with
  | zero =>
    have last : k = count - 1 := by omega
    have inside : k < count := by omega
    have stop : (devInterval count k).stop = RING_END := if_pos last
    exact ⟨rfl, stop ▸ step_lt (by omega) few inside, stop⟩
  | succ n ih =>
    have stop : (devInterval count k).stop = RING_END / count * (k + 1) := if_neg (by omega)
    rw [List.range'_succ, map_cons]
    refine ⟨rfl, ?_, ?_⟩
    · rw [stop]
      exact Nat.mul_lt_mul_of_pos_left (Nat.lt_succ_self k) step
    · rw [stop]
      exact ih (by omega)

theorem dev_read (few : count < 2 ^ 32) :
    Read (activeRanges ((List.range count).map (devShard node count))) ((List.range count).map fun i => [devInterval count i]) := by
  rw [Read, activeRanges, flatMap_map, map_flatMap, map_map, map_eq_flatMap]
  refine flatMap_congr fun i inside => ?_
  have intervals := @dev_rangeIntervals node count few i (mem_range.mp inside) _ (mem_singleton_self _)
  exact congrArg (fun r : ShardMapResult (List Interval) => [r.toOption]) intervals

end

theorem default_accepted {digest : ShardMapV1 → String} {cluster : String} {node : DevNode} {count : UInt32} (some_shard : count ≠ 0)
    (named : ¬ Facts.isBlank cluster) : ∃ m, default_dev_shard_map_v1 digest cluster node count = .ok m ∧ Accepted digest m := by
  have pos : 0 < count.toNat := Nat.pos_of_ne_zero fun zero => some_shard (UInt32.toNat_inj.mp zero)
  have few : count.toNat < 2 ^ 32 := count.toNat_lt
  obtain ⟨n, size⟩ := Nat.exists_eq_succ_of_ne_zero pos.ne'
  generalize shards_eq : (List.range count.toNat).map (devShard node count.toNat) = shards
  have each : ∀ s ∈ shards, ∃ i < count.toNat, s = devShard node count.toNat i := by
    intro s member
    rw [← shards_eq] at member
    obtain ⟨i, inside, rfl⟩ := mem_map.mp member
    exact ⟨i, mem_range.mp inside, rfl⟩
  have normal : shards.mapM normalize_shard = .ok shards := by
    refine mapM_ok_iff.mpr (map_congr_left fun s member => ?_)
    obtain ⟨i, inside, rfl⟩ := each s member
    rw [dev_normal few inside]
    rfl
  unfold default_dev_shard_map_v1 compute_shard_map_v1_blake3_hex canonicalize_shard_map_v1
  simp only [Nat.max_eq_left pos, shards_eq, normal, ok_bind, pure, Except.pure]
  refine ⟨_, rfl, ⟨rfl, named, (by decide : (1 : UInt64) ≠ 0), rfl, rfl, ?_⟩, ⟨_, ?_, rfl⟩, ⟨?_, ?_, ?_⟩, ?_⟩
  · rw [← shards_eq, size]
    simp
  · rw [canonicalize_shard_map_v1, normal]
    rfl
  · rw [← shards_eq, map_map]
    exact nodup_range.map fun a b same => Nat.succ_injective (devShardId_injective same)
  · intro s member
    obtain ⟨i, _, rfl⟩ := each s member
    exact (by decide : (1 : UInt64) ≠ 0)
  · intro s member _ none
    obtain ⟨i, _, rfl⟩ := each s member
    cases none
  · refine ⟨_, shards_eq ▸ dev_read few, ?_⟩
    have tiles := @dev_tiles count.toNat few n 0 (by omega)
    rw [Nat.mul_zero, ← Nat.succ_eq_add_one, ← size, ← range_eq_range'] at tiles
    rw [← flatMap_def, ← map_eq_flatMap, tiles.sorted]
    exact tiles

/-- In an accepted map one range of one active shard has a hash, and the hash is routed to that shard. Other orders
and spellings change neither acceptance nor routing, and the map of a development node is accepted. -/
theorem one_home (digest : ShardMapV1 → String) :
    (∀ m, validate_shard_map_v1 digest m = .ok () → ∀ h, ∃ shard range,
      (activeRanges m.shards).filter (fun p => p.2.contains h) = [(shard, range)] ∧ route digest m h = some (decision m shard h)) ∧
    (∀ m m', SameMap m m' → (validate_shard_map_v1 digest m = .ok () ↔ validate_shard_map_v1 digest m' = .ok ()) ∧
      ∀ h, route digest m h = route digest m' h) ∧
    ∀ cluster node (count : UInt32), 1 ≤ count → ¬ Facts.isBlank cluster →
      ∃ m, default_dev_shard_map_v1 digest cluster node count = .ok m ∧ validate_shard_map_v1 digest m = .ok () := by
  refine ⟨fun m valid h => ?_, fun m m' same => ⟨?_, same.alike.route⟩, fun cluster node count some_shard named => ?_⟩
  · obtain ⟨shard, range, table, home, made, routed⟩ := (validate_iff.mp valid).home h
    refine ⟨shard, range, home, ?_⟩
    rw [route, made]
    exact routed
  · rw [validate_iff, validate_iff]
    exact ⟨same.alike.accepted, same.alike.symm.accepted⟩
  · have some_shard : count ≠ 0 := by
      rintro rfl
      exact absurd some_shard (by decide)
    obtain ⟨m, made, accepted⟩ := @default_accepted digest cluster node count some_shard named
    exact ⟨m, made, validate_iff.mpr accepted⟩

def sampleNode : NodeAddr := { node_id := "n1", grpc_addr := "n1:50051", http_addr := "n1:8080" }

def sampleShard (shard_id start stop : String) : ShardDescriptor :=
  { shard_id, epoch := 1, state := .Active, ranges := [⟨start, stop⟩], leader := sampleNode
    followers := none, data_dir := none, gpu_id := none }

def sampleShards (shards : List ShardDescriptor) : ShardMapV1 :=
  { v := 1, cluster_id := "dev", version := 1, created_at := "", hash_fn := SHARDMAP_HASH_FN_V1
    key_encoding := SHARDMAP_KEY_ENCODING_V1, shards, blake3 := "", prev_blake3 := none }

def sampleAround : ShardDescriptor := sampleShard "b" "0xC000000000000000" "4"

def sampleInside : ShardDescriptor := sampleShard "a" "0x4" "0xc000000000000000"

/-- A map whose second range goes around the end of the ring, and the same map in another order and spelling. -/
theorem one_home_around :
    ∃ shard range, (activeRanges [sampleInside, sampleAround]).filter (fun p => p.2.contains 3) = [(shard, range)] ∧
      route (fun _ => "") (sampleShards [sampleInside, sampleAround]) 3 =
        some (decision (sampleShards [sampleInside, sampleAround]) shard 3) ∧
      route (fun _ => "") (sampleShards [sampleInside, sampleAround]) 3 =
        route (fun _ => "") (sampleShards [sampleShard "b" "c000000000000000" " 0x04 ", sampleInside]) 3 := by
  obtain ⟨homes, forms, _⟩ := one_home fun _ => ""
  obtain ⟨shard, range, home, routed⟩ := homes (sampleShards [sampleInside, sampleAround]) (by decide +kernel) 3
  refine ⟨shard, range, home, routed, (forms _ _ ⟨rfl, [sampleInside, sampleShard "b" "c000000000000000" " 0x04 "], ?_, .swap _ _ _⟩).2 3⟩
  refine .cons ⟨rfl, .inl rfl, .inl rfl⟩ (.cons ⟨rfl, .inl ?_, .inl rfl⟩ .nil)
  decide +kernel

end Crux.Shards
