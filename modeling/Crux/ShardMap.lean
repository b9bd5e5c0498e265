import Crux.Bytes
import Crux.FactTypes
import Crux.Tiling

/-!
# Shard maps

The map from ranges of stream hashes to shards: `corecrux-types/src/lib.rs`
(normal form, digest and validation) and `corecruxd/src/shard_map.rs` (routing
and the map of a development node). The JSON of the normal form and its BLAKE3
are one parameter, `digest`.
-/

namespace Crux.Shards
open Crux.Bytes Crux.Tiling

structure HashRange where
  start_inclusive : String
  end_exclusive : String
deriving DecidableEq

structure NodeAddr where
  node_id : String
  grpc_addr : String
  http_addr : String
deriving DecidableEq

inductive ShardState where
  | Active
  | Draining
  | Retired
deriving DecidableEq

structure ShardDescriptor where
  shard_id : String
  epoch : UInt64
  state : ShardState
  ranges : List HashRange
  leader : NodeAddr
  followers : Option (List NodeAddr)
  data_dir : Option String
  gpu_id : Option Int32
deriving DecidableEq

structure ShardMapV1 where
  v : UInt32
  cluster_id : String
  version : UInt64
  created_at : String
  hash_fn : String
  key_encoding : String
  shards : List ShardDescriptor
  blake3 : String
  prev_blake3 : Option String
deriving DecidableEq

inductive ShardMapError where
  | Invalid (msg : String)
deriving DecidableEq

abbrev ShardMapResult (α : Type) := Except ShardMapError α

def SHARDMAP_V1 : UInt32 := 1
def SHARDMAP_HASH_FN_V1 : String := "xxhash64-v1"
def SHARDMAP_KEY_ENCODING_V1 : String := "utf8-nul-delimited-v1"

def RING_END : Nat := 2 ^ 64

inductive ParseIntError where
  | Empty
  | InvalidDigit
  | PosOverflow
deriving DecidableEq

def ParseIntError.text : ParseIntError → String
  | .Empty => "cannot parse integer from empty string"
  | .InvalidDigit => "invalid digit found in string"
  | .PosOverflow => "number too large to fit in target type"

/-- `to_digit(16)`. -/
def to_digit (c : Char) : Option Nat :=
  if '0' ≤ c ∧ c ≤ '9' then some (c.toNat - '0'.toNat)
  else if 'a' ≤ c ∧ c ≤ 'f' then some (c.toNat - 'a'.toNat + 10)
  else if 'A' ≤ c ∧ c ≤ 'F' then some (c.toNat - 'A'.toNat + 10)
  else none

def readDigits : List Char → Nat → Except ParseIntError Nat
  | [], n => .ok n
  | c :: rest, n =>
    match to_digit c with
    | none => .error .InvalidDigit
    | some d => if n * 16 + d < RING_END then readDigits rest (n * 16 + d) else .error .PosOverflow

/-- `u64::from_str_radix(_, 16)`, which takes a plus sign. -/
def from_str_radix (s : List Char) : Except ParseIntError Nat :=
  match s with
  | [] => .error .Empty
  | ['+'] => .error .InvalidDigit
  | '+' :: digits => readDigits digits 0
  | digits => readDigits digits 0

def trim (s : List Char) : List Char :=
  ((s.dropWhile Facts.is_whitespace).reverse.dropWhile Facts.is_whitespace).reverse

def parse_u64_hex (input : String) : ShardMapResult Nat :=
  let s := trim input.toList
  let s := if ['0', 'x'].isPrefixOf s then s.drop 2 else s
  if s = [] then .error (.Invalid "empty hex string")
  else (from_str_radix s).mapError fun e => .Invalid ("invalid u64 hex '" ++ input ++ "': " ++ e.text)

def hexDigit (d : Nat) : Char := "0123456789abcdef".toList.getD d '0'

/-- The lowest digits of a number, most significant first. -/
def hexDigits : Nat → Nat → List Char
  | 0, _ => []
  | w + 1, n => hexDigits w (n / 16) ++ [hexDigit (n % 16)]

def format_u64_hex (v : Nat) : String := String.ofList (['0', 'x'] ++ hexDigits 16 v)

def normalize_range (r : HashRange) : ShardMapResult HashRange := do
  let s ← parse_u64_hex r.start_inclusive
  let e ← parse_u64_hex r.end_exclusive
  return { start_inclusive := format_u64_hex s, end_exclusive := format_u64_hex e }

/-- A range in normal form with its start. -/
def keyedRange (r : HashRange) : ShardMapResult (Nat × HashRange) := do
  let nr ← normalize_range r
  let start ← parse_u64_hex nr.start_inclusive
  return (start, nr)

def normalize_shard (s : ShardDescriptor) : ShardMapResult ShardDescriptor := do
  let ranges ← s.ranges.mapM keyedRange
  return { s with
    ranges := (sortBy Prod.fst ranges).map Prod.snd
    followers := s.followers.map (sortBy fun n => n.node_id) }

def canonicalize_shard_map_v1 (map : ShardMapV1) : ShardMapResult ShardMapV1 := do
  let shards ← map.shards.mapM normalize_shard
  return { map with blake3 := "", shards := sortBy (fun s => s.shard_id) shards }

section
variable (digest : ShardMapV1 → String)

def compute_shard_map_v1_blake3_hex (map : ShardMapV1) : ShardMapResult String := do
  let canon ← canonicalize_shard_map_v1 map
  return digest canon

structure Interval where
  start : Nat
  stop : Nat
deriving DecidableEq

/-- The intervals of a range: two if it goes around the end of the ring. -/
def rangeIntervals (r : HashRange) : ShardMapResult (List Interval) := do
  let start ← parse_u64_hex r.start_inclusive
  let stop ← parse_u64_hex r.end_exclusive
  if start = stop then
    ensure (start = 0) (.Invalid ("range startInclusive==endExclusive is only valid for full-ring [0,0) (got startInclusive=" ++
      r.start_inclusive ++ ")"))
    return [⟨0, RING_END⟩]
  else if start < stop then return [⟨start, stop⟩]
  else return ⟨start, RING_END⟩ :: if stop ≠ 0 then [⟨0, stop⟩] else []

/-- The intervals of a shard, which count only while it is active. -/
def shardIntervals (shard : ShardDescriptor) : ShardMapResult (List Interval) :=
  if shard.state = .Active then do
    let intervals ← shard.ranges.mapM rangeIntervals
    return intervals.flatten
  else return []

/-- The intervals of the active shards, and the checks of all shards on the way. -/
def activeIntervals : List ShardDescriptor → List String → ShardMapResult (List Interval)
  | [], _ => .ok []
  | shard :: rest, seen_shard_ids => do
    ensure (shard.shard_id ∉ seen_shard_ids) (.Invalid ("duplicate shardId '" ++ shard.shard_id ++ "'"))
    ensure (shard.epoch ≠ 0) (.Invalid ("shard '" ++ shard.shard_id ++ "' epoch must be >= 1"))
    ensure (shard.state = .Active → shard.ranges ≠ [])
      (.Invalid ("shard '" ++ shard.shard_id ++ "' ranges must be non-empty"))
    let here ← shardIntervals shard
    let later ← activeIntervals rest (shard.shard_id :: seen_shard_ids)
    return here ++ later

def validate_shard_map_v1 (map : ShardMapV1) : ShardMapResult Unit := do
  ensure (map.v = SHARDMAP_V1) (.Invalid s!"unsupported shard map version v={map.v} (expected {SHARDMAP_V1})")
  ensure (¬ Facts.isBlank map.cluster_id) (.Invalid "clusterId must be non-empty")
  ensure (map.version ≠ 0) (.Invalid "version must be >= 1")
  ensure (map.hash_fn = SHARDMAP_HASH_FN_V1) (.Invalid ("hashFn must be '" ++ SHARDMAP_HASH_FN_V1 ++ "'"))
  ensure (map.key_encoding = SHARDMAP_KEY_ENCODING_V1) (.Invalid ("keyEncoding must be '" ++ SHARDMAP_KEY_ENCODING_V1 ++ "'"))
  ensure (map.shards ≠ []) (.Invalid "shards must be non-empty")
  let computed ← compute_shard_map_v1_blake3_hex digest map
  ensure (map.blake3 = computed) (.Invalid ("blake3 mismatch: expected " ++ computed ++ ", got " ++ map.blake3))
  let intervals ← activeIntervals map.shards []
  ensure (intervals ≠ []) (.Invalid "no ACTIVE ranges found in shard map")
  let intervals := sortBy Interval.start intervals
  ensure (intervals.IsChain fun a b => a.stop ≤ b.start) (.Invalid "active ranges overlap")
  ensure (intervals.head?.map Interval.start = some 0 ∧ intervals.getLast?.map Interval.stop = some RING_END)
    (.Invalid "active ranges do not cover full ring (missing start/end)")
  ensure (intervals.IsChain fun a b => a.stop = b.start)
    (.Invalid "active ranges do not cover full ring (gap detected)")

structure RouteInterval extends Interval where
  shard_idx : Nat
deriving DecidableEq

structure RoutingTable where
  shard_map : ShardMapV1
  intervals : List RouteInterval

structure RouteDecision where
  stream_hash : UInt64
  shard_id : String
  epoch : UInt64
  shard_map_version : UInt64
  leader_grpc_addr : String
  leader_node_id : String
  gpu_id : Option Int32
deriving DecidableEq

/-- The intervals of the active shards from an index on. -/
def routeIntervals : Nat → List ShardDescriptor → ShardMapResult (List RouteInterval)
  | _, [] => .ok []
  | idx, shard :: rest => do
    let here ← shardIntervals shard
    let later ← routeIntervals (idx + 1) rest
    return here.map (fun iv => { iv with shard_idx := idx }) ++ later

def build_intervals (map : ShardMapV1) : ShardMapResult (List RouteInterval) := do
  let intervals ← routeIntervals 0 map.shards
  return sortBy (fun iv => iv.start) intervals

def RoutingTable.new (shard_map : ShardMapV1) : ShardMapResult RoutingTable := do
  validate_shard_map_v1 digest shard_map
  let intervals ← build_intervals shard_map
  return { shard_map, intervals }

end

/-- The number of intervals before the first that does not meet the condition; the list is sorted by it. -/
def partition_point {α : Type} (l : List α) (p : α → Bool) : Nat := (l.takeWhile p).length

def RoutingTable.route_stream_hash (table : RoutingTable) (stream_hash : UInt64) : Option RouteDecision :=
  let h := stream_hash.toNat
  let idx := partition_point table.intervals fun iv => decide (iv.start ≤ h)
  if idx = 0 then none
  else do
    let iv ← table.intervals[idx - 1]?
    if iv.stop ≤ h ∨ RING_END < iv.stop then none
    else do
      let shard ← table.shard_map.shards[iv.shard_idx]?
      return { stream_hash, shard_id := shard.shard_id, epoch := shard.epoch, shard_map_version := table.shard_map.version
               leader_grpc_addr := shard.leader.grpc_addr, leader_node_id := shard.leader.node_id, gpu_id := shard.gpu_id }

/-- A number in decimal, filled up with zeros to four digits. -/
def pad4 (n : Nat) : List Char := List.replicate (4 - (Nat.toDigits 10 n).length) '0' ++ Nat.toDigits 10 n

def devShardId (num : Nat) : String := String.ofList ("shard-".toList ++ pad4 num)

/-- The arguments of the default map: where the node is, and the directory of a shard. -/
structure DevNode where
  created_at : String
  node : NodeAddr
  data_dir : String → String
  gpu_id : Option Int32

def devShard (node : DevNode) (shard_count i : Nat) : ShardDescriptor :=
  let step := RING_END / shard_count
  { shard_id := devShardId (i + 1)
    epoch := 1
    state := .Active
    ranges := [{
      start_inclusive := format_u64_hex (step * i)
      end_exclusive := format_u64_hex (if i = shard_count - 1 then 0 else step * (i + 1)) }]
    leader := node.node
    followers := none
    data_dir := some (node.data_dir (devShardId (i + 1)))
    gpu_id := node.gpu_id }

def default_dev_shard_map_v1 (digest : ShardMapV1 → String) (cluster_id : String) (node : DevNode) (shard_count : UInt32) :
    ShardMapResult ShardMapV1 := do
  let count := max shard_count.toNat 1
  let map : ShardMapV1 :=
    { v := 1
      cluster_id := cluster_id
      version := 1
      created_at := node.created_at
      hash_fn := SHARDMAP_HASH_FN_V1
      key_encoding := SHARDMAP_KEY_ENCODING_V1
      shards := (List.range count).map (devShard node count)
      blake3 := ""
      prev_blake3 := none }
  let blake3 ← compute_shard_map_v1_blake3_hex digest map
  return { map with blake3 := blake3 }

end Crux.Shards
