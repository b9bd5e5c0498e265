import Crux.SegmentTypes

/-!
# The hash and compression functions written out

`Primitives` leaves the hash and compression crates abstract. Here they are
written out: BLAKE3 in its plain hash mode, the 64-bit xxHash, and the LZ4 block
format with an encoder that emits literals only, which is what a compressor
gives for an input too short to hold a match.
-/

namespace Crux.Reference
open Crux.Bytes Crux.Segment List

def rotr (x : UInt32) (n : UInt32) : UInt32 := (x >>> n) ||| (x <<< (32 - n))

def blakeIv : List UInt32 :=
  [0x6A09E667, 0xBB67AE85, 0x3C6EF372, 0xA54FF53A, 0x510E527F, 0x9B05688C, 0x1F83D9AB, 0x5BE0CD19]

/-- The mixing function on four words of the state. -/
def blakeMix (v : List UInt32) (a b c d : Nat) (mx my : UInt32) : List UInt32 :=
  let va := v.getD a 0 + v.getD b 0 + mx
  let vd := rotr (v.getD d 0 ^^^ va) 16
  let vc := v.getD c 0 + vd
  let vb := rotr (v.getD b 0 ^^^ vc) 12
  let va := va + vb + my
  let vd := rotr (vd ^^^ va) 8
  let vc := vc + vd
  let vb := rotr (vb ^^^ vc) 7
  (((v.set a va).set b vb).set c vc).set d vd

/-- One round: the columns, then the diagonals. -/
def blakeRound (v m : List UInt32) : List UInt32 :=
  let w := fun i => m.getD i 0
  let v := blakeMix v 0 4 8 12 (w 0) (w 1)
  let v := blakeMix v 1 5 9 13 (w 2) (w 3)
  let v := blakeMix v 2 6 10 14 (w 4) (w 5)
  let v := blakeMix v 3 7 11 15 (w 6) (w 7)
  let v := blakeMix v 0 5 10 15 (w 8) (w 9)
  let v := blakeMix v 1 6 11 12 (w 10) (w 11)
  let v := blakeMix v 2 7 8 13 (w 12) (w 13)
  blakeMix v 3 4 9 14 (w 14) (w 15)

def blakePermute (m : List UInt32) : List UInt32 :=
  [2, 6, 3, 10, 7, 0, 4, 13, 1, 11, 12, 5, 9, 14, 15, 8].map fun i => m.getD i 0

def blakeRounds : Nat → List UInt32 → List UInt32 → List UInt32
  | 0, v, _ => v
  | n + 1, v, m => blakeRounds n (blakeRound v m) (blakePermute m)

/-- The chaining value after one block. -/
def blakeCompress (cv m : List UInt32) (counter : Nat) (len flags : UInt32) : List UInt32 :=
  let v := blakeRounds 7 (cv ++ blakeIv.take 4 ++
    [UInt32.ofNat counter, UInt32.ofNat (counter / 4294967296), len, flags]) m
  List.zipWith (· ^^^ ·) (v.take 8) (v.drop 8)

/-- The sixteen words of a block, padded with zeros. -/
def blakeWords (bytes : Bytes) : List UInt32 :=
  (List.range 16).map fun i => UInt32.ofNat (ofLe (slice (bytes ++ List.replicate 64 0) (4 * i) (4 * i + 4)))

/-- The blocks of a chunk: the first carries flag 1, the last flag 2. -/
def blakeChunk : Nat → List UInt32 → Nat → UInt32 → Bytes → UInt32 → List UInt32
  | 0, cv, _, _, _, _ => cv
  | fuel + 1, cv, counter, start, bytes, root =>
    if bytes.length ≤ 64 then
      blakeCompress cv (blakeWords bytes) counter (UInt32.ofNat bytes.length) (start ||| 2 ||| root)
    else blakeChunk fuel (blakeCompress cv (blakeWords (bytes.take 64)) counter 64 start) counter 0 (bytes.drop 64) root

/-- The largest power of two below a number of chunks. -/
def leftChunks : Nat → Nat → Nat
  | 0, p => p
  | fuel + 1, chunks => if chunks ≤ 2 then 1 else 2 * leftChunks fuel ((chunks + 1) / 2)

/-- The tree over the chunks: a parent carries flag 4, the root flag 8. -/
def blakeTree : Nat → Nat → Bytes → UInt32 → List UInt32
  | 0, counter, bytes, root => blakeChunk 17 blakeIv counter 1 bytes root
  | fuel + 1, counter, bytes, root =>
    if bytes.length ≤ 1024 then blakeChunk 17 blakeIv counter 1 bytes root
    else
      let left := leftChunks fuel ((bytes.length + 1023) / 1024)
      blakeCompress blakeIv
        (blakeTree fuel counter (bytes.take (left * 1024)) 0 ++
          blakeTree fuel (counter + left) (bytes.drop (left * 1024)) 0) 0 64 (4 ||| root)

def blake3 (bytes : Bytes) : FixedBytes 32 := fixed 32 ((blakeTree 64 0 bytes 8).flatMap u32le)

/-- The published digest of the empty input. -/
example : (blake3 []).val.take 8 = [0xaf, 0x13, 0x49, 0xb9, 0xf5, 0xf9, 0xa1, 0xa6] := by decide +kernel

def rotl64 (x n : UInt64) : UInt64 := (x <<< n) ||| (x >>> (64 - n))

def xxP1 : UInt64 := 11400714785074694791
def xxP2 : UInt64 := 14029467366897019727
def xxP3 : UInt64 := 1609587929392839161
def xxP4 : UInt64 := 9650029242287828579
def xxP5 : UInt64 := 2870177450012600261

def xxRound (acc x : UInt64) : UInt64 := rotl64 (acc + x * xxP2) 31 * xxP1

def xxMerge (h v : UInt64) : UInt64 := (h ^^^ xxRound 0 v) * xxP1 + xxP4

/-- The stripes of thirty-two bytes, and what remains of the input. -/
def xxStripes : Nat → UInt64 → UInt64 → UInt64 → UInt64 → Bytes → UInt64 × Bytes
  | 0, _, _, _, _, bytes => (0, bytes)
  | fuel + 1, v1, v2, v3, v4, bytes =>
    if bytes.length < 32 then
      let h := rotl64 v1 1 + rotl64 v2 7 + rotl64 v3 12 + rotl64 v4 18
      (xxMerge (xxMerge (xxMerge (xxMerge h v1) v2) v3) v4, bytes)
    else
      xxStripes fuel (xxRound v1 (u64At bytes 0)) (xxRound v2 (u64At bytes 8)) (xxRound v3 (u64At bytes 16))
        (xxRound v4 (u64At bytes 24)) (bytes.drop 32)

/-- The tail: eight bytes at a time, then four, then one. -/
def xxTail : Nat → UInt64 → Bytes → UInt64
  | 0, h, _ => h
  | fuel + 1, h, bytes =>
    if 8 ≤ bytes.length then xxTail fuel (rotl64 (h ^^^ xxRound 0 (u64At bytes 0)) 27 * xxP1 + xxP4) (bytes.drop 8)
    else if 4 ≤ bytes.length then
      xxTail fuel (rotl64 (h ^^^ ((u32At bytes 0).toUInt64 * xxP1)) 23 * xxP2 + xxP3) (bytes.drop 4)
    else
      match bytes with
      | [] => h
      | b :: rest => xxTail fuel (rotl64 (h ^^^ (b.toUInt64 * xxP5)) 11 * xxP1) rest

def xxAvalanche (h : UInt64) : UInt64 :=
  let h := (h ^^^ (h >>> 33)) * xxP2
  let h := (h ^^^ (h >>> 29)) * xxP3
  h ^^^ (h >>> 32)

def xxh64 (bytes : Bytes) (seed : UInt64) : UInt64 :=
  let (h, rest) :=
    if bytes.length < 32 then (seed + xxP5, bytes)
    else xxStripes (bytes.length + 1) (seed + xxP1 + xxP2) (seed + xxP2) seed (seed - xxP1) bytes
  xxAvalanche (xxTail (rest.length + 1) (h + UInt64.ofNat bytes.length) rest)

/-- The published hash of the empty input under seed zero. -/
example : xxh64 [] 0 = 0xEF46DB3751D8E999 := by decide +kernel

/-- The bytes that extend a length past the fifteen of its nibble. -/
def lz4Extend : Nat → Nat → Bytes
  | 0, n => [UInt8.ofNat n]
  | fuel + 1, n => if n < 255 then [UInt8.ofNat n] else 255 :: lz4Extend fuel (n - 255)

/-- One sequence of literals. -/
def lz4_compress (x : Bytes) : Bytes :=
  if x.length < 15 then UInt8.ofNat (x.length * 16) :: x
  else 240 :: (lz4Extend (x.length / 255) (x.length - 15) ++ x)

/-- A length: the nibble, extended while it is full. -/
def lz4ReadExtend : Bytes → Option (Nat × Bytes)
  | [] => none
  | b :: rest => if b = 255 then (lz4ReadExtend rest).map fun (n, r) => (n + 255, r) else some (b.toNat, rest)

def lz4ReadLen (nibble : Nat) (bytes : Bytes) : Option (Nat × Bytes) :=
  if nibble < 15 then some (nibble, bytes) else (lz4ReadExtend bytes).map fun (n, r) => (n + 15, r)

/-- Copy a match byte by byte, so that it may overlap itself. -/
def lz4Copy : Nat → Nat → Bytes → Bytes
  | 0, _, out => out
  | n + 1, offset, out => lz4Copy n offset (out ++ [out.getD (out.length - offset) 0])

def lz4Sequences : Nat → Bytes → Bytes → Nat → Except String Bytes
  | 0, _, _, _ => .error "literal is out of bounds of the input"
  | fuel + 1, input, out, size =>
    match input with
    | [] => .error "expected another byte, found none"
    | token :: input =>
      match lz4ReadLen (token.toNat / 16) input with
      | none => .error "expected another byte, found none"
      | some (literals, input) =>
        if input.length < literals then .error "literal is out of bounds of the input"
        else
          let out := out ++ input.take literals
          let input := input.drop literals
          if size < out.length then .error "provided output is too small for the decompressed data"
          else if input = [] then .ok out
          else
            match input with
            | lo :: hi :: input =>
              let offset := lo.toNat + 256 * hi.toNat
              match lz4ReadLen (token.toNat % 16) input with
              | none => .error "expected another byte, found none"
              | some (extra, input) =>
                if offset = 0 ∨ out.length < offset then .error "the offset to copy is not contained in the decompressed buffer"
                else if size < out.length + (extra + 4) then
                  .error "provided output is too small for the decompressed data"
                else lz4Sequences fuel input (lz4Copy (extra + 4) offset out) size
            | _ => .error "expected another byte, found none"

def lz4_decompress (input : Bytes) (size : Nat) : Except String Bytes := lz4Sequences (input.length + 1) input [] size

theorem lz4ReadExtend_lz4Extend (fuel n : Nat) (rest : Bytes) (enough : n < 255 * (fuel + 1)) :
    lz4ReadExtend (lz4Extend fuel n ++ rest) = some (n, rest) := by
  induction fuel generalizing n with
  | zero =>
    have low : UInt8.ofNat n ≠ 255 := by
      intro same
      have := congrArg UInt8.toNat same
      rw [UInt8.toNat_ofNat'] at this
      have : n % 2 ^ 8 = 255 := this
      omega
    have value : n % 2 ^ 8 = n := by omega
    simp [lz4Extend, lz4ReadExtend, low]
    omega
  | succ fuel ih =>
    by_cases small : n < 255
    · have low : UInt8.ofNat n ≠ 255 := by
        intro same
        have := congrArg UInt8.toNat same
        rw [UInt8.toNat_ofNat'] at this
        have : n % 2 ^ 8 = 255 := this
        omega
      simp [lz4Extend, lz4ReadExtend, small, low]
      omega
    · have later := ih (n - 255) (by omega)
      simp [lz4Extend, lz4ReadExtend, small, later]
      omega

theorem lz4_decompress_compress (x : Bytes) : lz4_decompress (lz4_compress x) x.length = .ok x := by
  unfold lz4_decompress lz4_compress
  by_cases short : x.length < 15
  · have nibble : x.length * 16 % 256 / 16 = x.length := by omega
    simp [short, lz4Sequences, nibble, lz4ReadLen]
  · have extend := lz4ReadExtend_lz4Extend (x.length / 255) (x.length - 15) x (by omega)
    have back : x.length - 15 + 15 = x.length := by omega
    simp [short, lz4Sequences, lz4ReadLen, extend, back]

theorem lz4_compress_some (x : Bytes) : lz4_compress x ≠ [] := by
  unfold lz4_compress
  split_ifs <;> simp

def primitives : Primitives where
  blake3 := blake3
  xxh64 := xxh64
  lz4_compress := lz4_compress
  lz4_decompress := lz4_decompress
  decompress_compress := lz4_decompress_compress
  compress_some := lz4_compress_some

/-- From the thirteenth byte on one byte repeats, up to four closing bytes. -/
def OneRun (x : Bytes) : Prop :=
  36 ≤ x.length ∧ x = x.take 13 ++ (List.replicate (x.length - 17) (x.getD 12 0) ++ x.drop (x.length - 4))

instance (x : Bytes) : Decidable (OneRun x) := by unfold OneRun; infer_instance

/-- Thirteen literals, a match of offset one over the run, four literals. -/
def lz4Run (x : Bytes) : Bytes :=
  223 :: (x.take 13 ++ 1 :: 0 :: (lz4Extend (x.length / 255) (x.length - 36) ++ 64 :: x.drop (x.length - 4)))

def lz4_compress_run (x : Bytes) : Bytes := if OneRun x then lz4Run x else lz4_compress x

theorem lz4Copy_one (n : Nat) (out : Bytes) (b : UInt8) : lz4Copy n 1 (out ++ [b]) = out ++ [b] ++ List.replicate n b := by
  induction n generalizing out with
  | zero => simp [lz4Copy]
  | succ n ih =>
    have last : (out ++ [b]).getD ((out ++ [b]).length - 1) 0 = b := by simp
    rw [lz4Copy, last, ih (out ++ [b])]
    simp [replicate_succ]

theorem lz4Sequences_match (len : literals.length = 13) (extend : lz4ReadExtend more = some (n, rest))
    (room : 13 + (n + 19) ≤ size) :
    lz4Sequences (fuel + 1) (223 :: (literals ++ 1 :: 0 :: more)) [] size =
      lz4Sequences fuel rest (lz4Copy (n + 19) 1 literals) size := by
  have enough : ¬ size < 13 := by omega
  have fits : ¬ size < 13 + (n + 15 + 4) := by omega
  have take : (literals ++ 1 :: 0 :: more).take 13 = literals := by rw [← len, take_left]
  have drop : (literals ++ 1 :: 0 :: more).drop 13 = 1 :: 0 :: more := by rw [← len, drop_left]
  simp [lz4Sequences, lz4ReadLen, extend, len, enough, fits]

theorem lz4Sequences_last (len : literals.length = 4) (room : out.length + 4 ≤ size) :
    lz4Sequences (fuel + 1) (64 :: literals) out size = .ok (out ++ literals) := by
  have enough : ¬ size < out.length + 4 := by omega
  have take : literals.take 4 = literals := by rw [← len, take_length]
  have drop : literals.drop 4 = [] := by rw [← len, drop_length]
  simp [lz4Sequences, lz4ReadLen, len, enough]

theorem lz4_decompress_run (run : OneRun x) : lz4_decompress (lz4Run x) x.length = .ok x := by
  obtain ⟨long, shape⟩ := run
  have first : x.take 13 = x.take 12 ++ [x.getD 12 0] := by
    rw [take_succ_eq_append_getElem (by omega), getD_eq_getElem?_getD, getElem?_eq_getElem (by omega)]
    rfl
  have extend := lz4ReadExtend_lz4Extend (x.length / 255) (x.length - 36) (64 :: x.drop (x.length - 4)) (by omega)
  have extra : x.length - 36 + 19 = x.length - 17 := by omega
  have copied : lz4Copy (x.length - 17) 1 (x.take 13) = x.take 13 ++ List.replicate (x.length - 17) (x.getD 12 0) := by
    rw [first, lz4Copy_one]
  have head_len : (x.take 13).length = 13 := by simp; omega
  have tail_len : (x.drop (x.length - 4)).length = 4 := by simp; omega
  have fuel : ∃ fuel, (lz4Run x).length + 1 = fuel + 2 := ⟨_, rfl⟩
  obtain ⟨fuel, hfuel⟩ := fuel
  rw [lz4_decompress, hfuel, lz4Run, lz4Sequences_match head_len extend (by omega), extra, copied,
    lz4Sequences_last tail_len (by rw [length_append, head_len, length_replicate]; omega), append_assoc,
    ← shape]

theorem lz4_decompress_compress_run (x : Bytes) : lz4_decompress (lz4_compress_run x) x.length = .ok x := by
  unfold lz4_compress_run
  split_ifs with run
  · exact lz4_decompress_run run
  · exact lz4_decompress_compress x

theorem lz4_compress_run_some (x : Bytes) : lz4_compress_run x ≠ [] := by
  unfold lz4_compress_run
  split_ifs
  · exact cons_ne_nil _ _
  · exact lz4_compress_some x

theorem length_lz4Extend (fuel n : Nat) : (lz4Extend fuel n).length ≤ fuel + 1 := by
  induction fuel generalizing n with
  | zero => simp [lz4Extend]
  | succ fuel ih =>
    unfold lz4Extend
    split_ifs
    · simp
    · simpa using ih (n - 255)

theorem length_lz4_compress_run (run : OneRun x) : (lz4_compress_run x).length ≤ x.length / 255 + 22 := by
  have extend := length_lz4Extend (x.length / 255) (x.length - 36)
  rw [lz4_compress_run, if_pos run, lz4Run]
  simp
  omega

/-- The functions above with the compressor that finds a run. -/
def runPrimitives : Primitives :=
  { primitives with
    lz4_compress := lz4_compress_run
    decompress_compress := lz4_decompress_compress_run
    compress_some := lz4_compress_run_some }

end Crux.Reference
