import Mathlib.Data.List.Sort
import Mathlib.Tactic

/-!
Byte strings and the readers and writers over them: little-endian numbers,
slices at an offset, fixed-size arrays, cyclic redundancy checks, and the
guards of a fallible decoder. A decoder that reads a field at a literal offset
is reduced against an encoder that appends its fields with `slice_skip` and
`slice_here`.
-/
set_option linter.dupNamespace false

namespace Crux.Bytes
open List

abbrev Bytes := List UInt8

/-- A guard: the error when the condition fails. -/
def ensure {ε : Type} (c : Prop) [Decidable c] (e : ε) : Except ε Unit :=
  if c then .ok () else .error e

/-- A check of all elements runs through the list, also where the type of the elements could be enumerated. -/
scoped instance (priority := 2000) decidableForallMem {α : Type} {p : α → Prop} [DecidablePred p] (l : List α) :
    Decidable (∀ a ∈ l, p a) := List.decidableBAll p l

variable {ε α : Type}

theorem bind_ok_iff {β : Type} {x : Except ε α} {f : α → Except ε β} {b : β} :
    (x >>= f) = .ok b ↔ ∃ a, x = .ok a ∧ f a = .ok b := by
  cases x with
  | error e => simp [bind, Except.bind]
  | ok a => simp [bind, Except.bind]

@[simp] theorem ok_bind {β : Type} (a : α) (f : α → Except ε β) : (Except.ok a >>= f) = f a := rfl

@[simp] theorem error_bind {β : Type} (e : ε) (f : α → Except ε β) : ((Except.error e : Except ε α) >>= f) = .error e := rfl

theorem ensure_true {c : Prop} [Decidable c] (e : ε) (h : c) : ensure c e = .ok () := if_pos h

@[simp] theorem ensure_of_true [Decidable True] (e : ε) : ensure True e = .ok () := if_pos trivial

theorem ensure_ok_iff {c : Prop} [Decidable c] {e : ε} {u : Unit} : ensure c e = .ok u ↔ c := by
  unfold ensure
  split_ifs with h <;> simp [h]

theorem ensure_bind_ok {β : Type} {c : Prop} [Decidable c] {e : ε} {k : Unit → Except ε β} {b : β} :
    (ensure c e >>= k) = .ok b ↔ c ∧ k () = .ok b := by
  unfold ensure
  split_ifs with h <;> simp [h]

theorem ok_of_isOk {x : Except ε α} (h : x.isOk = true) : ∃ a, x = .ok a := by
  cases x with
  | error e => cases h
  | ok a => exact ⟨a, rfl⟩

theorem ok_of_toOption {result : Except ε α} {a : α} (some_a : result.toOption = some a) : result = .ok a := by
  cases result with
  | error e => cases some_a
  | ok b =>
    cases some_a
    rfl

/-- The low `w` bytes of a number, least significant first. -/
def leBytes : Nat → Nat → Bytes
  | 0, _ => []
  | w + 1, n => UInt8.ofNat n :: leBytes w (n / 256)

/-- The number a byte string spells, least significant byte first. -/
def ofLe : Bytes → Nat
  | [] => 0
  | b :: rest => b.toNat + 256 * ofLe rest

@[simp] theorem length_leBytes (w n : Nat) : (leBytes w n).length = w := by
  induction w generalizing n with
  | zero => rfl
  | succ w ih => simp [leBytes, ih]

theorem ofLe_lt (bs : Bytes) : ofLe bs < 256 ^ bs.length := by
  induction bs with
  | nil => simp [ofLe]
  | cons b rest ih =>
    have small := b.toNat_lt
    simp [ofLe]
    omega

theorem ofLe_leBytes (w n : Nat) (h : n < 256 ^ w) : ofLe (leBytes w n) = n := by
  induction w generalizing n with
  | zero => simp at h; simp [leBytes, ofLe, h]
  | succ w ih =>
    have below : n / 256 < 256 ^ w := by rw [Nat.pow_succ] at h; omega
    simp [leBytes, ofLe, ih _ below]
    omega

theorem leBytes_ofLe (bs : Bytes) : leBytes bs.length (ofLe bs) = bs := by
  induction bs with
  | nil => rfl
  | cons b rest ih =>
    have small := b.toNat_lt
    have low : UInt8.ofNat (b.toNat + 256 * ofLe rest) = b := by
      apply UInt8.toNat_inj.mp
      rw [UInt8.toNat_ofNat']
      omega
    have high : (b.toNat + 256 * ofLe rest) / 256 = ofLe rest := by omega
    simp [ofLe, leBytes, high, ih]

def u16le (x : UInt16) : Bytes := leBytes 2 x.toNat
def u32le (x : UInt32) : Bytes := leBytes 4 x.toNat
def u64le (x : UInt64) : Bytes := leBytes 8 x.toNat

@[simp] theorem length_u16le (x : UInt16) : (u16le x).length = 2 := by simp [u16le]
@[simp] theorem length_u32le (x : UInt32) : (u32le x).length = 4 := by simp [u32le]
@[simp] theorem length_u64le (x : UInt64) : (u64le x).length = 8 := by simp [u64le]

@[simp] theorem ofLe_u16le (x : UInt16) : UInt16.ofNat (ofLe (u16le x)) = x := by
  rw [u16le, ofLe_leBytes _ _ (by simpa using x.toNat_lt)]
  simp

@[simp] theorem ofLe_u32le (x : UInt32) : UInt32.ofNat (ofLe (u32le x)) = x := by
  rw [u32le, ofLe_leBytes _ _ (by simpa using x.toNat_lt)]
  simp

@[simp] theorem ofLe_u64le (x : UInt64) : UInt64.ofNat (ofLe (u64le x)) = x := by
  rw [u64le, ofLe_leBytes _ _ (by simpa using x.toNat_lt)]
  simp

/-- The bytes from position `a` up to position `b`. -/
def slice (bs : Bytes) (a b : Nat) : Bytes := (bs.drop a).take (b - a)

/-- The slice when it lies inside the byte string, as `slice::get` answers. -/
def slice? (bs : Bytes) (a b : Nat) : Option Bytes :=
  if a ≤ b ∧ b ≤ bs.length then some (slice bs a b) else none

theorem length_slice {bs : Bytes} {a b : Nat} (h : b ≤ bs.length) : (slice bs a b).length = b - a := by
  simp [slice]
  omega

theorem slice_skip (f rest : Bytes) (a b : Nat) (h : f.length ≤ a) :
    slice (f ++ rest) a b = slice rest (a - f.length) (b - f.length) := by
  unfold slice
  rw [drop_append, drop_eq_nil_of_le h, nil_append]
  congr 1
  omega

theorem slice_here (f rest : Bytes) (b : Nat) (h : f.length = b) : slice (f ++ rest) 0 b = f := by
  simp [slice, ← h]

theorem slice_all (f : Bytes) (b : Nat) (h : f.length = b) : slice f 0 b = f := by
  simp [slice, ← h]

theorem slice_within (f rest : Bytes) (a b : Nat) (h : b ≤ f.length) : slice (f ++ rest) a b = slice f a b := by
  unfold slice
  by_cases inside : a ≤ f.length
  · rw [drop_append_of_le_length inside, take_append_of_le_length (by simp; omega)]
  · have none : b - a = 0 := by omega
    simp [none]

theorem slice_mid (front f rest : Bytes) (a b : Nat) (start : a = front.length) (stop : b = front.length + f.length) :
    slice (front ++ (f ++ rest)) a b = f := by
  rw [slice_skip _ _ _ _ (by omega), start, stop, Nat.sub_self]
  exact slice_here _ _ _ (by omega)

theorem slice_append_slice (bs : Bytes) (a b c : Nat) (ab : a ≤ b) (bc : b ≤ c) :
    slice bs a b ++ slice bs b c = slice bs a c := by
  unfold slice
  have split : c - a = (b - a) + (c - b) := by omega
  rw [split, take_add, drop_drop]
  congr 3
  omega

theorem slice_slice (bs : Bytes) (a b c d : Nat) (h : a + d ≤ b) : slice (slice bs a b) c d = slice bs (a + c) (a + d) := by
  unfold slice
  rw [drop_take, take_take, drop_drop]
  congr 1
  omega

theorem getElem?_slice (bs : Bytes) (a b m : Nat) : (slice bs a b)[m]? = if m < b - a then bs[a + m]? else none := by
  unfold slice
  rw [getElem?_take, getElem?_drop]

theorem slice_eq_iff {s t : Bytes} {a b : Nat} : slice s a b = slice t a b ↔ ∀ k, a ≤ k → k < b → s[k]? = t[k]? := by
  constructor
  · intro same k low high
    have := congrArg (fun l : Bytes => l[k - a]?) same
    simp only [getElem?_slice, if_pos (show k - a < b - a by omega)] at this
    rwa [Nat.add_sub_cancel' low] at this
  · intro pointwise
    apply ext_getElem?
    intro m
    rw [getElem?_slice, getElem?_slice]
    split_ifs with inside
    · exact pointwise _ (by omega) (by omega)
    · rfl

theorem slice_part {s t : Bytes} {a b c d : Nat} (same : slice s a b = slice t a b) (low : a ≤ c) (high : d ≤ b) :
    slice s c d = slice t c d :=
  slice_eq_iff.mpr fun k _ _ => slice_eq_iff.mp same k (by omega) (by omega)

theorem ofLe_inj {x y : Bytes} (size : x.length = y.length) (same : ofLe x = ofLe y) : x = y := by
  rw [← leBytes_ofLe x, ← leBytes_ofLe y, size, same]

/-- Decode a number of consecutive records of one size, from an offset on. -/
def decodeEach {ε α : Type} (dec : Bytes → Except ε α) (size : Nat) (bytes : Bytes) : Nat → Nat → Except ε (List α)
  | 0, _ => .ok []
  | n + 1, off => do
    let x ← dec (slice bytes off (off + size))
    let xs ← decodeEach dec size bytes n (off + size)
    return x :: xs

variable {size : Nat}

theorem length_flatMap_const {enc : α → Bytes} (fits : ∀ x, (enc x).length = size) (xs : List α) :
    (xs.flatMap enc).length = xs.length * size := by
  induction xs with
  | nil => simp
  | cons x xs ih => simp [fits, Nat.succ_mul, Nat.add_comm]

section
variable {ε α β : Type} {dec : Bytes → Except ε β} {enc : α → Bytes} {seen : α → β} (fits : ∀ x, (enc x).length = size)
include fits

/-- A table written record by record is read back record by record, as the reader sees each record. -/
theorem decodeEach_flatMap_of_mem {xs : List α} (back : ∀ x ∈ xs, dec (enc x) = .ok (seen x)) (front rest : Bytes) :
    decodeEach dec size (front ++ (xs.flatMap enc ++ rest)) xs.length front.length = .ok (xs.map seen) := by
  induction xs generalizing front with
  | nil => rfl
  | cons x xs ih =>
    have first : slice (front ++ ((x :: xs).flatMap enc ++ rest)) front.length (front.length + size) = enc x := by
      rw [flatMap_cons, append_assoc]
      exact slice_mid _ _ _ _ _ rfl (by rw [fits])
    have later := ih (fun y member => back y (mem_cons_of_mem _ member)) (front ++ enc x)
    rw [append_assoc, length_append, fits] at later
    simp only [length_cons, decodeEach, first, back x mem_cons_self, ok_bind]
    rw [flatMap_cons, append_assoc, later]
    rfl

theorem decodeEach_flatMap_map (back : ∀ x, dec (enc x) = .ok (seen x)) (xs : List α) (front rest : Bytes) :
    decodeEach dec size (front ++ (xs.flatMap enc ++ rest)) xs.length front.length = .ok (xs.map seen) :=
  decodeEach_flatMap_of_mem fits (fun x _ => back x) front rest

end

theorem decodeEach_flatMap {dec : Bytes → Except ε α} {enc : α → Bytes}
    (fits : ∀ x, (enc x).length = size) (back : ∀ x, dec (enc x) = .ok x) (xs : List α) (front rest : Bytes) :
    decodeEach dec size (front ++ (xs.flatMap enc ++ rest)) xs.length front.length = .ok xs := by
  simpa using decodeEach_flatMap_map fits back xs front rest

theorem decodeEach_congr {dec : Bytes → Except ε α} {a b : Bytes} {n off : Nat}
    (same : slice a off (off + n * size) = slice b off (off + n * size)) :
    decodeEach dec size a n off = decodeEach dec size b n off := by
  induction n generalizing off with
  | zero => rfl
  | succ n ih =>
    have split : off + (n + 1) * size = off + size + n * size := by rw [Nat.succ_mul]; omega
    rw [split] at same
    have first : slice a off (off + size) = slice b off (off + size) := slice_part same le_rfl (Nat.le_add_right _ _)
    have later := slice_part same (Nat.le_add_right off size) le_rfl
    simp only [decodeEach, first, ih later]

/-- Byte arrays of a fixed size. -/
abbrev FixedBytes (n : Nat) := { b : Bytes // b.length = n }

/-- The array of the given size filled from a byte string. -/
def fixed (n : Nat) (bs : Bytes) : FixedBytes n :=
  ⟨(bs ++ List.replicate n 0).take n, by simp⟩

@[simp] theorem length_fixed {n : Nat} (a : FixedBytes n) : a.val.length = n := a.property

@[simp] theorem fixed_val {n : Nat} (a : FixedBytes n) : fixed n a.val = a := by
  apply Subtype.ext
  simp only [fixed]
  rw [take_append_of_le_length (by simp)]
  exact take_of_length_le (by simp)

/-- One bit of a reflected cyclic redundancy check. -/
def crcBit (poly crc : UInt32) : UInt32 :=
  if crc &&& 1 = 1 then (crc >>> 1) ^^^ poly else crc >>> 1

/-- One byte of a reflected cyclic redundancy check. -/
def crcByte (poly crc : UInt32) (b : UInt8) : UInt32 :=
  (crcBit poly <| crcBit poly <| crcBit poly <| crcBit poly <|
    crcBit poly <| crcBit poly <| crcBit poly <| crcBit poly <| crc ^^^ b.toUInt32)

/-- The check of a byte string that continues an earlier check. -/
def crcAppend (poly crc : UInt32) (bs : Bytes) : UInt32 := ~~~ (bs.foldl (crcByte poly) (~~~ crc))

/-- CRC-32C, continuing an earlier check. -/
def crc32c_append (crc : UInt32) (bs : Bytes) : UInt32 := crcAppend 0x82F63B78 crc bs
/-- CRC-32C of a byte string. -/
def crc32c (bs : Bytes) : UInt32 := crc32c_append 0 bs
/-- CRC-32 (IEEE) of a byte string. -/
def crc32 (bs : Bytes) : UInt32 := crcAppend 0xEDB88320 0 bs

/-- The check value every CRC-32C catalogue gives for the nine digits. -/
example : crc32c [0x31, 0x32, 0x33, 0x34, 0x35, 0x36, 0x37, 0x38, 0x39] = 0xE3069283 := by decide +kernel

end Crux.Bytes
