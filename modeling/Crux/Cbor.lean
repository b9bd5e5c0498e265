import Crux.Bytes

/-!
# Canonical CBOR

`crux-session/src/canonical.rs`: the value tree that capability tokens and
session plans are signed as, its deterministic encoder, and the decoder that
verifiers read the bytes back with. A cursor is the bytes still to read. The
reader recurses into arrays and maps, so it is written with fuel for the
nesting; every level reads at least one byte, and `read_value_more` says that
fuel above the length of the input changes nothing.
-/

namespace Crux.Session
open Crux.Bytes List

/-- `str::as_bytes`. -/
def as_bytes (s : String) : Bytes := s.toUTF8.data.toList

/-- `String::from_utf8`. -/
def from_utf8 (bytes : Bytes) : Option String := String.fromUTF8? ⟨bytes.toArray⟩

theorem as_bytes_inj : as_bytes s = as_bytes t ↔ s = t := by
  constructor
  · intro same
    apply String.toByteArray_inj.mp
    apply ByteArray.ext
    exact Array.toList_inj.mp same
  · rintro rfl
    rfl

theorem from_utf8_eq_some : from_utf8 bytes = some s ↔ as_bytes s = bytes := by
  unfold from_utf8 String.fromUTF8?
  constructor
  · intro read
    split at read
    · rw [← Option.some.inj read]
      rfl
    · cases read
  · rintro rfl
    have back : (⟨(as_bytes s).toArray⟩ : ByteArray) = s.toByteArray := by
      simp [as_bytes]
    rw [back, dif_pos s.isValidUTF8]
    rfl

/-- The low `w` bytes of a number, most significant first. -/
def beBytes (w n : Nat) : Bytes := (leBytes w n).reverse

def ofBe (bs : Bytes) : Nat := ofLe bs.reverse

@[simp] theorem length_beBytes (w n : Nat) : (beBytes w n).length = w := by simp [beBytes]

theorem ofBe_beBytes (w n : Nat) (small : n < 256 ^ w) : ofBe (beBytes w n) = n := by
  rw [ofBe, beBytes, reverse_reverse, ofLe_leBytes w n small]

theorem beBytes_ofBe (bs : Bytes) : beBytes bs.length (ofBe bs) = bs := by
  have back := leBytes_ofLe bs.reverse
  rw [length_reverse] at back
  rw [beBytes, ofBe, back, reverse_reverse]

theorem ofBe_lt (bs : Bytes) : ofBe bs < 256 ^ bs.length := by
  simpa [ofBe] using ofLe_lt bs.reverse

def MAJOR_UINT : UInt8 := 0
def MAJOR_BYTES : UInt8 := 2
def MAJOR_TEXT : UInt8 := 3
def MAJOR_ARRAY : UInt8 := 4
def MAJOR_MAP : UInt8 := 5

def SIMPLE_FALSE : UInt8 := 0xF4
def SIMPLE_TRUE : UInt8 := 0xF5
def SIMPLE_NULL : UInt8 := 0xF6

inductive CborValue where
  | Uint (n : UInt64)
  | Bytes (b : List UInt8)
  | Text (s : String)
  | Array (items : List CborValue)
  | Map (pairs : List (String × CborValue))
  | Bool (b : Bool)
  | Null
deriving Repr, Inhabited

/-- Induction over the tree, with the elements of an array and the values of a map as its branches. -/
@[elab_as_elim, induction_eliminator]
theorem CborValue.induct {P : CborValue → Prop} (uint : ∀ n, P (.Uint n)) (bytes : ∀ b, P (.Bytes b))
    (text : ∀ s, P (.Text s)) (array : ∀ items, (∀ v ∈ items, P v) → P (.Array items))
    (map : ∀ pairs, (∀ p ∈ pairs, P p.2) → P (.Map pairs)) (bool : ∀ b, P (.Bool b)) (null : P .Null) (v : CborValue) : P v :=
  @CborValue.rec P (fun items => ∀ v ∈ items, P v) (fun pairs => ∀ p ∈ pairs, P p.2) (fun p => P p.2)
    uint bytes text array map bool null
    (by simp) (fun _ _ here there => forall_mem_cons.mpr ⟨here, there⟩)
    (by simp) (fun _ _ here there => forall_mem_cons.mpr ⟨here, there⟩)
    (fun _ _ here => here) v

mutual
/-- `test` holds of every value in the tree. -/
def everyValue (test : CborValue → Bool) : CborValue → Bool
  | .Array items => test (.Array items) && everyItem test items
  | .Map pairs => test (.Map pairs) && everyPair test pairs
  | v => test v
def everyItem (test : CborValue → Bool) : List CborValue → Bool
  | [] => true
  | v :: rest => everyValue test v && everyItem test rest
def everyPair (test : CborValue → Bool) : List (String × CborValue) → Bool
  | [] => true
  | (_, v) :: rest => everyValue test v && everyPair test rest
end

theorem everyItem_eq (test : CborValue → Bool) (items : List CborValue) : everyItem test items = items.all (everyValue test) := by
  induction items with
  | nil => rfl
  | cons v rest ih => rw [everyItem, all_cons, ih]

theorem everyPair_eq (test : CborValue → Bool) (pairs : List (String × CborValue)) :
    everyPair test pairs = pairs.all fun p => everyValue test p.2 := by
  induction pairs with
  | nil => rfl
  | cons p rest ih => rw [everyPair, all_cons, ih]

theorem everyValue_array :
    everyValue test (.Array items) = true ↔ test (.Array items) = true ∧ ∀ v ∈ items, everyValue test v = true := by
  rw [everyValue, everyItem_eq, Bool.and_eq_true, all_eq_true]

theorem everyValue_map :
    everyValue test (.Map pairs) = true ↔ test (.Map pairs) = true ∧ ∀ p ∈ pairs, everyValue test p.2 = true := by
  rw [everyValue, everyPair_eq, Bool.and_eq_true, all_eq_true]

/-- The lengths are `u64` numbers, as the lengths of every `Vec` and `String` are. -/
def lengthsFit : CborValue → Bool
  | .Bytes b => b.length < 2 ^ 64
  | .Text s => (as_bytes s).length < 2 ^ 64
  | .Array items => items.length < 2 ^ 64
  | .Map pairs => pairs.length < 2 ^ 64 && pairs.all fun p => (as_bytes p.1).length < 2 ^ 64
  | _ => true

abbrev Fits (v : CborValue) : Prop := everyValue lengthsFit v = true

/-- No key stands twice in a map. -/
def keysDistinct : CborValue → Bool
  | .Map pairs => decide (pairs.map Prod.fst).Nodup
  | _ => true

abbrev DistinctKeys (v : CborValue) : Prop := everyValue keysDistinct v = true

/-- The shortest head for an argument. -/
def write_head (major : UInt8) (arg : UInt64) : Bytes :=
  let start := major <<< 5
  if arg < 24 then [start ||| arg.toUInt8]
  else if arg ≤ 0xFF then [start ||| 24, arg.toUInt8]
  else if arg ≤ 0xFFFF then (start ||| 25) :: beBytes 2 arg.toNat
  else if arg ≤ 0xFFFFFFFF then (start ||| 26) :: beBytes 4 arg.toNat
  else (start ||| 27) :: beBytes 8 arg.toNat

/-- A text with its head, as a value and as a map key. -/
def write_text (s : String) : Bytes := write_head MAJOR_TEXT (UInt64.ofNat (as_bytes s).length) ++ as_bytes s

/-- The order of the encoded keys. -/
def keyBefore (p q : Bytes × Bytes) : Prop := p.1 ≤ q.1

instance : DecidableRel keyBefore := fun p q => inferInstanceAs (Decidable (p.1 ≤ q.1))
instance : Std.Total keyBefore := ⟨fun p q => List.le_total p.1 q.1⟩
instance : IsTrans (Bytes × Bytes) keyBefore := ⟨fun _ _ _ first second => List.le_trans first second⟩

mutual
def write_value : CborValue → Bytes
  | .Uint n => write_head MAJOR_UINT n
  | .Bytes b => write_head MAJOR_BYTES (UInt64.ofNat b.length) ++ b
  | .Text s => write_text s
  | .Array items => write_head MAJOR_ARRAY (UInt64.ofNat items.length) ++ write_items items
  | .Map pairs =>
    write_head MAJOR_MAP (UInt64.ofNat pairs.length)
      ++ ((write_pairs pairs).insertionSort keyBefore).flatMap fun p => p.1 ++ p.2
  | .Bool true => [SIMPLE_TRUE]
  | .Bool false => [SIMPLE_FALSE]
  | .Null => [SIMPLE_NULL]
def write_items : List CborValue → Bytes
  | [] => []
  | v :: rest => write_value v ++ write_items rest
def write_pairs : List (String × CborValue) → List (Bytes × Bytes)
  | [] => []
  | (k, v) :: rest => (write_text k, write_value v) :: write_pairs rest
end

def CborValue.encode (v : CborValue) : List UInt8 := write_value v

theorem write_items_eq (items : List CborValue) : write_items items = items.flatMap write_value := by
  induction items with
  | nil => rfl
  | cons v rest ih => rw [write_items, flatMap_cons, ih]

theorem write_pairs_eq (pairs : List (String × CborValue)) :
    write_pairs pairs = pairs.map fun p => (write_text p.1, write_value p.2) := by
  induction pairs with
  | nil => rfl
  | cons p rest ih => rw [write_pairs, map_cons, ih]

/-- The pairs of a map in the order of their encoded keys. -/
def textBefore (p q : String × CborValue) : Prop := write_text p.1 ≤ write_text q.1

instance : DecidableRel textBefore := fun p q => inferInstanceAs (Decidable (write_text p.1 ≤ write_text q.1))
instance : Std.Total textBefore := ⟨fun p q => List.le_total (write_text p.1) (write_text q.1)⟩
instance : IsTrans (String × CborValue) textBefore := ⟨fun _ _ _ first second => List.le_trans first second⟩

def inKeyOrder (pairs : List (String × CborValue)) : List (String × CborValue) := pairs.insertionSort textBefore

theorem inKeyOrder_perm (pairs : List (String × CborValue)) : (inKeyOrder pairs).Perm pairs :=
  perm_insertionSort textBefore pairs

/-- The bytes of one pair. -/
def write_pair (p : String × CborValue) : Bytes := write_text p.1 ++ write_value p.2

theorem write_value_array (items : List CborValue) :
    write_value (.Array items) = write_head MAJOR_ARRAY (UInt64.ofNat items.length) ++ items.flatMap write_value := by
  rw [write_value, write_items_eq]

theorem write_value_map (pairs : List (String × CborValue)) : write_value (.Map pairs)
      = write_head MAJOR_MAP (UInt64.ofNat pairs.length) ++ (inKeyOrder pairs).flatMap write_pair := by
  have moved := map_insertionSort textBefore keyBefore
    (fun p : String × CborValue => (write_text p.1, write_value p.2)) pairs fun _ _ _ _ => Iff.rfl
  rw [write_value, write_pairs_eq, ← moved, flatMap_map]
  rfl

inductive DecodeError where
  | unexpected_eof
  | invalid_utf8
  | reserved_info (info : UInt8)
  | non_text_key
  | unsupported_major (major : UInt8)
  | trailing_bytes (offset : Nat)
deriving DecidableEq

/-- What a read gives and the bytes after it. -/
abbrev Reader (α : Type) := Bytes → Except DecodeError (α × Bytes)

def take (n : Nat) : Reader Bytes := fun c =>
  if c.length < n then .error .unexpected_eof else .ok (c.take n, c.drop n)

def take_u8 : Reader UInt8 := fun c => do
  let (bytes, c) ← take 1 c
  .ok (bytes.headD 0, c)

/-- A big-endian number of `n` bytes. -/
def take_be (n : Nat) : Reader UInt64 := fun c => do
  let (bytes, c) ← take n c
  .ok (UInt64.ofNat (ofBe bytes), c)

def read_arg (info : UInt8) : Reader UInt64 := fun c =>
  if info ≤ 23 then .ok (info.toUInt64, c)
  else if info = 24 then take_be 1 c
  else if info = 25 then take_be 2 c
  else if info = 26 then take_be 4 c
  else if info = 27 then take_be 8 c
  else .error (.reserved_info info)

/-- `for _ in 0..n`, collecting what each read gives. -/
def times {α : Type} (read : Reader α) : Nat → Bytes → Except DecodeError (List α × Bytes)
  | 0, c => .ok ([], c)
  | n + 1, c => do
    let (x, c) ← read c
    let (rest, c) ← times read n c
    .ok (x :: rest, c)

/-- One round of the map loop. The key is judged only after the value is read. -/
def read_pair (read : Reader CborValue) : Reader (String × CborValue) := fun c => do
  let (key, c) ← read c
  let (value, c) ← read c
  match key with
  | .Text s => .ok ((s, value), c)
  | _ => .error .non_text_key

/-- The payload behind a head. -/
def read_body (read : Reader CborValue) (major : UInt8) (arg : UInt64) : Reader CborValue := fun c =>
  if major = MAJOR_UINT then .ok (.Uint arg, c)
  else if major = MAJOR_BYTES then do
    let (slice, c) ← take arg.toNat c
    .ok (.Bytes slice, c)
  else if major = MAJOR_TEXT then do
    let (slice, c) ← take arg.toNat c
    match from_utf8 slice with
    | some s => .ok (.Text s, c)
    | none => .error .invalid_utf8
  else if major = MAJOR_ARRAY then do
    let (items, c) ← times read arg.toNat c
    .ok (.Array items, c)
  else if major = MAJOR_MAP then do
    let (pairs, c) ← times (read_pair read) arg.toNat c
    .ok (.Map pairs, c)
  else .error (.unsupported_major major)

def read_value : Nat → Bytes → Except DecodeError (CborValue × Bytes)
  | 0, _ => .error .unexpected_eof
  | fuel + 1, c => do
    let (first, c) ← take_u8 c
    if first = SIMPLE_TRUE then .ok (.Bool true, c)
    else if first = SIMPLE_FALSE then .ok (.Bool false, c)
    else if first = SIMPLE_NULL then .ok (.Null, c)
    else do
      let (arg, c) ← read_arg (first &&& 0x1F) c
      read_body (read_value fuel) (first >>> 5) arg c

def decode (bytes : Bytes) : Except DecodeError CborValue := do
  let (value, rest) ← read_value (bytes.length + 1) bytes
  ensure (rest = []) (.trailing_bytes (bytes.length - rest.length))
  return value

/-- How many bytes stand between a first byte and its payload. -/
def argWidth (info : UInt8) : Nat :=
  if info ≤ 23 then 0 else if info = 24 then 1 else if info = 25 then 2 else if info = 26 then 4 else 8

/-- The low five bits of the first byte of the shortest head. -/
def shortInfo (arg : UInt64) : UInt8 :=
  if arg < 24 then arg.toUInt8
  else if arg ≤ 0xFF then 24
  else if arg ≤ 0xFFFF then 25
  else if arg ≤ 0xFFFFFFFF then 26
  else 27

theorem take_append (bytes rest : Bytes) : take bytes.length (bytes ++ rest) = .ok (bytes, rest) := by
  simp [take]

theorem take_ok (taken : take n c = .ok (bytes, rest)) : c = bytes ++ rest ∧ bytes.length = n := by
  unfold take at taken
  split at taken
  · cases taken
  · rename_i enough
    cases taken
    exact ⟨(take_append_drop n c).symm, by simp; omega⟩

theorem take_u8_cons (first : UInt8) (c : Bytes) : take_u8 (first :: c) = .ok (first, c) := by
  simp [take_u8, take]

variable {first : UInt8}

theorem take_u8_ok (taken : take_u8 c = .ok (first, rest)) : c = first :: rest := by
  cases c with
  | nil => cases taken
  | cons b c =>
    rw [take_u8_cons] at taken
    cases taken
    rfl

variable {arg : UInt64}

theorem take_be_append (small : arg.toNat < 256 ^ w) (rest : Bytes) :
    take_be w (beBytes w arg.toNat ++ rest) = .ok (arg, rest) := by
  have taken := take_append (beBytes w arg.toNat) rest
  rw [length_beBytes] at taken
  simp [take_be, taken, ofBe_beBytes w _ small]

theorem take_be_ok (width : w ≤ 8) (taken : take_be w c = .ok (arg, rest)) : c = beBytes w arg.toNat ++ rest := by
  obtain ⟨⟨bytes, after⟩, read, made⟩ := bind_ok_iff.mp taken
  cases made
  obtain ⟨rfl, rfl⟩ := take_ok read
  have small : ofBe bytes < 2 ^ 64 := by
    have below := ofBe_lt bytes
    have grows : 256 ^ bytes.length ≤ 256 ^ 8 := Nat.pow_le_pow_right (by omega) width
    omega
  rw [UInt64.toNat_ofNat_of_lt' small, beBytes_ofBe]

theorem tiny_info (tiny : arg < 24) : arg.toUInt8 ≤ 23 ∧ arg.toUInt8.toUInt64 = arg := by
  have small : arg.toNat < 24 := by simpa [UInt64.lt_iff_toNat_lt] using tiny
  constructor
  · rw [UInt8.le_iff_toNat_le, UInt64.toNat_toUInt8]
    simp
    omega
  · apply UInt64.toNat_inj.mp
    simp
    omega

theorem write_head_eq (major : UInt8) (arg : UInt64) :
    write_head major arg = (major <<< 5 ||| shortInfo arg) :: beBytes (argWidth (shortInfo arg)) arg.toNat := by
  unfold write_head shortInfo
  split_ifs with tiny byteWide short long
  · simp [argWidth, (tiny_info tiny).1, beBytes, leBytes]
  · simp [argWidth, beBytes, leBytes]
  · simp [argWidth]
  · simp [argWidth]
  · simp [argWidth]

theorem read_arg_append (arg : UInt64) (rest : Bytes) :
    read_arg (shortInfo arg) (beBytes (argWidth (shortInfo arg)) arg.toNat ++ rest) = .ok (arg, rest) := by
  have bound := arg.toNat_lt
  unfold shortInfo
  split_ifs with tiny byteWide short long
  · obtain ⟨low, back⟩ := tiny_info tiny
    simp [read_arg, argWidth, low, back, beBytes, leBytes]
  · have small : arg.toNat < 256 ^ 1 := by simp [UInt64.le_iff_toNat_le] at byteWide; omega
    exact take_be_append small rest
  · have small : arg.toNat < 256 ^ 2 := by simp [UInt64.le_iff_toNat_le] at short; omega
    exact take_be_append small rest
  · have small : arg.toNat < 256 ^ 4 := by simp [UInt64.le_iff_toNat_le] at long; omega
    exact take_be_append small rest
  · exact take_be_append (by omega) rest

theorem read_arg_ok (read : read_arg info c = .ok (arg, rest)) : c = beBytes (argWidth info) arg.toNat ++ rest := by
  unfold read_arg at read
  unfold argWidth
  split_ifs at read ⊢ with tiny one two four eight
  · cases read
    simp [beBytes, leBytes]
  · exact take_be_ok (by omega) read
  · exact take_be_ok (by omega) read
  · exact take_be_ok (by omega) read
  · exact take_be_ok (by omega) read

/-! The first byte holds the major type above the five bits of the argument. -/

variable {major : UInt8}

theorem first_byte (known : major.toNat < 8) (low : info.toNat < 32) :
    (major <<< 5 ||| info) >>> 5 = major ∧ (major <<< 5 ||| info) &&& 0x1F = info := by
  have all : ∀ i : Fin 8, ∀ j : Fin 32,
      (UInt8.ofNat i <<< 5 ||| UInt8.ofNat j) >>> 5 = UInt8.ofNat i
        ∧ (UInt8.ofNat i <<< 5 ||| UInt8.ofNat j) &&& 0x1F = UInt8.ofNat j := by decide +kernel
  simpa using all ⟨major.toNat, known⟩ ⟨info.toNat, low⟩

theorem first_byte_split (first : UInt8) : (first >>> 5) <<< 5 ||| (first &&& 0x1F) = first := by
  have all : ∀ i : Fin 256,
      (UInt8.ofNat i >>> 5) <<< 5 ||| (UInt8.ofNat i &&& 0x1F) = UInt8.ofNat i := by decide +kernel
  simpa using all ⟨first.toNat, first.toNat_lt⟩

theorem shortInfo_lt (arg : UInt64) : (shortInfo arg).toNat < 32 := by
  unfold shortInfo
  split_ifs with tiny
  · have low := (tiny_info tiny).1
    rw [UInt8.le_iff_toNat_le] at low
    simp at low ⊢
    omega
  all_goals decide

theorem head_of_shortest (short : first &&& 0x1F = shortInfo arg) :
    first :: beBytes (argWidth (first &&& 0x1F)) arg.toNat = write_head (first >>> 5) arg := by
  rw [write_head_eq, ← short, first_byte_split]

theorem write_head_ne_nil (major : UInt8) (arg : UInt64) : write_head major arg ≠ [] := by
  simp [write_head_eq]

theorem read_value_head (known : major.toNat < 7) (arg : UInt64) (c : Bytes) :
    read_value (fuel + 1) (write_head major arg ++ c) = read_body (read_value fuel) major arg c := by
  obtain ⟨top, low⟩ := first_byte (by omega : major.toNat < 8) (shortInfo_lt arg)
  have plain : ∀ simple : UInt8, simple >>> 5 = 7 → (major <<< 5 ||| shortInfo arg) ≠ simple := by
    rintro simple seven rfl
    rw [top] at seven
    rw [seven] at known
    exact absurd known (by decide)
  rw [write_head_eq, cons_append, read_value, take_u8_cons]
  simp [low, top, read_arg_append]
  rw [if_neg (plain _ (by decide)), if_neg (plain _ (by decide)), if_neg (plain _ (by decide))]

theorem times_flatMap {α β : Type} {read : Reader β} {write : α → Bytes} {seen : α → β} {xs : List α}
    (back : ∀ x ∈ xs, ∀ rest, read (write x ++ rest) = .ok (seen x, rest)) (rest : Bytes) :
    times read xs.length (xs.flatMap write ++ rest) = .ok (xs.map seen, rest) := by
  induction xs with
  | nil => rfl
  | cons x xs ih =>
    have first := back x (by simp) (xs.flatMap write ++ rest)
    have others := ih fun y member => back y (by simp [member])
    rw [flatMap_cons, append_assoc, length_cons, times]
    simp [first, others]

mutual
/-- The tree with the pairs of every map in canonical key order. -/
def canon : CborValue → CborValue
  | .Array items => .Array (canonItems items)
  | .Map pairs => .Map (inKeyOrder (canonPairs pairs))
  | v => v
def canonItems : List CborValue → List CborValue
  | [] => []
  | v :: rest => canon v :: canonItems rest
def canonPairs : List (String × CborValue) → List (String × CborValue)
  | [] => []
  | (k, v) :: rest => (k, canon v) :: canonPairs rest
end

theorem canonItems_eq (items : List CborValue) : canonItems items = items.map canon := by
  induction items with
  | nil => rfl
  | cons v rest ih => rw [canonItems, map_cons, ih]

/-- A pair with its value in canonical order. -/
def canonPair (p : String × CborValue) : String × CborValue := (p.1, canon p.2)

theorem canonPairs_eq (pairs : List (String × CborValue)) : canonPairs pairs = pairs.map canonPair := by
  induction pairs with
  | nil => rfl
  | cons p rest ih => rw [canonPairs, map_cons, ih, canonPair]

theorem canon_array (items : List CborValue) : canon (.Array items) = .Array (items.map canon) := by
  rw [canon, canonItems_eq]

theorem canon_map (pairs : List (String × CborValue)) : canon (.Map pairs) = .Map ((inKeyOrder pairs).map canonPair) := by
  rw [canon, canonPairs_eq, inKeyOrder, inKeyOrder,
    map_insertionSort textBefore textBefore canonPair pairs fun _ _ _ _ => Iff.rfl]

theorem ofNat_toNat_length (fits : n < 2 ^ 64) : (UInt64.ofNat n).toNat = n :=
  UInt64.toNat_ofNat_of_lt' fits

theorem read_value_text {fuel : Nat} {s : String} (fits : (as_bytes s).length < 2 ^ 64) (rest : Bytes) :
    read_value (fuel + 1) (write_text s ++ rest) = .ok (.Text s, rest) := by
  rw [write_text, append_assoc, read_value_head (by decide)]
  simp [read_body, MAJOR_UINT, MAJOR_BYTES, MAJOR_TEXT, ofNat_toNat_length fits, take_append,
      from_utf8_eq_some.mpr rfl]

variable {read : Reader CborValue}

theorem read_body_bytes (fits : b.length < 2 ^ 64) (rest : Bytes) :
    read_body read MAJOR_BYTES (UInt64.ofNat b.length) (b ++ rest) = .ok (.Bytes b, rest) := by
  rw [read_body, if_neg (by decide), if_pos rfl, ofNat_toNat_length fits, take_append]
  rfl

theorem read_body_array {items : List CborValue} (fits : items.length < 2 ^ 64)
    (back : times read items.length c = .ok (seen, rest)) :
    read_body read MAJOR_ARRAY (UInt64.ofNat items.length) c = .ok (.Array seen, rest) := by
  rw [read_body, if_neg (by decide), if_neg (by decide), if_neg (by decide), if_pos rfl, ofNat_toNat_length fits, back]
  rfl

theorem read_body_map (fits : n < 2 ^ 64) (back : times (read_pair read) n c = .ok (seen, rest)) :
    read_body read MAJOR_MAP (UInt64.ofNat n) c = .ok (.Map seen, rest) := by
  rw [read_body, if_neg (by decide), if_neg (by decide), if_neg (by decide), if_neg (by decide), if_pos rfl,
    ofNat_toNat_length fits, back]
  rfl

theorem read_pair_write (key : read (write_text p.1 ++ (write_value p.2 ++ rest)) = .ok (.Text p.1, write_value p.2 ++ rest))
    (value : read (write_value p.2 ++ rest) = .ok (seen, rest)) :
    read_pair read (write_pair p ++ rest) = .ok ((p.1, seen), rest) := by
  rw [write_pair, append_assoc, read_pair, key, ok_bind]
  simp [value]

theorem length_le_flatMap {α : Type} (write : α → Bytes) {xs : List α} {x : α} (member : x ∈ xs) :
    (write x).length ≤ (xs.flatMap write).length := by
  obtain ⟨front, back, rfl⟩ := append_of_mem member
  simp
  omega

theorem length_write_head_pos (major : UInt8) (arg : UInt64) : 0 < (write_head major arg).length :=
  length_pos_iff.mpr (write_head_ne_nil major arg)

theorem write_value_ne_nil (v : CborValue) : write_value v ≠ [] := by
  cases v with
  | Bool b => cases b <;> simp [write_value]
  | _ => simp [write_value, write_text, write_head_ne_nil]

variable {v : CborValue}

theorem fuel_left (enough : (write_value v).length ≤ fuel) : ∃ more, fuel = more + 1 := by
  have filled := length_pos_iff.mpr (write_value_ne_nil v)
  exact Nat.exists_eq_succ_of_ne_zero (by omega)

/-- The decoder reads an encoded tree back, with the pairs of its maps in canonical order. -/
theorem read_value_write (fits : Fits v) (enough : (write_value v).length ≤ fuel) (rest : Bytes) :
    read_value fuel (write_value v ++ rest) = .ok (canon v, rest) := by
  induction v generalizing fuel rest with
  | uint n =>
    obtain ⟨fuel, rfl⟩ := fuel_left enough
    rw [write_value, read_value_head (by decide)]
    rfl
  | bytes b =>
    obtain ⟨fuel, rfl⟩ := fuel_left enough
    rw [write_value, append_assoc, read_value_head (by decide)]
    exact read_body_bytes (by simpa [Fits, everyValue, lengthsFit] using fits) rest
  | text s =>
    obtain ⟨fuel, rfl⟩ := fuel_left enough
    rw [write_value]
    exact read_value_text (by simpa [Fits, everyValue, lengthsFit] using fits) rest
  | array items ih =>
    obtain ⟨fuel, rfl⟩ := fuel_left enough
    obtain ⟨here, there⟩ := everyValue_array.mp fits
    have short := length_write_head_pos MAJOR_ARRAY (UInt64.ofNat items.length)
    rw [write_value_array, length_append] at enough
    rw [write_value_array, append_assoc, read_value_head (by decide), canon_array]
    refine read_body_array (by simpa [lengthsFit] using here) (times_flatMap ?_ rest)
    intro v member after
    have part := length_le_flatMap write_value member
    exact ih v member (there v member) (by omega) after
  | map pairs ih =>
    obtain ⟨fuel, rfl⟩ := fuel_left enough
    obtain ⟨here, there⟩ := everyValue_map.mp fits
    simp only [lengthsFit, Bool.and_eq_true, decide_eq_true_eq, all_eq_true] at here
    have short := length_write_head_pos MAJOR_MAP (UInt64.ofNat pairs.length)
    rw [write_value_map, length_append] at enough
    rw [write_value_map, append_assoc, read_value_head (by decide), canon_map]
    have back : times (read_pair (read_value fuel)) (inKeyOrder pairs).length ((inKeyOrder pairs).flatMap write_pair ++ rest)
        = .ok ((inKeyOrder pairs).map canonPair, rest) := by
      refine times_flatMap ?_ rest
      intro p member after
      have inside := (inKeyOrder_perm pairs).mem_iff.mp member
      have part := length_le_flatMap write_pair member
      rw [write_pair, length_append] at part
      have small : (write_value p.2).length ≤ fuel := by omega
      obtain ⟨less, rfl⟩ := fuel_left small
      exact read_pair_write (read_value_text (here.2 p inside) _) (ih p inside (there p inside) small after)
    rw [(inKeyOrder_perm pairs).length_eq] at back
    exact read_body_map here.1 back
  | bool b =>
    obtain ⟨fuel, rfl⟩ := fuel_left enough
    cases b <;> rfl
  | null =>
    obtain ⟨fuel, rfl⟩ := fuel_left enough
    rfl

theorem decode_encode (fits : Fits v) : decode v.encode = .ok (canon v) := by
  have back := read_value_write fits (Nat.le_succ (write_value v).length) []
  rw [append_nil] at back
  rw [decode, CborValue.encode, back, ok_bind]
  rfl

/-- A reader that leaves less than it was given. -/
def Shrinks {α : Type} (read : Reader α) : Prop := ∀ c x rest, read c = .ok (x, rest) → rest.length < c.length

section
variable {α : Type} {read : Reader α} {xs : List α}

theorem times_succ_ok (done : times read (n + 1) c = .ok (xs, rest)) :
    ∃ x after ys, read c = .ok (x, after) ∧ times read n after = .ok (ys, rest) ∧ xs = x :: ys := by
  obtain ⟨⟨x, after⟩, first, tail⟩ := bind_ok_iff.mp done
  obtain ⟨⟨ys, last⟩, others, made⟩ := bind_ok_iff.mp tail
  cases made
  exact ⟨x, after, ys, first, others, rfl⟩

theorem times_length (done : times read n c = .ok (xs, rest)) : xs.length = n := by
  induction n generalizing c xs with
  | zero =>
    cases done
    rfl
  | succ n ih =>
    obtain ⟨x, after, ys, first, others, rfl⟩ := times_succ_ok done
    rw [length_cons, ih others]

theorem times_reads {P : α → Prop} (each : ∀ c x rest, read c = .ok (x, rest) → P x ∧ rest.length < c.length)
    (done : times read n c = .ok (xs, rest)) : (∀ x ∈ xs, P x) ∧ rest.length ≤ c.length := by
  induction n generalizing c xs with
  | zero =>
    cases done
    simp
  | succ n ih =>
    obtain ⟨x, after, ys, first, others, rfl⟩ := times_succ_ok done
    obtain ⟨here, less⟩ := each c x after first
    obtain ⟨there, tail⟩ := ih others
    exact ⟨List.forall_mem_cons.mpr ⟨here, there⟩, by omega⟩

end

section
variable (each : ∀ c v rest, read c = .ok (v, rest) → Fits v ∧ rest.length < c.length)
include each

theorem read_pair_reads (done : read_pair read c = .ok (p, rest)) :
    ((as_bytes p.1).length < 2 ^ 64 ∧ Fits p.2) ∧ rest.length < c.length := by
  obtain ⟨⟨key, middle⟩, first, tail⟩ := bind_ok_iff.mp done
  obtain ⟨⟨value, last⟩, second, made⟩ := bind_ok_iff.mp tail
  obtain ⟨key_fits, here⟩ := each c key middle first
  obtain ⟨value_fits, there⟩ := each middle value last second
  cases key with
  | Text s =>
    cases made
    exact ⟨⟨by simpa [Fits, everyValue, lengthsFit] using key_fits, value_fits⟩, by omega⟩
  | _ => cases made

theorem read_body_reads (done : read_body read major arg c = .ok (v, rest)) : Fits v ∧ rest.length ≤ c.length := by
  have bound := arg.toNat_lt
  unfold read_body at done
  split_ifs at done
  · cases done
    exact ⟨rfl, le_rfl⟩
  · obtain ⟨⟨slice, after⟩, taken, made⟩ := bind_ok_iff.mp done
    obtain ⟨rfl, counted⟩ := take_ok taken
    cases made
    rw [← counted] at bound
    exact ⟨by simpa [Fits, everyValue, lengthsFit] using bound, by simp⟩
  · obtain ⟨⟨slice, after⟩, taken, made⟩ := bind_ok_iff.mp done
    obtain ⟨rfl, counted⟩ := take_ok taken
    simp only at made
    split at made
    · rename_i s valid
      cases made
      rw [← counted, ← from_utf8_eq_some.mp valid] at bound
      exact ⟨by simpa [Fits, everyValue, lengthsFit] using bound, by simp⟩
    · cases made
  · obtain ⟨⟨items, after⟩, looped, made⟩ := bind_ok_iff.mp done
    obtain ⟨all, less⟩ := times_reads each looped
    cases made
    rw [← times_length looped] at bound
    exact ⟨everyValue_array.mpr ⟨by simpa [lengthsFit] using bound, all⟩, less⟩
  · obtain ⟨⟨pairs, after⟩, looped, made⟩ := bind_ok_iff.mp done
    obtain ⟨all, less⟩ := times_reads (fun _ _ _ paired => read_pair_reads each paired) looped
    cases made
    rw [← times_length looped] at bound
    refine ⟨everyValue_map.mpr ⟨?_, fun p member => (all p member).2⟩, less⟩
    simpa [lengthsFit] using ⟨bound, fun s v member => (all (s, v) member).1⟩

end

/-- What is read has lengths that a `u64` holds, and every read takes at least one byte. -/
theorem read_value_reads (done : read_value fuel c = .ok (v, rest)) : Fits v ∧ rest.length < c.length := by
  induction fuel generalizing c rest v with
  | zero => cases done
  | succ fuel ih =>
    obtain ⟨⟨first, after⟩, taken, more⟩ := bind_ok_iff.mp done
    cases take_u8_ok taken
    simp only at more
    split_ifs at more
    · cases more
      exact ⟨rfl, by simp⟩
    · cases more
      exact ⟨rfl, by simp⟩
    · cases more
      exact ⟨rfl, by simp⟩
    · obtain ⟨⟨arg, body⟩, head, made⟩ := bind_ok_iff.mp more
      obtain ⟨fits, last⟩ := read_body_reads (fun _ _ _ => ih) made
      refine ⟨fits, ?_⟩
      rw [read_arg_ok head, length_cons, length_append]
      dsimp only at last
      omega

/-- Two readers that agree on every input of at most `n` bytes. -/
def AgreeUpTo {α : Type} (n : Nat) (one two : Reader α) : Prop := ∀ c : Bytes, c.length ≤ n → one c = two c

section
variable {n : Nat}

theorem times_agree {α : Type} {one two : Reader α} (agree : AgreeUpTo n one two) (shrinks : Shrinks two) (count : Nat) :
    AgreeUpTo n (times one count) (times two count) := by
  induction count with
  | zero => exact fun _ _ => rfl
  | succ count ih =>
    intro c small
    rw [times, times, agree c small]
    cases first : two c with
    | error e => rfl
    | ok r =>
      obtain ⟨x, after⟩ := r
      have less := shrinks c x after first
      simp [ih after (by omega)]

theorem read_pair_agree (agree : AgreeUpTo n one two) (shrinks : Shrinks two) :
    AgreeUpTo n (read_pair one) (read_pair two) := by
  intro c small
  rw [read_pair, read_pair, agree c small]
  cases first : two c with
  | error e => rfl
  | ok r =>
    obtain ⟨key, after⟩ := r
    have less := shrinks c key after first
    simp only [ok_bind, agree after (by omega)]

theorem read_body_agree (agree : AgreeUpTo n one two)
    (each : ∀ c v rest, two c = .ok (v, rest) → Fits v ∧ rest.length < c.length) (major : UInt8) (arg : UInt64) :
    AgreeUpTo n (read_body one major arg) (read_body two major arg) := by
  intro c small
  have shrinks : Shrinks two := fun c v rest done => (each c v rest done).2
  have pairs : Shrinks (read_pair two) := fun c p rest done => (read_pair_reads each done).2
  unfold read_body
  rw [times_agree agree shrinks arg.toNat c small,
    times_agree (read_pair_agree agree shrinks) pairs arg.toNat c small]

end

/-- Fuel above the length of the input is never used up. -/
theorem read_value_more (fuel : Nat) (enough : c.length < fuel) : read_value (fuel + 1) c = read_value fuel c := by
  induction fuel generalizing c with
  | zero => omega
  | succ fuel ih =>
    rw [read_value, read_value]
    cases taken : take_u8 c with
    | error e => rfl
    | ok r =>
      obtain ⟨first, after⟩ := r
      cases take_u8_ok taken
      cases head : read_arg (first &&& 0x1F) after with
      | error e => simp [head]
      | ok r =>
        obtain ⟨arg, body⟩ := r
        have mid : body.length ≤ after.length := by rw [read_arg_ok head]; simp
        have agree : AgreeUpTo body.length (read_value (fuel + 1)) (read_value fuel) := fun part small => ih (by simp at enough; omega)
        simp only [ok_bind, head, read_body_agree agree (fun _ _ _ => read_value_reads) (first >>> 5) arg body le_rfl]

end Crux.Session
