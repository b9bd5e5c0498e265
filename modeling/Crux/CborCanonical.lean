import Crux.Cbor

/-!
# What the CBOR decoder accepts

The decoder promises to refuse every spelling but the canonical one. It checks
neither the width of a head nor the order of map keys. `Canonical` is the
missing check, on the bytes alone: every head is as short as its argument
allows and the keys of every map ascend. An accepted input is the encoding of
its value, with no key twice, exactly when it passes that check.
-/

namespace Crux.Session
open Crux.Bytes List

/-- `count` items, one behind the other. -/
def checkItems (check : Bytes → Option Bytes) : Nat → Bytes → Option Bytes
  | 0, c => some c
  | count + 1, c => do checkItems check count (← check c)

/-- `count` keys and values, every key above the one before it. -/
def checkPairs (check : Bytes → Option Bytes) : Nat → Option Bytes → Bytes → Option Bytes
  | 0, _, c => some c
  | count + 1, before, c => do
    let middle ← check c
    let key := c.take (c.length - middle.length)
    if before.all fun prior => prior < key then checkPairs check count (some key) (← check middle) else none

def checkBody (check : Bytes → Option Bytes) (major : UInt8) (arg : UInt64) (c : Bytes) : Option Bytes :=
  if major = MAJOR_UINT then some c
  else if major = MAJOR_BYTES ∨ major = MAJOR_TEXT then some (c.drop arg.toNat)
  else if major = MAJOR_ARRAY then checkItems check arg.toNat c
  else if major = MAJOR_MAP then checkPairs check arg.toNat none c
  else none

/-- What stands behind one item whose heads are shortest and whose map keys ascend. -/
def checkItem : Nat → Bytes → Option Bytes
  | 0, _ => none
  | _ + 1, [] => none
  | fuel + 1, first :: c =>
    if first = SIMPLE_TRUE ∨ first = SIMPLE_FALSE ∨ first = SIMPLE_NULL then some c
    else
      match read_arg (first &&& 0x1F) c with
      | .ok (arg, c) =>
        if first &&& 0x1F = shortInfo arg then checkBody (checkItem fuel) (first >>> 5) arg c else none
      | .error _ => none

/-- The input is one item with shortest heads and ascending map keys. -/
def Canonical (bytes : Bytes) : Prop := checkItem (bytes.length + 1) bytes = some []

instance (bytes : Bytes) : Decidable (Canonical bytes) := inferInstanceAs (Decidable (_ = _))

variable {fuel : Nat}

theorem checkItem_head (known : major.toNat < 7) (arg : UInt64) (c : Bytes) :
    checkItem (fuel + 1) (write_head major arg ++ c) = checkBody (checkItem fuel) major arg c := by
  obtain ⟨top, low⟩ := first_byte (by omega : major.toNat < 8) (shortInfo_lt arg)
  have plain : ¬ ((major <<< 5 ||| shortInfo arg) = SIMPLE_TRUE ∨ (major <<< 5 ||| shortInfo arg) = SIMPLE_FALSE
      ∨ (major <<< 5 ||| shortInfo arg) = SIMPLE_NULL) := by
    rintro (simple | simple | simple)
    all_goals
      rw [simple] at top
      rw [← top] at known
      exact absurd known (by decide)
  rw [write_head_eq, cons_append, checkItem, if_neg plain, low, read_arg_append]
  simp [top]

theorem checkItems_flatMap {items : List CborValue} (passes : ∀ v ∈ items, ∀ rest, check (write_value v ++ rest) = some rest)
    (rest : Bytes) :
    checkItems check items.length (items.flatMap write_value ++ rest) = some rest := by
  induction items with
  | nil => rfl
  | cons v items ih =>
    rw [flatMap_cons, append_assoc, length_cons, checkItems,
      passes v (by simp) (items.flatMap write_value ++ rest)]
    exact ih fun w member => passes w (by simp [member])

/-- The pairs stand in ascending order of their encoded keys, none of them twice. -/
def Ascending (pairs : List (String × CborValue)) : Prop := pairs.Pairwise fun p q => write_text p.1 < write_text q.1

variable {pairs : List (String × CborValue)}

theorem checkPairs_flatMap (keys : ∀ p ∈ pairs, ∀ rest, check (write_text p.1 ++ rest) = some rest)
    (values : ∀ p ∈ pairs, ∀ rest, check (write_value p.2 ++ rest) = some rest) (ascending : Ascending pairs)
    (above : ∀ prior ∈ before, ∀ p ∈ pairs, prior < write_text p.1) (rest : Bytes) :
    checkPairs check pairs.length before (pairs.flatMap write_pair ++ rest) = some rest := by
  induction pairs generalizing before with
  | nil => rfl
  | cons p pairs ih =>
    obtain ⟨first, others⟩ := pairwise_cons.mp ascending
    have least : (before.all fun prior => prior < write_text p.1) = true := by
      cases before with
      | none => rfl
      | some prior => simpa using above prior rfl p (by simp)
    have past : ∀ prior ∈ some (write_text p.1), ∀ q ∈ pairs, prior < write_text q.1 := by
      rintro prior ⟨⟩ q member
      exact first q member
    have later := ih (fun q member => keys q (by simp [member])) (fun q member => values q (by simp [member])) others past
    rw [flatMap_cons, append_assoc, write_pair, append_assoc, length_cons, checkPairs,
      keys p (by simp)]
    simp [least, values p (by simp), later]

theorem checkItem_text (fits : (as_bytes s).length < 2 ^ 64) (rest : Bytes) :
    checkItem (fuel + 1) (write_text s ++ rest) = some rest := by
  rw [write_text, append_assoc, checkItem_head (by decide), checkBody, if_neg (by decide), if_pos (.inr rfl),
    ofNat_toNat_length fits, drop_left]

theorem write_text_inj (fits : (as_bytes s).length < 2 ^ 64) (fits' : (as_bytes t).length < 2 ^ 64)
    (same : write_text s = write_text t) : s = t := by
  have one := @read_value_text 0 s fits []
  have two := @read_value_text 0 t fits' []
  rw [same, two] at one
  simpa using one.symm

theorem inKeyOrder_ascending (distinct : (pairs.map Prod.fst).Nodup)
    (fits : ∀ p ∈ pairs, (as_bytes p.1).length < 2 ^ 64) : Ascending (inKeyOrder pairs) := by
  have apart : (inKeyOrder pairs).Pairwise fun p q => p.1 ≠ q.1 := by
    have moved := ((inKeyOrder_perm pairs).map Prod.fst).nodup_iff.mpr distinct
    exact pairwise_map.mp moved
  refine ((pairwise_insertionSort textBefore pairs).and apart).imp_of_mem ?_
  rintro p q memberP memberQ ⟨before, differ⟩
  have fitsP := fits p ((inKeyOrder_perm pairs).mem_iff.mp memberP)
  have fitsQ := fits q ((inKeyOrder_perm pairs).mem_iff.mp memberQ)
  exact Std.lt_of_le_of_ne before fun same => differ (write_text_inj fitsP fitsQ same)

variable {v : CborValue}

theorem checkItem_write (fits : Fits v) (distinct : DistinctKeys v)
    (enough : (write_value v).length ≤ fuel) (rest : Bytes) : checkItem fuel (write_value v ++ rest) = some rest := by
  induction v generalizing fuel rest with
  | uint n =>
    obtain ⟨fuel, rfl⟩ := fuel_left enough
    rw [write_value, checkItem_head (by decide)]
    rfl
  | bytes b =>
    obtain ⟨fuel, rfl⟩ := fuel_left enough
    have small : b.length < 2 ^ 64 := by simpa [Fits, everyValue, lengthsFit] using fits
    rw [write_value, append_assoc, checkItem_head (by decide), checkBody, if_neg (by decide), if_pos (.inl rfl),
      ofNat_toNat_length small, drop_left]
  | text s =>
    obtain ⟨fuel, rfl⟩ := fuel_left enough
    rw [write_value]
    exact checkItem_text (by simpa [Fits, everyValue, lengthsFit] using fits) rest
  | array items ih =>
    obtain ⟨fuel, rfl⟩ := fuel_left enough
    obtain ⟨here, there⟩ := everyValue_array.mp fits
    have apart := (everyValue_array.mp distinct).2
    have small : items.length < 2 ^ 64 := by simpa [lengthsFit] using here
    have short := length_write_head_pos MAJOR_ARRAY (UInt64.ofNat items.length)
    rw [write_value_array, length_append] at enough
    rw [write_value_array, append_assoc, checkItem_head (by decide), checkBody, if_neg (by decide),
      if_neg (by decide), if_pos rfl, ofNat_toNat_length small]
    refine checkItems_flatMap ?_ rest
    intro v member after
    have part := length_le_flatMap write_value member
    exact ih v member (there v member) (apart v member) (by omega) after
  | map pairs ih =>
    obtain ⟨fuel, rfl⟩ := fuel_left enough
    obtain ⟨here, there⟩ := everyValue_map.mp fits
    obtain ⟨nodup, apart⟩ := everyValue_map.mp distinct
    simp only [lengthsFit, Bool.and_eq_true, decide_eq_true_eq, all_eq_true] at here
    simp [keysDistinct] at nodup
    have short := length_write_head_pos MAJOR_MAP (UInt64.ofNat pairs.length)
    rw [write_value_map, length_append] at enough
    rw [write_value_map, append_assoc, checkItem_head (by decide), checkBody, if_neg (by decide),
      if_neg (by decide), if_neg (by decide), if_pos rfl, ofNat_toNat_length here.1,
      ← (inKeyOrder_perm pairs).length_eq]
    have room : ∀ p ∈ inKeyOrder pairs, p ∈ pairs ∧ (write_value p.2).length ≤ fuel := by
      intro p member
      have part := length_le_flatMap write_pair member
      rw [write_pair, length_append] at part
      exact ⟨(inKeyOrder_perm pairs).mem_iff.mp member, by omega⟩
    refine checkPairs_flatMap ?_ ?_ (inKeyOrder_ascending nodup here.2) (by simp) rest
    · intro p member after
      obtain ⟨inside, small⟩ := room p member
      obtain ⟨less, rfl⟩ := fuel_left small
      exact checkItem_text (here.2 p inside) after
    · intro p member after
      obtain ⟨inside, small⟩ := room p member
      exact ih p inside (there p inside) (apart p inside) small after
  | bool b =>
    obtain ⟨fuel, rfl⟩ := fuel_left enough
    cases b <;> rfl
  | null =>
    obtain ⟨fuel, rfl⟩ := fuel_left enough
    rfl

theorem Ascending.inKeyOrder_eq (ascending : Ascending pairs) : inKeyOrder pairs = pairs :=
  List.Pairwise.insertionSort_eq (ascending.imp fun less => List.le_of_lt less)

theorem Ascending.nodup (ascending : Ascending pairs) : (pairs.map Prod.fst).Nodup := by
  refine pairwise_map.mpr (ascending.imp ?_)
  intro p q less same
  rw [same] at less
  exact List.lt_irrefl _ less

/-- Where the check passes, the reader reads an encoding and stops where the check stops. -/
def Faithful (read : Reader CborValue) (check : Bytes → Option Bytes) : Prop :=
  ∀ c v rest after, read c = .ok (v, rest) → check c = some after →
    c = write_value v ++ rest ∧ after = rest ∧ DistinctKeys v

section
variable {read : Reader CborValue} {check : Bytes → Option Bytes} (faithful : Faithful read check)
include faithful

variable {c after : Bytes}

theorem items_of_check (done : times read n c = .ok (items, rest)) (passed : checkItems check n c = some after) :
    c = items.flatMap write_value ++ rest ∧ after = rest ∧ ∀ v ∈ items, DistinctKeys v := by
  induction n generalizing c items with
  | zero =>
    cases done
    exact ⟨rfl, (Option.some.inj passed).symm, by simp⟩
  | succ n ih =>
    obtain ⟨v, middle, others, first, looped, rfl⟩ := times_succ_ok done
    obtain ⟨stop, here, there⟩ := Option.bind_eq_some_iff.mp passed
    obtain ⟨rfl, rfl, distinct⟩ := faithful _ _ _ _ first here
    obtain ⟨split, rfl, all⟩ := ih looped there
    refine ⟨?_, rfl, List.forall_mem_cons.mpr ⟨distinct, all⟩⟩
    rw [flatMap_cons, append_assoc, ← split]

theorem pair_of_check (done : read_pair read c = .ok (p, rest)) (passed : check c = some middle) :
    c = write_text p.1 ++ middle ∧ ∀ after, check middle = some after →
      middle = write_value p.2 ++ rest ∧ after = rest ∧ DistinctKeys p.2 := by
  obtain ⟨⟨key, inner⟩, first, tail⟩ := bind_ok_iff.mp done
  obtain ⟨⟨value, behind⟩, second, made⟩ := bind_ok_iff.mp tail
  obtain ⟨rfl, rfl, -⟩ := faithful _ _ _ _ first passed
  cases key with
  | Text s =>
    cases made
    exact ⟨by rw [write_value], fun after valued => faithful _ _ _ _ second valued⟩
  | _ => cases made

theorem pairs_of_check (done : times (read_pair read) n c = .ok (pairs, rest))
    (passed : checkPairs check n before c = some after) :
    c = pairs.flatMap write_pair ++ rest ∧ after = rest ∧ Ascending pairs
      ∧ (∀ prior ∈ before, ∀ p ∈ pairs, prior < write_text p.1) ∧ ∀ p ∈ pairs, DistinctKeys p.2 := by
  induction n generalizing c before pairs with
  | zero =>
    cases done
    exact ⟨rfl, (Option.some.inj passed).symm, List.Pairwise.nil, by simp, by simp⟩
  | succ n ih =>
    obtain ⟨p, middle, others, paired, looped, rfl⟩ := times_succ_ok done
    obtain ⟨stop, keyed, more⟩ := Option.bind_eq_some_iff.mp passed
    obtain ⟨rfl, value⟩ := pair_of_check faithful paired keyed
    have key : (write_text p.1 ++ stop).take ((write_text p.1 ++ stop).length - stop.length) = write_text p.1 := by
      simp
    simp only [key] at more
    split_ifs at more with above
    obtain ⟨next, valued, others'⟩ := Option.bind_eq_some_iff.mp more
    obtain ⟨rfl, rfl, distinct⟩ := value next valued
    obtain ⟨split, rfl, ascending, past, all⟩ := ih looped others'
    have least := past _ rfl
    refine ⟨?_, rfl, pairwise_cons.mpr ⟨least, ascending⟩, ?_, List.forall_mem_cons.mpr ⟨distinct, all⟩⟩
    · rw [flatMap_cons, append_assoc, write_pair, append_assoc, ← split]
    · rintro prior ⟨⟩
      have first : prior < write_text p.1 := by simpa using above
      exact List.forall_mem_cons.mpr ⟨first, fun q member => List.lt_trans first (least q member)⟩

theorem body_of_check (done : read_body read major arg c = .ok (v, rest)) (passed : checkBody check major arg c = some after) :
    write_head major arg ++ c = write_value v ++ rest ∧ after = rest ∧ DistinctKeys v := by
  have counted : ∀ n : Nat, n = arg.toNat → UInt64.ofNat n = arg := by
    rintro n rfl
    exact UInt64.ofNat_toNat
  unfold read_body at done
  unfold checkBody at passed
  split_ifs at done with uint bytes text array map
  · cases done
    rw [if_pos uint] at passed
    exact ⟨by rw [write_value, uint], (Option.some.inj passed).symm, rfl⟩
  · rw [if_neg uint, if_pos (.inl bytes)] at passed
    obtain ⟨⟨slice, behind⟩, taken, made⟩ := bind_ok_iff.mp done
    cases made
    obtain ⟨rfl, size⟩ := take_ok taken
    rw [← size, drop_left] at passed
    refine ⟨?_, (Option.some.inj passed).symm, rfl⟩
    rw [write_value, counted _ size, bytes, append_assoc]
  · rw [if_neg uint, if_pos (.inr text)] at passed
    obtain ⟨⟨slice, behind⟩, taken, made⟩ := bind_ok_iff.mp done
    obtain ⟨rfl, size⟩ := take_ok taken
    simp only at made
    split at made
    · rename_i s valid
      cases made
      have spelled := from_utf8_eq_some.mp valid
      rw [← size, drop_left] at passed
      refine ⟨?_, (Option.some.inj passed).symm, rfl⟩
      rw [write_value, write_text, spelled, counted _ size, text, append_assoc]
    · cases made
  · rw [if_neg uint, if_neg (by simp [bytes, text]), if_pos array] at passed
    obtain ⟨⟨items, behind⟩, looped, made⟩ := bind_ok_iff.mp done
    cases made
    obtain ⟨rfl, rfl, all⟩ := items_of_check faithful looped passed
    refine ⟨?_, rfl, everyValue_array.mpr ⟨rfl, all⟩⟩
    rw [write_value_array, counted _ (times_length looped), array, append_assoc]
  · rw [if_neg uint, if_neg (by simp [bytes, text]), if_neg array, if_pos map] at passed
    obtain ⟨⟨pairs, behind⟩, looped, made⟩ := bind_ok_iff.mp done
    cases made
    obtain ⟨rfl, rfl, ascending, -, all⟩ := pairs_of_check faithful looped passed
    refine ⟨?_, rfl, everyValue_map.mpr ⟨by simpa [keysDistinct] using ascending.nodup, all⟩⟩
    rw [write_value_map, ascending.inKeyOrder_eq, counted _ (times_length looped), map, append_assoc]

end

theorem read_value_faithful (fuel : Nat) : Faithful (read_value fuel) (checkItem fuel) := by
  induction fuel with
  | zero => intro c v rest after done; cases done
  | succ fuel ih =>
    intro c v rest after done passed
    obtain ⟨⟨first, behind⟩, taken, more⟩ := bind_ok_iff.mp done
    cases take_u8_ok taken
    rw [checkItem] at passed
    simp only at more
    split_ifs at more with yes no null
    · cases more
      rw [if_pos (.inl yes)] at passed
      exact ⟨by rw [yes]; rfl, (Option.some.inj passed).symm, rfl⟩
    · cases more
      rw [if_pos (.inr (.inl no))] at passed
      exact ⟨by rw [no]; rfl, (Option.some.inj passed).symm, rfl⟩
    · cases more
      rw [if_pos (.inr (.inr null))] at passed
      exact ⟨by rw [null]; rfl, (Option.some.inj passed).symm, rfl⟩
    · obtain ⟨⟨arg, body⟩, head, made⟩ := bind_ok_iff.mp more
      rw [if_neg (by simp [yes, no, null]), head] at passed
      simp only at passed
      split_ifs at passed with short
      obtain ⟨written, same, distinct⟩ := body_of_check ih made passed
      refine ⟨?_, same, distinct⟩
      rw [read_arg_ok head, ← written, ← head_of_shortest short, cons_append]

theorem decode_ok_iff : decode bytes = .ok v ↔ read_value (bytes.length + 1) bytes = .ok (v, []) := by
  constructor
  · intro decoded
    obtain ⟨⟨value, rest⟩, read, more⟩ := bind_ok_iff.mp decoded
    obtain ⟨whole, made⟩ := ensure_bind_ok.mp more
    cases made
    rw [read, whole]
  · intro read
    rw [decode, read]
    rfl

theorem encode_iff_canonical (accepted : decode bytes = .ok v) : v.encode = bytes ∧ DistinctKeys v ↔ Canonical bytes := by
  have read := decode_ok_iff.mp accepted
  constructor
  · rintro ⟨rfl, distinct⟩
    have passed := checkItem_write (read_value_reads read).1 distinct (Nat.le_succ _) []
    rwa [append_nil] at passed
  · intro canonical
    obtain ⟨written, -, distinct⟩ := read_value_faithful _ _ _ _ _ read canonical
    rw [append_nil] at written
    exact ⟨written.symm, distinct⟩

/-- An accepted input is the encoding of its value, with no key twice in a map, exactly when
its heads are shortest and its map keys ascend; and no value has two such inputs. -/
theorem decode_canonical_iff {bytes : Bytes} {v : CborValue} (accepted : decode bytes = .ok v) :
    (v.encode = bytes ∧ DistinctKeys v ↔ Canonical bytes)
      ∧ ∀ other, decode other = .ok v → Canonical bytes → Canonical other → other = bytes := by
  refine ⟨encode_iff_canonical accepted, ?_⟩
  intro other accepted' canonical canonical'
  have one := (encode_iff_canonical accepted).mpr canonical
  have two := (encode_iff_canonical accepted').mpr canonical'
  exact two.1.symm.trans one.1

/-- A map read back as it was written. -/
theorem sorted_map_canonical :
    ∃ v, decode [0xA2, 0x61, 0x61, 0x01, 0x61, 0x62, 0x02] = .ok v
      ∧ Canonical [0xA2, 0x61, 0x61, 0x01, 0x61, 0x62, 0x02]
      ∧ v.encode = [0xA2, 0x61, 0x61, 0x01, 0x61, 0x62, 0x02] := by
  have canonical : Canonical [0xA2, 0x61, 0x61, 0x01, 0x61, 0x62, 0x02] := by decide +kernel
  have accepted : decode [0xA2, 0x61, 0x61, 0x01, 0x61, 0x62, 0x02] = .ok (.Map [("a", .Uint 1), ("b", .Uint 2)]) := by
    rfl
  exact ⟨_, accepted, canonical, ((decode_canonical_iff accepted).1.mpr canonical).1⟩

/-- Heads that are not shortest, keys out of order and keys that stand twice are all accepted. -/
theorem loose_spellings_accepted :
    (decode [0x18, 0x05] = .ok (.Uint 5) ∧ decode [0x05] = .ok (.Uint 5) ∧ (CborValue.Uint 5).encode = [0x05])
    ∧ (decode [0xA2, 0x61, 0x62, 0x02, 0x61, 0x61, 0x01] = .ok (.Map [("b", .Uint 2), ("a", .Uint 1)])
      ∧ (CborValue.Map [("b", .Uint 2), ("a", .Uint 1)]).encode = [0xA2, 0x61, 0x61, 0x01, 0x61, 0x62, 0x02])
    ∧ decode [0xA2, 0x61, 0x61, 0x01, 0x61, 0x61, 0x01] = .ok (.Map [("a", .Uint 1), ("a", .Uint 1)]) := by
  exact ⟨⟨rfl, rfl, rfl⟩, ⟨rfl, rfl⟩, rfl⟩

end Crux.Session
