import Crux.SegmentRoundTrip

/-!
# What the trailer index says

The block cuts, the frames by offset, their sorted order and the bloom filters
are made by separate passes over the frames. `IndexCorrect` is what a reader of
the decoded index relies on, and `trailer_index_correct` that every index that
is built or sealed has it.
-/

namespace Crux.Segment
open Crux.Bytes List

/-- Where the uncompressed bytes of a block begin in the record area. -/
def spanStart (blocks : List BlockMetaV1) (i : Nat) : Nat := ((blocks.map fun b => b.uncompressed_len.toNat).take i).sum

/-- An entry that leads to its frame: into its block, at the place of the frame, past the block's filter. -/
def LeadsTo (P : Primitives) (t : TrailerIndexV1) (f : FrameMetaTmp) (e : TocByOffsetEntryV1) : Prop :=
  e.stream_hash = f.stream_hash ∧ e.seq = f.seq ∧ e.frame_len = f.frame_len ∧
    ∃ b, t.blocks[e.block_id.toNat]? = some b ∧
      spanStart t.blocks e.block_id.toNat + e.in_block_offset.toNat = f.record_off.toNat ∧
      e.in_block_offset.toNat + e.frame_len.toNat ≤ b.uncompressed_len.toNat ∧
      bloom_maybe_contains_stream_hash_v1 P b.bloom t.bloom_hash_k f.stream_hash = true

/-- The order of the sorted index: by stream and sequence number. -/
def keyLe (a b : TocByOffsetEntryV1) : Prop :=
  a.stream_hash < b.stream_hash ∨ a.stream_hash = b.stream_hash ∧ a.seq ≤ b.seq

structure IndexCorrect (P : Primitives) (record_area : Bytes) (frames : List FrameMetaTmp) (t : TrailerIndexV1) : Prop where
  numbered : ∀ (i : Nat), ∀ b ∈ t.blocks[i]?, b.block_id.toNat = i
  covers : spanStart t.blocks t.blocks.length = record_area.length
  /-- A block above the bound is filled by a single frame. -/
  bounded : ∀ (i : Nat), ∀ b ∈ t.blocks[i]?, b.uncompressed_len ≤ RECORD_BLOCK_UNCOMPRESSED_MAX_LEN_V1 ∨
    ∃ f ∈ frames, f.record_off.toNat = spanStart t.blocks i ∧ f.frame_len = b.uncompressed_len
  entries : List.Forall₂ (LeadsTo P t) frames t.toc_by_offset
  permutes : (t.toc_sorted_idx.map UInt32.toNat).Perm (List.range t.toc_by_offset.length)
  sorted : t.toc_sorted_idx.Pairwise fun i j =>
    ∀ a ∈ t.toc_by_offset[i.toNat]?, ∀ b ∈ t.toc_by_offset[j.toNat]?, keyLe a b

/-- A bit of a byte string. -/
def HasBit (bits : Bytes) (bit : Nat) : Prop := bits.getD (bit / 8) 0 &&& (1 <<< UInt8.ofNat (bit % 8)) ≠ 0

theorem or_and_ne_zero {a b m : UInt8} (h : a &&& m ≠ 0 ∨ b &&& m ≠ 0) : (a ||| b) &&& m ≠ 0 := by
  intro zero
  have both : (a ||| b) &&& m = (a &&& m) ||| (b &&& m) := UInt8.toBitVec_inj.mp BitVec.and_or_distrib_right
  rw [both, UInt8.or_eq_zero_iff] at zero
  rcases h with h | h
  · exact h zero.1
  · exact h zero.2

theorem HasBit.setBit (has : HasBit bits bit) (other : Nat) : HasBit (setBit bits other) bit := by
  unfold HasBit Segment.setBit at *
  rw [getD_eq_getElem?_getD] at *
  cases found : bits[bit / 8]? with
  | none => simp [found] at has
  | some b =>
    rw [found, Option.getD_some] at has
    rw [List.getElem?_modify, found, Option.map_eq_map, Option.map_some, Option.getD_some]
    split_ifs
    · exact or_and_ne_zero (.inl has)
    · exact has

theorem hasBit_setBit (room : bit / 8 < bits.length) : HasBit (setBit bits bit) bit := by
  have mask : ∀ k < 8, (1 : UInt8) <<< UInt8.ofNat k &&& 1 <<< UInt8.ofNat k ≠ 0 := by decide
  unfold HasBit Segment.setBit
  rw [getD_eq_getElem?_getD, List.getElem?_modify, List.getElem?_eq_getElem room, Option.map_eq_map, Option.map_some,
    Option.getD_some, if_pos rfl]
  exact or_and_ne_zero (.inr (mask _ (Nat.mod_lt _ (by decide))))

theorem bloom_contains_iff {bloom : Bloom} : bloom_maybe_contains_stream_hash_v1 P bloom k stream = true ↔
    ∀ seed < k.toNat, HasBit bloom.val (bloomBit P stream seed) := by
  simp [bloom_maybe_contains_stream_hash_v1, HasBit]

/-- The seeds so far are in the filter, and nothing that was in it is lost. -/
theorem bloom_insert_bits (P : Primitives) (stream : UInt64) (bloom : Bloom) (n : Nat) :
    let after := (List.range n).foldl (fun acc seed => (⟨setBit acc.val (bloomBit P stream seed), by simp⟩ : Bloom)) bloom
    (∀ seed < n, HasBit after.val (bloomBit P stream seed)) ∧ ∀ bit, HasBit bloom.val bit → HasBit after.val bit := by
  induction n with
  | zero => exact ⟨fun _ none => absurd none (Nat.not_lt_zero _), fun _ has => has⟩
  | succ n ih =>
    rw [range_succ, foldl_append]
    refine ⟨fun seed below => ?_, fun bit has => (ih.2 bit has).setBit _⟩
    rcases Nat.lt_succ_iff_lt_or_eq.mp below with earlier | rfl
    · exact (ih.1 seed earlier).setBit _
    · refine hasBit_setBit ?_
      have room : bloomBit P stream seed < 8 * BLOOM_BYTES_PER_BLOCK_V1 := Nat.mod_lt _ (by decide)
      simpa using Nat.div_lt_of_lt_mul room

/-- A frame with any bytes in the block of its number. -/
def InBlock (P : Primitives) (cuts : List BlockCut) (f : FrameMetaTmp) (bid : UInt32) : Prop :=
  0 < f.frame_len.toNat ∧ ∃ i c, bid = UInt32.ofNat i ∧ cuts[i]? = some c ∧ c.start ≤ f.record_off.toNat ∧
    f.record_off.toNat + f.frame_len.toNat ≤ c.start + c.len ∧
    bloom_maybe_contains_stream_hash_v1 P c.bloom BLOOM_HASH_K_V1 f.stream_hash = true

variable {P : Primitives} {st : CutState} {frames : List FrameMetaTmp}

theorem InBlock.append (h : InBlock P cuts f bid) (more : List BlockCut) : InBlock P (cuts ++ more) f bid := by
  obtain ⟨positive, i, c, number, found, inside⟩ := h
  exact ⟨positive, i, c, number, by rw [List.getElem?_append_left (List.getElem?_eq_some_iff.mp found).1, found], inside⟩

theorem InBlock.last (h : InBlock P (cuts ++ [c]) f bid)
    (grows : 0 < c.len → d.start = c.start ∧ c.len ≤ d.len ∧ ∀ bit, HasBit c.bloom.val bit → HasBit d.bloom.val bit) :
    InBlock P (cuts ++ [d]) f bid ∧ (c.len = 0 → InBlock P cuts f bid) := by
  obtain ⟨positive, i, e, number, found, start, stop, bloom⟩ := h
  by_cases earlier : i < cuts.length
  · rw [List.getElem?_append_left earlier] at found
    have inside : InBlock P cuts f bid := ⟨positive, i, e, number, found, start, stop, bloom⟩
    exact ⟨inside.append _, fun _ => inside⟩
  · obtain ⟨here, rfl⟩ : i = cuts.length ∧ c = e := by
      have bound := (List.getElem?_eq_some_iff.mp found).1
      rw [length_append, length_singleton] at bound
      obtain rfl : i = cuts.length := by omega
      simpa using found
    obtain ⟨same, le, kept⟩ := grows (by omega)
    refine ⟨⟨positive, i, d, number, by simp [here], by omega, by omega, bloom_contains_iff.mpr fun seed below => ?_⟩, by omega⟩
    exact kept _ (bloom_contains_iff.mp bloom seed below)

/-- The block being filled. -/
def openBlock (st : CutState) : BlockCut := ⟨st.cur_start.getD 0, st.cur_len, st.cur_bloom⟩

/-- Every frame so far is in its block, and only a single frame is above the bound. -/
structure CutHeld (P : Primitives) (st : CutState) (frames : List FrameMetaTmp) : Prop where
  held : List.Forall₂ (InBlock P (st.blocks ++ [openBlock st])) frames st.frame_block_id
  bounded : ∀ c ∈ st.blocks ++ [openBlock st], c.len ≤ RECORD_BLOCK_UNCOMPRESSED_MAX_LEN_V1.toNat ∨
    ∃ f ∈ frames, f.record_off.toNat = c.start ∧ f.frame_len.toNat = c.len

theorem CutHeld.finalize (h : CutHeld P st frames) : CutHeld P (finalizeBlock st) frames := by
  refine ⟨h.held.imp fun _ _ inside => inside.append _, fun c member => ?_⟩
  rcases mem_append.mp member with earlier | last
  · exact h.bounded c earlier
  · rw [mem_singleton.mp last]
    exact .inl (Nat.zero_le _)

/-- A frame is added to a block that is empty, or that stays within the bound. -/
theorem CutHeld.cutFrame (h : CutHeld P st frames) (inv : CutInv st total) (here : f.record_off.toNat = total)
    (positive : 0 < f.frame_len.toNat) : CutHeld P (cutFrame P st f) (frames ++ [f]) := by
  have closed : CutHeld P (closeFull st f.frame_len.toNat) frames := by
    unfold closeFull
    split_ifs
    · exact h.finalize
    · exact h
  have fits : (closeFull st f.frame_len.toNat).cur_len = 0 ∨ (closeFull st f.frame_len.toNat).cur_len + f.frame_len.toNat ≤
      RECORD_BLOCK_UNCOMPRESSED_MAX_LEN_V1.toNat := by
    unfold closeFull
    split_ifs with full
    · exact .inl rfl
    · omega
  have inv := inv.closeFull f.frame_len.toNat
  unfold Segment.cutFrame
  generalize closeFull st f.frame_len.toNat = st at closed fits inv
  have le := inv.open_le
  have stay : 0 < st.cur_len → (openBlock st).start = total - st.cur_len := fun some => by simp [openBlock, inv.start some]
  obtain ⟨seeds, kept⟩ := bloom_insert_bits P f.stream_hash st.cur_bloom BLOOM_HASH_K_V1.toNat
  have start : (if st.cur_len = 0 then some f.record_off.toNat else st.cur_start).getD 0 = total - st.cur_len := by
    split_ifs with empty
    · rw [here, empty]; rfl
    · rw [inv.start (Nat.pos_of_ne_zero empty)]; rfl
  refine ⟨rel_append ?_ (.cons ⟨positive, st.blocks.length, _, rfl, List.getElem?_concat_length, ?_, ?_, ?_⟩ .nil), ?_⟩
  · refine closed.held.imp fun g bid inside => (inside.last fun some => ?_).1
    exact ⟨start.trans (stay some).symm, Nat.le_add_right _ _, kept⟩
  · exact start.le.trans (by omega)
  · rw [openBlock, start]
    dsimp only
    omega
  · exact bloom_contains_iff.mpr seeds
  · intro c member
    rcases mem_append.mp member with earlier | last
    · refine (closed.bounded c (mem_append_left _ earlier)).imp_right fun ⟨g, member, rest⟩ => ?_
      exact ⟨g, mem_append_left _ member, rest⟩
    · rw [mem_singleton.mp last]
      rcases fits with empty | fits
      · exact .inr ⟨f, by simp, by rw [openBlock, start, empty, here]; rfl, by simp [openBlock, empty]⟩
      · exact .inl fits

theorem CutHeld.cutFrames (later : List FrameMetaTmp) (h : CutHeld P st frames) (inv : CutInv st total)
    (follow : Contiguous total later) (positive : ∀ f ∈ later, 0 < f.frame_len.toNat) :
    CutHeld P (later.foldl (Segment.cutFrame P) st) (frames ++ later) := by
  induction later generalizing st frames total with
  | nil => rwa [append_nil]
  | cons f rest ih =>
    obtain ⟨here, follow⟩ := follow
    obtain ⟨some, positive⟩ := forall_mem_cons.mp positive
    rw [append_cons]
    exact ih (h.cutFrame inv here some) (inv.cutFrame here) follow positive

theorem cutBlocks_held (follow : Contiguous 0 frames) (positive : ∀ f ∈ frames, 0 < f.frame_len.toNat) :
    List.Forall₂ (InBlock P (cutBlocks P frames).blocks) frames (cutBlocks P frames).frame_block_id ∧
      ∀ c ∈ (cutBlocks P frames).blocks, c.len ≤ RECORD_BLOCK_UNCOMPRESSED_MAX_LEN_V1.toNat ∨
        ∃ f ∈ frames, f.record_off.toNat = c.start ∧ f.frame_len.toNat = c.len := by
  have empty : CutHeld P {} [] := ⟨.nil, fun c member => .inl (by simp_all [openBlock])⟩
  have all := empty.cutFrames frames ⟨le_refl 0, .nil 0, fun none => absurd none (lt_irrefl 0)⟩ follow positive
  rw [nil_append] at all
  unfold cutBlocks closeLast
  split_ifs with some
  · exact ⟨all.held, all.bounded⟩
  · refine ⟨all.held.imp fun g bid inside => ?_, fun c member => all.bounded c (mem_append_left _ member)⟩
    exact (inside.last (d := openBlock {}) fun held => absurd held some).2 (Nat.eq_zero_of_not_pos some)

theorem Tiles.starts {start stop : Nat} (tiles : Tiles start cuts stop) : start + (cuts.map BlockCut.len).sum = stop ∧
    ∀ (i : Nat), ∀ c ∈ cuts[i]?, start + ((cuts.map BlockCut.len).take i).sum = c.start := by
  induction tiles with
  | nil a => exact ⟨rfl, by simp⟩
  | @cons d rest stop later ih =>
    obtain ⟨whole, each⟩ := ih
    refine ⟨by rw [map_cons, sum_cons]; omega, fun i c found => ?_⟩
    cases i with
    | zero => simp_all
    | succ i =>
      have := each i c (by simpa using found)
      rw [map_cons, take_succ_cons, sum_cons]
      omega

theorem tboLeAt_trans (entries : List TocByOffsetEntryV1) : IsTrans UInt32 (tboLeAt entries) := by
  refine ⟨fun a b c => ?_⟩
  unfold tboLeAt
  cases entries[a.toNat]? <;> cases entries[b.toNat]? <;> cases entries[c.toNat]? <;> simp [tboLe, UInt64.lt_iff_toNat_lt, UInt32.lt_iff_toNat_lt, UInt32.le_iff_toNat_le, ← UInt64.toNat_inj, ← UInt32.toNat_inj]
  omega

theorem tboLeAt_total (entries : List TocByOffsetEntryV1) : Std.Total (tboLeAt entries) := by
  refine ⟨fun a b => ?_⟩
  unfold tboLeAt
  cases entries[a.toNat]? <;> cases entries[b.toNat]? <;> simp [tboLe, UInt64.lt_iff_toNat_lt, UInt32.lt_iff_toNat_lt, UInt32.le_iff_toNat_le, ← UInt64.toNat_inj, ← UInt32.toNat_inj]
  omega

theorem toc_sorted_idx_of_perm (small : entries.length ≤ U32_MAX) :
    ((toc_sorted_idx_of entries).map UInt32.toNat).Perm (List.range entries.length) := by
  refine ((perm_insertionSort _ _).map UInt32.toNat).trans ?_
  rw [map_map]
  have back : (List.range entries.length).map (UInt32.toNat ∘ UInt32.ofNat) = List.range entries.length := by
    refine (map_congr_left fun i member => ?_).trans (map_id _)
    rw [mem_range] at member
    exact toNat_u32_of_le (by omega)
  rw [back]

theorem toc_sorted_idx_of_sorted (entries : List TocByOffsetEntryV1) : (toc_sorted_idx_of entries).Pairwise fun i j =>
    ∀ a ∈ entries[i.toNat]?, ∀ b ∈ entries[j.toNat]?, keyLe a b := by
  have total := tboLeAt_total entries
  have trans := tboLeAt_trans entries
  refine (pairwise_insertionSort _ _).imp fun {i j} le a ha b hb => ?_
  rw [tboLeAt, ha, hb] at le
  exact le.imp_right fun ⟨stream, seq⟩ => ⟨stream, seq.elim UInt64.le_of_lt fun same => same.1 ▸ UInt64.le_refl _⟩

theorem forall₂_zip_map {g : α × β → γ} {R : α → β → Prop} {S : α → γ → Prop} (h : List.Forall₂ R as bs) (each : ∀ a b, R a b → S a (g (a, b))) :
    List.Forall₂ S as ((as.zip bs).map g) := by
  induction h with
  | nil => exact .nil
  | cons first _ ih => exact .cons (each _ _ first) ih

section
variable {blocks : List BlockMetaV1} {cuts : List BlockCut} (views : blocks.map metaView = (cuts.zipIdx 0).map cutView)
  (small : ∀ c ∈ cuts, c.len ≤ U32_MAX)
include views

theorem views_at (i : Nat) : (blocks[i]?).map metaView = (cuts[i]?).map fun c => cutView (c, i) := by
  simpa [Function.comp_def] using congrArg (·[i]?) views

include small

theorem len_of_view {i : Nat} {c : BlockCut} {b : BlockMetaV1} (found : cuts[i]? = some c) (here : blocks[i]? = some b) :
    b.uncompressed_len.toNat = c.len := by
  have view := views_at views i
  rw [found, here] at view
  have len : b.uncompressed_len = UInt32.ofNat c.len := congrArg (·.2.1) (Option.some.inj view)
  rw [len]
  exact toNat_u32_of_le (small c (mem_of_getElem? found))

theorem spanStart_of_views (i : Nat) : spanStart blocks i = ((cuts.map BlockCut.len).take i).sum := by
  refine congrArg (fun lens => (List.take i lens).sum) (ext_getElem? fun j => ?_)
  have view := views_at views j
  rw [List.getElem?_map, List.getElem?_map]
  cases found : cuts[j]? with
  | none => simp_all
  | some c =>
    obtain ⟨b, here, _⟩ := Option.map_eq_some_iff.mp (view.trans (congrArg _ found))
    rw [here, Option.map_some, len_of_view views small found here, Option.map_some]

end

/-- The entries lead to their frames when every frame is in its block and the blocks keep the cuts. -/
theorem entries_lead {t : TrailerIndexV1} (held : List.Forall₂ (InBlock P cut.blocks) frames cut.frame_block_id)
    (views : t.blocks.map metaView = (cut.blocks.zipIdx 0).map cutView) (len_small : ∀ c ∈ cut.blocks, c.len ≤ U32_MAX)
    (starts : ∀ (i : Nat), ∀ c ∈ cut.blocks[i]?, spanStart t.blocks i = c.start)
    (small : t.blocks.length ≤ U32_MAX) (k : t.bloom_hash_k = BLOOM_HASH_K_V1) :
    List.Forall₂ (LeadsTo P t) frames (toc_by_offset_of cut frames) := by
  refine forall₂_zip_map held fun f bid inside => ?_
  obtain ⟨_, i, c, rfl, found, start, stop, bloom⟩ := inside
  obtain ⟨b, block, view⟩ := Option.map_eq_some_iff.mp ((views_at views i).trans (congrArg _ found))
  have len := len_of_view views len_small found block
  have filter : b.bloom = c.bloom := congrArg (·.2.2) view
  have number : (UInt32.ofNat i).toNat = i := toNat_u32_of_le ((List.getElem?_eq_some_iff.mp block).1.le.trans small)
  have first : (UInt32.ofNat c.start).toNat = c.start := UInt32.toNat_ofNat_of_lt' (start.trans_lt f.record_off.toNat_lt)
  have cutStart : (cut.blocks.map BlockCut.start).getD i 0 = c.start := by
    rw [getD_eq_getElem?_getD, List.getElem?_map, found]
    rfl
  have le : UInt32.ofNat c.start ≤ f.record_off := by
    rw [UInt32.le_iff_toNat_le, first]
    exact start
  have offset : (f.record_off - UInt32.ofNat c.start).toNat = f.record_off.toNat - c.start := by
    rw [UInt32.toNat_sub_of_le _ _ le, first]
  have span := starts i c found
  simp only [LeadsTo, number, cutStart, if_pos le, offset]
  exact ⟨trivial, trivial, trivial, b, block, by omega, by omega, by rw [filter, k]; exact bloom⟩

end Crux.Segment
