import Crux.RetrievalIndex

/-!
# Discovery of the segments of all shards

Valid groups of segment files, what a scan makes of them, and when every one of
them is indexed and attributed: the numbers of the segments must be distinct
over all directories, and the companion index must attribute every frame.
-/

namespace Crux.Retrieval
open List SortedMap IndexManager

section
variable (hash : String → Nat)

/-- A sealed segment in its directory. The companion may not have been built. -/
structure SealedGroup where
  stem : String
  segment_seq : Nat
  named : extract_segment_seq stem = some segment_seq
  sealed_at : Nat
  frames : List SegmentFrame
  companion : Bool

namespace SealedGroup

def reader (g : SealedGroup) : Option CcxiReader :=
  if g.companion then build_ccxi_companion hash g.segment_seq g.sealed_at g.frames else none

def files (g : SealedGroup) : SegmentGroup := ⟨g.stem, some ⟨some g.segment_seq, some g.frames⟩, (g.reader hash).map some⟩

def tenants (g : SealedGroup) : List Nat := g.frames.map fun f => hash f.tenant_id

end SealedGroup

/-- What the index holds of a group. -/
def SealedGroup.loaded (policy : Option AttestationPolicy) (dir : String) (g : SealedGroup) : LoadedSegment :=
  let reader := if permits policy dir g.stem then g.reader hash else none
  { reader
    membership := if reader.isSome then none else some (g.tenants hash)
    dir
    stem := g.stem
    provenance := policy.map fun p => p.resolve dir g.stem
    refused := !permits policy dir g.stem }

/-- The entry of a frame in the table of documents. -/
def docOf (f : SegmentFrame) : DocEntry :=
  match f.tokens with
  | some tokens => ⟨f.record_off, tokens.length.toUInt16, hash f.tenant_id % 2 ^ 16, hash f.tenant_id⟩
  | none => .unset

def padded (n : Nat) (docs : List DocEntry) : List DocEntry := docs ++ List.replicate (n - docs.length) DocEntry.unset

variable {hash}

theorem padded_self (docs : List DocEntry) : padded docs.length docs = docs := by simp [padded]

theorem padded_succ (short : docs.length ≤ n) : padded (n + 1) docs = padded n docs ++ [.unset] := by
  rw [padded, padded, Nat.succ_sub short, replicate_succ', append_assoc]

theorem length_padded (short : docs.length ≤ n) : (padded n docs).length = n := by
  simp [padded]
  omega

theorem docs_add_document {b : CcxiReader} {n : Nat} {tokens : List UInt64} {off : UInt32} {h : Nat} (short : b.docs.length ≤ n) :
    (add_document b n tokens off h).docs = padded n b.docs ++ [⟨off, tokens.length.toUInt16, h % 2 ^ 16, h⟩] := by
  have whole := padded_succ short
  rw [padded] at whole
  simp only [add_document, whole]
  rw [set_append_right _ _ (length_padded short).le, length_padded short, Nat.sub_self]
  rfl

theorem length_add_document {b : CcxiReader} {n : Nat} {tokens : List UInt64} {off : UInt32} {h : Nat} (short : b.docs.length ≤ n) :
    (add_document b n tokens off h).docs.length = n + 1 := by
  rw [docs_add_document short, length_append, length_padded short, length_singleton]

theorem addFrames_append (b : CcxiReader) (n : Nat) (front back : List SegmentFrame) :
    addFrames hash b n (front ++ back) = addFrames hash (addFrames hash b n front) (n + front.length) back := by
  induction front generalizing b n with
  | nil => rfl
  | cons f rest ih =>
    rw [cons_append, addFrames, addFrames, ih, length_cons]
    congr 1
    omega

/-- The table has an entry for each frame, once the places behind the last indexed one are filled up. -/
theorem docs_addFrames {b : CcxiReader} {n : Nat} (short : b.docs.length ≤ n) (frames : List SegmentFrame) :
    (addFrames hash b n frames).docs.length ≤ n + frames.length ∧ b.docs.length ≤ (addFrames hash b n frames).docs.length ∧
      padded (n + frames.length) (addFrames hash b n frames).docs = padded n b.docs ++ frames.map (docOf hash) := by
  induction frames generalizing b n with
  | nil => exact ⟨short, le_rfl, by simp [addFrames]⟩
  | cons f rest ih =>
    have size : n + (f :: rest).length = n + 1 + rest.length := by rw [length_cons]; omega
    rw [addFrames, size, map_cons, append_cons]
    cases text : f.tokens with
    | none =>
      have entry : docOf hash f = .unset := by rw [docOf, text]
      rw [entry, ← padded_succ short]
      exact ih (Nat.le_succ_of_le short)
    | some tokens =>
      have entry : docOf hash f = ⟨f.record_off, tokens.length.toUInt16, hash f.tenant_id % 2 ^ 16, hash f.tenant_id⟩ := by rw [docOf, text]
      have docs := @docs_add_document b n tokens f.record_off (hash f.tenant_id) short
      have length := @length_add_document b n tokens f.record_off (hash f.tenant_id) short
      obtain ⟨shorter, grown, added⟩ := @ih (add_document b n tokens f.record_off (hash f.tenant_id)) (n + 1) length.le
      refine ⟨shorter, (Nat.le_succ_of_le short).trans (length.ge.trans grown), added.trans ?_⟩
      rw [← length, padded_self, docs, entry]

theorem addFrames_textless (none : ∀ f ∈ frames, f.tokens = none) : addFrames hash b n frames = b := by
  induction frames generalizing n with
  | nil => rfl
  | cons f rest ih =>
    rw [addFrames, none f mem_cons_self]
    exact ih fun f later => none f (mem_cons_of_mem _ later)

theorem segment_seq_addFrames (b : CcxiReader) (n : Nat) (frames : List SegmentFrame) :
    (addFrames hash b n frames).segment_seq = b.segment_seq ∧ (addFrames hash b n frames).sealed_at = b.sealed_at := by
  induction frames generalizing b n with
  | nil => exact ⟨rfl, rfl⟩
  | cons f rest ih =>
    rw [addFrames]
    cases f.tokens <;> exact ih _ _

namespace SealedGroup
variable {g : SealedGroup} {r : CcxiReader}

section
variable (built : g.reader hash = some r)
include built

theorem reader_spec : r = addFrames hash ⟨g.segment_seq, g.sealed_at, [], []⟩ 0 g.frames ∧ ∃ f ∈ g.frames, f.tokens.isSome := by
  unfold reader build_ccxi_companion at built
  split_ifs at built with wanted some_text
  exact ⟨(Option.some.inj built).symm, any_eq_true.mp some_text⟩

theorem reader_seq : r.segment_seq = g.segment_seq ∧ r.sealed_at = g.sealed_at := by
  rw [(reader_spec built).1]
  exact segment_seq_addFrames _ _ _

theorem reader_docs : r.docs.length ≤ g.frames.length ∧ padded g.frames.length r.docs = g.frames.map (docOf hash) := by
  obtain ⟨short, _, docs⟩ := @docs_addFrames hash ⟨g.segment_seq, g.sealed_at, [], []⟩ 0 (Nat.zero_le _) g.frames
  rw [Nat.zero_add, ← (reader_spec built).1] at short docs
  exact ⟨short, docs⟩

theorem reader_covers (split : g.frames = front ++ f :: back) (text : f.tokens.isSome) : front.length < r.docs.length := by
  obtain ⟨tokens, text⟩ := Option.isSome_iff_exists.mp text
  obtain ⟨short, _⟩ := @docs_addFrames hash ⟨g.segment_seq, g.sealed_at, [], []⟩ 0 (Nat.zero_le _) front
  have length := @length_add_document _ _ tokens f.record_off (hash f.tenant_id) short
  obtain ⟨_, grown, _⟩ := @docs_addFrames hash _ _ length.le back
  rw [(reader_spec built).1, split, addFrames_append, addFrames, text]
  exact Nat.lt_of_lt_of_le (by omega) (length.ge.trans grown)

theorem reader_entry (split : g.frames = front ++ f :: back) (text : f.tokens.isSome) :
    r.docs[front.length]? = some (docOf hash f) := by
  have entry : (padded g.frames.length r.docs)[front.length]? = some (docOf hash f) := by
    rw [(reader_docs built).2, split, map_append, getElem?_append_right (by simp)]
    simp
  rwa [padded, getElem?_append_left (reader_covers built split text)] at entry

end

/-- The companion attributes every frame: a frame without text keeps an entry of no tenant, if one with text follows. -/
def Attributed (hash : String → Nat) (g : SealedGroup) : Prop :=
  (g.reader hash).isSome → ∀ front f back, g.frames = front ++ f :: back → f.tokens = none →
    hash f.tenant_id = 0 ∧ ∃ f' ∈ back, f'.tokens.isSome

theorem Attributed.docs (attributed : g.Attributed hash) (built : g.reader hash = some r) :
    r.docs.map DocEntry.tenant_hash_full = g.tenants hash := by
  have attributed := attributed (by rw [built]; rfl)
  obtain ⟨short, docs⟩ := reader_docs built
  have whole : r.docs.length = g.frames.length := by
    rcases eq_nil_or_concat g.frames with none | ⟨front, f, split⟩
    · rw [none] at short ⊢
      exact Nat.le_zero.mp short
    · rw [concat_eq_append] at split
      have text : f.tokens.isSome := by
        by_contra missing
        obtain ⟨_, f', later, _⟩ := attributed front f [] split (by simpa using missing)
        cases later
      have covered := reader_covers built split text
      rw [split, length_append, length_singleton] at short ⊢
      omega
  rw [← whole, padded_self] at docs
  rw [docs, map_map, tenants]
  refine map_congr_left fun f member => ?_
  obtain ⟨front, back, split⟩ := append_of_mem member
  cases text : f.tokens with
  | some tokens => simp [docOf, text]
  | none =>
    rw [(attributed front f back split text).1]
    simp [docOf, text, DocEntry.unset]

theorem attributed_of_counts (built : g.reader hash = some r) (total : r.docs.length = g.frames.length)
    (counts : ∀ h ∈ g.tenants hash, (r.docs.map DocEntry.tenant_hash_full).count h = (g.tenants hash).count h) :
    g.Attributed hash := by
  obtain ⟨_, docs⟩ := reader_docs built
  rw [← total, padded_self] at docs
  intro _ front f back split textless
  have member : f ∈ g.frames := by rw [split]; simp
  refine ⟨?_, ?_⟩
  · by_contra other
    have same := counts (hash f.tenant_id) (mem_map_of_mem member)
    rw [docs, map_map, tenants, count_eq_countP, count_eq_countP, countP_map, countP_map] at same
    -- the entries of the tenant are among its frames, and they are as many
    have fewer : ∀ e : SegmentFrame, ((fun h => h == hash f.tenant_id) ∘ DocEntry.tenant_hash_full ∘ docOf hash) e →
        ((fun h => h == hash f.tenant_id) ∘ fun e => hash e.tenant_id) e := by
      intro e counted
      simp at counted ⊢
      cases text : e.tokens with
      | some tokens => simpa only [docOf, text] using counted
      | none =>
        simp [docOf, text] at counted
        exact absurd counted.symm other
    have sub := monotone_filter_right g.frames fewer
    have equal := sub.eq_of_length (by rw [← countP_eq_length_filter, ← countP_eq_length_filter, same])
    have counted := of_mem_filter (equal.symm ▸ mem_filter.mpr ⟨member, by simp⟩ :
      f ∈ g.frames.filter ((fun h => h == hash f.tenant_id) ∘ DocEntry.tenant_hash_full ∘ docOf hash))
    simp [docOf, textless] at counted
    exact other counted.symm
  · by_contra no_text
    have rest : ∀ f' ∈ f :: back, f'.tokens = none :=
      forall_mem_cons.mpr ⟨textless, fun f' later => by simpa using fun text => no_text ⟨f', later, text⟩⟩
    obtain ⟨short, _⟩ := @docs_addFrames hash ⟨g.segment_seq, g.sealed_at, [], []⟩ 0 (Nat.zero_le _) front
    rw [(reader_spec built).1, split, addFrames_append, addFrames_textless rest, length_append, length_cons] at total
    omega

end SealedGroup

theorem resolve_files (policy : Option AttestationPolicy) (dir : String) (g : SealedGroup) :
    (g.files hash).resolve hash policy dir = some (g.segment_seq, g.loaded hash policy dir) := by
  unfold SegmentGroup.resolve SealedGroup.files SealedGroup.loaded
  cases built : g.reader hash with
  | none => cases permits policy dir g.stem <;> rfl
  | some r =>
    cases permits policy dir g.stem
    · rfl
    · have seq := (SealedGroup.reader_seq built).1
      simp [SegmentGroup.load, load_ccxi, seq]

theorem scanGroup_files (m : IndexManager) (dir : String) (g : SealedGroup) : m.scanGroup hash dir (g.files hash) =
      if m.knows (g.files hash) then m
      else { m with segments := m.segments.insert g.segment_seq (g.loaded hash m.attestation dir) } := by
  rw [scanGroup, resolve_files]

/-- What a scan leaves: its own groups are loaded, and nothing else has changed. -/
structure Scanned (hash : String → Nat) (m m' : IndexManager) (pairs : List (String × SealedGroup)) : Prop where
  attestation : m'.attestation = m.attestation
  forgotten : m'.forgotten = m.forgotten
  own : ∀ p ∈ pairs, m'.segments.get p.2.segment_seq = some (p.2.loaded hash m.attestation p.1)
  others : ∀ x, (∀ p ∈ pairs, p.2.segment_seq ≠ x) → m'.segments.get x = m.segments.get x

/-- The number of a group is not in use, or the group is loaded. -/
def Free (hash : String → Nat) (m : IndexManager) (p : String × SealedGroup) : Prop :=
  m.segments.get p.2.segment_seq = none ∨ m.segments.get p.2.segment_seq = some (p.2.loaded hash m.attestation p.1)

theorem Scanned.refl (m : IndexManager) : Scanned hash m m [] := ⟨rfl, rfl, by simp, fun _ _ => rfl⟩

theorem scanned_group (free : Free hash m (dir, g)) :
    Scanned hash m (m.scanGroup hash dir (g.files hash)) [(dir, g)] := by
  rw [scanGroup_files]
  split_ifs with known
  · refine ⟨rfl, rfl, fun p member => ?_, fun _ _ => rfl⟩
    rw [mem_singleton.mp member]
    refine free.resolve_left fun none => ?_
    simp [knows, SealedGroup.files, g.named, none] at known
  · refine ⟨rfl, rfl, fun p member => ?_, fun x other => ?_⟩
    · rw [mem_singleton.mp member, get_insert, if_pos rfl]
    · rw [get_insert, if_neg (other (dir, g) (mem_singleton_self _)).symm]

variable {m m' : IndexManager} {pairs : List (String × SealedGroup)}

theorem Scanned.free (scanned : Scanned hash m m' pairs) (other : ∀ q ∈ pairs, q.2.segment_seq ≠ p.2.segment_seq)
    (free : Free hash m p) : Free hash m' p := by
  unfold Free
  rw [scanned.others _ other, scanned.attestation]
  exact free

theorem Scanned.trans (first : Scanned hash m m' pairs) (second : Scanned hash m' m'' more)
    (apart : ∀ p ∈ pairs, ∀ q ∈ more, q.2.segment_seq ≠ p.2.segment_seq) :
    Scanned hash m m'' (pairs ++ more) := by
  refine ⟨second.attestation.trans first.attestation, second.forgotten.trans first.forgotten, fun p member => ?_, fun x other => ?_⟩
  · rcases mem_append.mp member with here | later
    · rw [second.others _ (apart p here)]
      exact first.own p here
    · rw [second.own p later, first.attestation]
  · rw [second.others x fun q later => other q (mem_append_right _ later),
      first.others x fun p here => other p (mem_append_left _ here)]

theorem Scanned.same (scanned : Scanned hash m m' pairs)
    (held : ∀ p ∈ pairs, m.segments.get p.2.segment_seq = some (p.2.loaded hash m.attestation p.1)) (x : Nat) :
    m'.segments.get x = m.segments.get x := by
  by_cases own : ∃ p ∈ pairs, p.2.segment_seq = x
  · obtain ⟨p, member, rfl⟩ := own
    rw [scanned.own p member, held p member]
  · exact scanned.others x fun p member same => own ⟨p, member, same⟩

theorem scanned_fold {A : Type} {step : IndexManager → A → IndexManager} {pairsOf : A → List (String × SealedGroup)} {l : List A}
    (each : ∀ m, ∀ a ∈ l, (∀ p ∈ pairsOf a, Free hash m p) → Scanned hash m (step m a) (pairsOf a)) {m : IndexManager}
    (distinct : ((l.flatMap pairsOf).map fun p => p.2.segment_seq).Nodup) (free : ∀ p ∈ l.flatMap pairsOf, Free hash m p) :
    Scanned hash m (l.foldl step m) (l.flatMap pairsOf) := by
  induction l generalizing m with
  | nil => exact .refl m
  | cons a rest ih =>
    rw [flatMap_cons, map_append, nodup_append] at distinct
    rw [flatMap_cons, forall_mem_append] at free
    have apart : ∀ p ∈ pairsOf a, ∀ q ∈ rest.flatMap pairsOf, p.2.segment_seq ≠ q.2.segment_seq := fun p here q later =>
      distinct.2.2 _ (mem_map_of_mem here) _ (mem_map_of_mem later)
    have first := each m a mem_cons_self free.1
    have second := ih (fun m b later => each m b (mem_cons_of_mem _ later)) distinct.2.1
      fun p later => first.free (fun q here => apart q here p later) (free.2 p later)
    exact first.trans second fun p here q later => (apart p here q later).symm

theorem scanned_dir {m : IndexManager} {dir : String} {groups : List SealedGroup} (distinct : (groups.map SealedGroup.segment_seq).Nodup)
    (free : ∀ g ∈ groups, Free hash m (dir, g)) :
    Scanned hash m (m.scan_and_load hash dir (groups.map (SealedGroup.files hash))) (groups.map fun g => (dir, g)) := by
  rw [scan_and_load, foldl_map]
  generalize start : ({ m with scanned_dirs := m.scanned_dirs.insert dir () } : IndexManager) = m₀
  have segments : m₀.segments = m.segments := by rw [← start]
  have attestation : m₀.attestation = m.attestation := by rw [← start]
  have forgotten : m₀.forgotten = m.forgotten := by rw [← start]
  have all : Scanned hash m₀ (groups.foldl (fun m g => m.scanGroup hash dir (g.files hash)) m₀) (groups.flatMap fun g => [(dir, g)]) := by
    refine @scanned_fold hash SealedGroup (fun m g => m.scanGroup hash dir (g.files hash)) (fun g => [(dir, g)]) groups
      (fun m g _ free => @scanned_group hash m dir g (free (dir, g) (mem_singleton_self _))) m₀ ?_ ?_
    · rwa [← map_eq_flatMap, map_map]
    · rw [← map_eq_flatMap]
      unfold Free
      rw [segments, attestation]
      exact forall_mem_map.mpr free
  rw [← map_eq_flatMap] at all
  refine ⟨all.attestation.trans attestation, all.forgotten.trans forgotten, ?_, ?_⟩
  · rw [← attestation]
    exact all.own
  · rw [← segments]
    exact all.others

end

/-- Directories with sealed segments; no two of them, and no two groups of one, have the same name. -/
structure Shelves where
  dirs : List (String × List SealedGroup)
  named : (dirs.map Prod.fst).Nodup
  stems : ∀ d ∈ dirs, (d.2.map SealedGroup.stem).Nodup

namespace Shelves
variable (shelves : Shelves) (hash : String → Nat)

def pairs : List (String × SealedGroup) := shelves.dirs.flatMap fun d => d.2.map fun g => (d.1, g)

def groups (dir : String) : List SealedGroup := ((shelves.dirs.find? fun d => d.1 == dir).map Prod.snd).getD []

def disk (dir : String) : List SegmentGroup := (shelves.groups dir).map (SealedGroup.files hash)

/-- All directories scanned in their order, from an empty index. -/
def scanAll (policy : Option AttestationPolicy) : IndexManager :=
  shelves.dirs.foldl (fun m d => m.scan_and_load hash d.1 (d.2.map (SealedGroup.files hash))) (.new policy)

/-- No two segments have the same number. -/
def Distinct : Prop := (shelves.pairs.map fun p => p.2.segment_seq).Nodup

instance : Decidable shelves.Distinct := inferInstanceAs (Decidable (List.Nodup _))

variable {shelves hash}

theorem Distinct.dir (distinct : shelves.Distinct) (member : d ∈ shelves.dirs) :
    (d.2.map SealedGroup.segment_seq).Nodup := by
  obtain ⟨front, back, split⟩ := append_of_mem member
  unfold Distinct pairs at distinct
  rw [split, flatMap_append, flatMap_cons, map_append, map_append, map_map] at distinct
  exact (nodup_append.mp (nodup_append.mp distinct).2.1).1

theorem scanned_all (distinct : shelves.Distinct) (policy : Option AttestationPolicy) :
    Scanned hash (.new policy) (shelves.scanAll hash policy) shelves.pairs :=
  @scanned_fold hash (String × List SealedGroup) (fun m d => m.scan_and_load hash d.1 (d.2.map (SealedGroup.files hash))) (fun d => d.2.map fun g => (d.1, g))
    shelves.dirs (fun m d member free => @scanned_dir hash m d.1 d.2 (distinct.dir member) (forall_mem_map.mp free)) _ distinct
    fun _ _ => .inl (SortedMap.get_empty _)

theorem mem_pairs : p ∈ shelves.pairs ↔ ∃ d ∈ shelves.dirs, d.1 = p.1 ∧ p.2 ∈ d.2 := by
  unfold pairs
  rw [mem_flatMap]
  refine exists_congr fun d => and_congr_right fun _ => ?_
  rw [mem_map]
  exact ⟨fun ⟨g, member, same⟩ => same ▸ ⟨rfl, member⟩, fun ⟨dir, member⟩ => ⟨p.2, member, Prod.ext dir rfl⟩⟩

theorem dir_found (some_group : shelves.groups dir ≠ []) : ∃ d ∈ shelves.dirs, d.1 = dir ∧ shelves.groups dir = d.2 := by
  unfold groups at some_group ⊢
  cases found : shelves.dirs.find? fun d => d.1 == dir with
  | none =>
    rw [found] at some_group
    exact absurd rfl some_group
  | some d => exact ⟨d, mem_of_find?_eq_some found, by simpa using find?_some found, rfl⟩

/-- After a scan of all directories a refresh finds nothing new. -/
theorem refresh_scanned (distinct : shelves.Distinct) (scanned : Scanned hash (.new policy) m shelves.pairs) :
    Scanned hash (.new policy) (m.refresh_from_disk hash (shelves.disk hash)) shelves.pairs := by
  unfold refresh_from_disk
  generalize m.scanned_dirs.keys = dirs
  induction dirs generalizing m with
  | nil => exact scanned
  | cons dir rest ih =>
    have held : ∀ g ∈ shelves.groups dir, m.segments.get g.segment_seq = some (g.loaded hash m.attestation dir) := by
      intro g member
      obtain ⟨d, there, rfl, same⟩ := dir_found (ne_nil_of_mem member)
      rw [scanned.attestation]
      exact scanned.own (d.1, g) (mem_pairs.mpr ⟨d, there, rfl, same ▸ member⟩)
    have apart : ((shelves.groups dir).map SealedGroup.segment_seq).Nodup := by
      by_cases none : shelves.groups dir = []
      · rw [none]
        exact .nil
      · obtain ⟨d, there, rfl, same⟩ := dir_found none
        exact same ▸ distinct.dir there
    have again := scanned_dir apart fun g member => .inr (held g member)
    refine ih ⟨again.attestation.trans scanned.attestation, again.forgotten.trans scanned.forgotten, fun p member => ?_, fun x other => ?_⟩
    · exact (again.same (forall_mem_map.mpr held) _).trans (scanned.own p member)
    · exact (again.same (forall_mem_map.mpr held) _).trans (scanned.others x other)

/-- Places are distinct, so that segments with distinct numbers are all that one can ask for. -/
theorem distinct_of_apart (apart : ∀ p ∈ shelves.pairs, ∀ q ∈ shelves.pairs, p.2.segment_seq = q.2.segment_seq →
    p.1 = q.1 ∧ p.2.stem = q.2.stem) : shelves.Distinct := by
  have places : (shelves.pairs.map fun p => (p.1, p.2.stem)).Nodup := by
    unfold pairs
    rw [map_flatMap, nodup_flatMap]
    refine ⟨fun d member => ?_, ?_⟩
    · rw [map_map]
      exact List.Nodup.of_map Prod.snd (by rw [map_map]; exact shelves.stems d member)
    · refine (pairwise_map.mp shelves.named).imp fun {a b} other => ?_
      simp only [Function.onFun, disjoint_left, map_map, mem_map]
      rintro x ⟨g, _, rfl⟩ ⟨g', _, same⟩
      exact other (congrArg Prod.fst same).symm
  refine List.Nodup.map_on (fun p here q there same => ?_) (List.Nodup.of_map _ places)
  obtain ⟨dir, stem⟩ := apart p here q there same
  exact inj_on_of_nodup_map places here there (Prod.ext dir stem)

end Shelves

theorem mem_footprint {m : IndexManager} :
    row ∈ (m.tenant_footprint h).segments ↔ ∃ seg, m.segments.get row.segment_seq = some seg ∧
      seg.docs_for_tenant h = some row.docs_tenant ∧ 0 < row.docs_tenant ∧ row.docs_total = seg.docs_total ∧
      row.whole_tenant = (row.docs_tenant == row.docs_total) := by
  simp only [tenant_footprint, mem_filterMap]
  constructor
  · rintro ⟨⟨seq, seg⟩, member, found⟩
    unfold footprintRow at found
    split at found
    · cases found
    · cases found
    · rename_i n docs
      cases found
      exact ⟨seg, mem_entries.mp member, docs, Nat.succ_pos n, rfl, rfl⟩
  · rintro ⟨seg, found, docs, some_doc, total, whole⟩
    refine ⟨(row.segment_seq, seg), mem_entries.mpr found, ?_⟩
    obtain ⟨seq, docs_total, docs_tenant, whole_tenant⟩ := row
    cases docs_tenant with
    | zero => exact absurd rfl some_doc.ne'
    | succ n =>
      simp only [footprintRow, docs, ← total, ← whole]

theorem mem_reclaimable {m : IndexManager} :
    seq ∈ (m.tenant_footprint h).reclaimable ↔ ∃ seg, m.segments.get seq = some seg ∧
      0 < seg.docs_total ∧ seg.docs_for_tenant h = some seg.docs_total := by
  simp only [TenantFootprint.reclaimable, mem_map, mem_filter, mem_footprint]
  constructor
  · rintro ⟨row, ⟨⟨seg, found, docs, some_doc, total, whole⟩, all⟩, rfl⟩
    rw [all, eq_comm, beq_iff_eq] at whole
    rw [whole, total] at docs some_doc
    exact ⟨seg, found, some_doc, docs⟩
  · rintro ⟨seg, found, some_doc, docs⟩
    exact ⟨⟨seq, seg.docs_total, seg.docs_total, true⟩, ⟨⟨seg, found, docs, some_doc, rfl, by simp⟩, rfl⟩, rfl⟩

section
variable {hash : String → Nat} {policy : Option AttestationPolicy} {shelves : Shelves}

theorem SealedGroup.Attributed.loaded {g : SealedGroup} (attributed : g.Attributed hash) (dir : String) :
    (∀ h, (g.loaded hash policy dir).docs_for_tenant h = some ((g.tenants hash).count h)) ∧
      (g.loaded hash policy dir).docs_total = g.frames.length := by
  have length : (g.tenants hash).length = g.frames.length := length_map _
  unfold SealedGroup.loaded LoadedSegment.docs_for_tenant LoadedSegment.docs_total
  cases permits policy dir g.stem with
  | false => exact ⟨fun h => rfl, length⟩
  | true =>
    cases built : g.reader hash with
    | none => exact ⟨fun h => rfl, length⟩
    | some r =>
      have docs := attributed.docs built
      simp only [if_true, docs]
      exact ⟨fun _ => trivial, by rw [← length, ← docs, length_map]⟩

/-- Every segment is indexed under its place, its documents are found by their tenants, and its frames are counted
and listed for reclaim. -/
structure Complete (hash : String → Nat) (shelves : Shelves) (m : IndexManager) : Prop where
  indexed : ∀ p ∈ shelves.pairs, ∃ seg, m.segments.get p.2.segment_seq = some seg ∧ seg.dir = p.1 ∧ seg.stem = p.2.stem
  searchable : ∀ p ∈ shelves.pairs, ∀ reader, p.2.reader hash = some reader → ∀ front f back, p.2.frames = front ++ f :: back →
    f.tokens.isSome → ∀ {S : Type} (scoring : Scoring S) (query : List UInt64),
      scoring.positive (scoreOf scoring m.readers query (some (hash f.tenant_id)) reader front.length (docOf hash f)) →
      ∃ hit ∈ all_hits scoring m.readers query (some (hash f.tenant_id)) (m.forgotten_watermark (hash f.tenant_id)),
        hit.doc_id = front.length ∧ hit.frame_offset = f.record_off ∧ m.readers[hit.segment_index]? = some reader
  counted : ∀ p ∈ shelves.pairs, ∀ f ∈ p.2.frames, ∃ row ∈ (m.tenant_footprint (hash f.tenant_id)).segments,
    row.segment_seq = p.2.segment_seq ∧ row.docs_tenant = (p.2.tenants hash).count (hash f.tenant_id) ∧
      row.docs_total = p.2.frames.length
  listed : ∀ p ∈ shelves.pairs, p.2.frames ≠ [] → ∀ tenant_id, (∀ f ∈ p.2.frames, f.tenant_id = tenant_id) →
    p.2.segment_seq ∈ (m.tenant_footprint (hash tenant_id)).reclaimable

variable {m : IndexManager}

theorem Scanned.complete (scanned : Scanned hash (.new policy) m shelves.pairs)
    (permitted : ∀ p ∈ shelves.pairs, permits policy p.1 p.2.stem) (attributed : ∀ p ∈ shelves.pairs, p.2.Attributed hash) :
    Complete hash shelves m := by
  have counts := fun p member => @SealedGroup.Attributed.loaded hash (new policy).attestation p.2 (attributed p member) p.1
  refine ⟨fun p member => ⟨_, scanned.own p member, rfl, rfl⟩, ?_, ?_, ?_⟩
  · intro p member reader built front f back split text S scoring query positive
    have loaded : reader ∈ m.readers := by
      refine mem_filterMap.mpr ⟨_, mem_values.mpr ⟨_, scanned.own p member⟩, ?_⟩
      simp [SealedGroup.loaded, new, permitted p member, built]
    obtain ⟨i, there⟩ := mem_iff_getElem?.mp loaded
    obtain ⟨tokens, text'⟩ := Option.isSome_iff_exists.mp text
    refine ⟨⟨i, front.length, scoreOf scoring m.readers query (some (hash f.tenant_id)) reader front.length (docOf hash f),
      (docOf hash f).tenant_hash_lo16, (docOf hash f).tenant_hash_full, (docOf hash f).frame_offset, (docOf hash f).doc_length_tokens⟩,
      ?_, rfl, by simp only [docOf, text'], there⟩
    refine mem_flatMap.mpr ⟨(reader, i), mem_zipIdx_iff_getElem?.mpr there, ?_⟩
    have unmasked : m.forgotten_watermark (hash f.tenant_id) = none := by
      rw [forgotten_watermark, scanned.forgotten]
      rfl
    simp [unmasked, is_forgotten]
    refine mem_filterMap.mpr ⟨(docOf hash f, front.length), mem_zipIdx_iff_getElem?.mpr (SealedGroup.reader_entry built split text), ?_⟩
    simp [positive]
  · intro p member f inside
    refine ⟨⟨p.2.segment_seq, p.2.frames.length, (p.2.tenants hash).count (hash f.tenant_id),
      (p.2.tenants hash).count (hash f.tenant_id) == p.2.frames.length⟩, mem_footprint.mpr ⟨_, scanned.own p member,
      (counts p member).1 _, ?_, (counts p member).2.symm, rfl⟩, rfl, rfl, rfl⟩
    exact count_pos_iff.mpr (mem_map_of_mem inside)
  · intro p member some_frame tenant_id own
    refine mem_reclaimable.mpr ⟨_, scanned.own p member, ?_, ?_⟩
    · rw [(counts p member).2]
      exact length_pos_iff.mpr some_frame
    · rw [(counts p member).1, (counts p member).2]
      refine congrArg some ?_
      rw [count_eq_length.mpr, SealedGroup.tenants, length_map]
      intro h there
      obtain ⟨f, inside, rfl⟩ := mem_map.mp there
      rw [own f inside]

theorem Complete.distinct (complete : Complete hash shelves m) : shelves.Distinct := by
  refine Shelves.distinct_of_apart fun p here q there same => ?_
  obtain ⟨seg, found, dir, stem⟩ := complete.indexed p here
  obtain ⟨seg', found', dir', stem'⟩ := complete.indexed q there
  rw [same, found'] at found
  cases found
  exact ⟨dir.symm.trans dir', stem.symm.trans stem'⟩

theorem Complete.attributed (complete : Complete hash shelves m)
    (scanned : Scanned hash (.new policy) m shelves.pairs) (permitted : ∀ p ∈ shelves.pairs, permits policy p.1 p.2.stem)
    {p : String × SealedGroup} (member : p ∈ shelves.pairs) : p.2.Attributed hash := by
  intro some_reader
  obtain ⟨r, built⟩ := Option.isSome_iff_exists.mp some_reader
  have row : ∀ f ∈ p.2.frames, r.docs.length = p.2.frames.length ∧
      (r.docs.map DocEntry.tenant_hash_full).count (hash f.tenant_id) = (p.2.tenants hash).count (hash f.tenant_id) := by
    intro f inside
    obtain ⟨row, listed, seq, docs, total⟩ := complete.counted p member f inside
    obtain ⟨seg, found, docs', _, total', _⟩ := mem_footprint.mp listed
    rw [seq, scanned.own p member] at found
    cases found
    have reader : (p.2.loaded hash (new policy).attestation p.1).reader = some r := by
      simp [SealedGroup.loaded, new, permitted p member, built]
    simp only [LoadedSegment.docs_for_tenant, LoadedSegment.docs_total, reader] at docs' total'
    exact ⟨total'.symm.trans total, (Option.some.inj docs').trans docs⟩
  obtain ⟨f, inside, _⟩ := (SealedGroup.reader_spec built).2
  refine SealedGroup.attributed_of_counts built (row f inside).1 (fun h there => ?_) some_reader
  obtain ⟨f, inside, rfl⟩ := mem_map.mp there
  exact (row f inside).2

end

def sampleGroup (stem tenant_id : String) (segment_seq : Nat) (named : extract_segment_seq stem = some segment_seq) : SealedGroup :=
  ⟨stem, segment_seq, named, 0, [⟨tenant_id, 0, some [7]⟩], true⟩

/-- Two shards with one segment each. -/
def sampleShelves (second : SealedGroup) : Shelves :=
  ⟨[("shard-0000", [sampleGroup "seg-1-a" "acme" 1 (by decide)]), ("shard-0001", [second])], by simp, by simp⟩

end Crux.Retrieval
