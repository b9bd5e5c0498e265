import Crux.FactUndo
import Crux.TextLines
import Crux.Utf8
import Mathlib.Data.List.DropRight

/-!
# The journal as a file

The bytes of `facts.jsonl`: one line of JSON for each event. Opening reads the
lines as text and skips those that are no event; the last may lack its newline.
An append first cuts off what stands after the last newline.
-/

namespace Crux.Facts
open Memory Crux.Bytes Crux.TextLines List
open Crux.Frame (utf8Valid)

/-- `serde_json` on journal events: the text of an event, and what is read from a line once it is trimmed. A blank line gives no
event. -/
structure Json where
  to_string : JournalEvent → Bytes
  from_str : Bytes → Option JournalEvent

inductive IoError where
  | InvalidData
  | UnterminatedTail (tail_len : Nat)
deriving DecidableEq

section
variable (json : Json) (policy : PrivacyPolicy)

/-- What one line of text does. -/
def replayText (m : Memory) (line : Bytes) : Memory :=
  match json.from_str line with
  | some event => applyEvent policy m event
  | none => m

def replayFile : Memory → List Bytes → Except IoError Memory
  | m, [] => .ok m
  | m, line :: rest => if utf8Valid line then replayFile (replayText json policy m line) rest else .error .InvalidData

/-- `with_persistence` on the bytes of the journal. -/
def openFile (file : Bytes) : Except IoError Memory := do
  let m ← replayFile json policy {} (fileLines file)
  return m.sanitize_replayed_links

end

def TAIL_BLOCK_LEN : Nat := 8 * 1024

def MAX_RECOVERY_TAIL_BYTES : Nat := 64 * 1024 * 1024

/-- The file without what stands after its last newline. -/
def repair_torn_journal_tail (file : Bytes) : Except IoError Bytes :=
  if file.isEmpty then .ok file
  else if file.getLast? = some 10 then .ok file
  else
    let tail_start := scanTail TAIL_BLOCK_LEN file file.length file.length
    if MAX_RECOVERY_TAIL_BYTES < file.length - tail_start then .error (.UnterminatedTail (file.length - tail_start))
    else .ok (file.take tail_start)

def appendFile (json : Json) (file : Bytes) (event : JournalEvent) : Except IoError Bytes := do
  let file ← repair_torn_journal_tail file
  return file ++ (json.to_string event ++ [10])

/-- An event is written as a line of text without control characters that is read back when the event can be, and no part of
which is read as an event. -/
structure Json.Writes (json : Json) (event : JournalEvent) : Prop where
  some_text : json.to_string event ≠ []
  plain : ∀ b ∈ json.to_string event, 32 ≤ b
  utf8 : utf8Valid (json.to_string event) = true
  read_back : json.from_str (json.to_string event) = if event.readable then some event else none
  whole : ∀ n < (json.to_string event).length, json.from_str ((json.to_string event).take n) = none

/-- The file of a journal. -/
def journalText (json : Json) (journal : List JournalEvent) : Bytes := joinLines (journal.map json.to_string)

section
variable {json : Json} {policy : PrivacyPolicy} {journal : List JournalEvent} {e : JournalEvent}

theorem Json.Writes.unbroken (writes : json.Writes e) : 10 ∉ json.to_string e := by
  intro there
  exact absurd (writes.plain 10 there) (by decide)

theorem replayText_written (writes : json.Writes e) (m : Memory) :
    replayText json policy m (json.to_string e) = replayEvent policy m e := by
  unfold replayText replayEvent
  rw [writes.read_back]
  split_ifs <;> rfl

theorem replayFile_append (m : Memory) (lines more : List Bytes) :
    replayFile json policy m (lines ++ more) = (replayFile json policy m lines).bind fun m => replayFile json policy m more := by
  induction lines generalizing m with
  | nil => rfl
  | cons line rest ih =>
    rw [cons_append, replayFile, replayFile]
    split_ifs
    · exact ih _
    · rfl

theorem replayFile_written (written : ∀ e ∈ journal, json.Writes e) (m : Memory) :
    replayFile json policy m (journal.map json.to_string) = .ok (journal.foldl (replayEvent policy) m) := by
  induction journal generalizing m with
  | nil => rfl
  | cons e rest ih =>
    have first := written e mem_cons_self
    rw [map_cons, replayFile, if_pos first.utf8, replayText_written first, foldl_cons]
    exact ih (fun e later => written e (mem_cons_of_mem _ later)) _

variable {tail : Bytes}

section
variable (written : ∀ e ∈ journal, json.Writes e)
include written

theorem fileLines_text (unbroken : 10 ∉ tail) :
    fileLines (journalText json journal ++ tail) = journal.map json.to_string ++ if tail.isEmpty then [] else [tail] := by
  refine fileLines_join ?_ unbroken
  intro line member
  obtain ⟨e, there, rfl⟩ := mem_map.mp member
  exact (written e there).plain

theorem openFile_text {tail : Bytes} (unbroken : 10 ∉ tail) :
    openFile json policy (journalText json journal ++ tail) = if tail.isEmpty then .ok (replay_journal policy journal)
      else if utf8Valid tail then .ok (replayText json policy (replayLines policy journal) tail).sanitize_replayed_links
      else .error .InvalidData := by
  unfold openFile
  rw [fileLines_text written unbroken, replayFile_append, replayFile_written written]
  change (replayFile json policy (replayLines policy journal) _ >>= _) = _
  cases tail with
  | nil => rfl
  | cons b rest =>
    simp
    rw [replayFile, replayFile]
    split_ifs <;> rfl

theorem openFile_journal : openFile json policy (journalText json journal) = .ok (replay_journal policy journal) := by
  have opened := @openFile_text json policy journal written [] (by simp)
  rw [List.append_nil] at opened
  exact opened

end

theorem journalText_append (journal more : List JournalEvent) :
    journalText json (journal ++ more) = journalText json journal ++ journalText json more := by
  unfold journalText
  rw [map_append, joinLines_append]

theorem journalText_ends (journal : List JournalEvent) :
    journalText json journal = [] ∨ ∃ front, journalText json journal = front ++ [10] := by
  rcases eq_nil_or_concat journal with rfl | ⟨before, e, rfl⟩
  · exact .inl rfl
  · refine .inr ⟨journalText json before ++ json.to_string e, ?_⟩
    rw [concat_eq_append, journalText_append]
    simp [journalText, joinLines]

theorem repair_text (unbroken : 10 ∉ tail) (repaired : repair_torn_journal_tail (journalText json journal ++ tail) = .ok file) :
    file = journalText json journal := by
  have some_width : 0 < TAIL_BLOCK_LEN := by unfold TAIL_BLOCK_LEN; norm_num
  have ends : journalText json journal = [] ∨ ∃ front, journalText json journal = front ++ [10] := journalText_ends journal
  have start := scanTail_eq some_width unbroken ends (le_refl (journalText json journal ++ tail).length) (by simp) le_rfl
  unfold repair_torn_journal_tail at repaired
  split_ifs at repaired with empty ended
  · cases repaired
    simp at empty
    rw [empty.2, List.append_nil]
  · cases repaired
    cases tail with
    | nil => exact List.append_nil _
    | cons b rest =>
      rw [getLast?_append_cons] at ended
      exact absurd (mem_of_getLast? ended) unbroken
  · dsimp only at repaired
    rw [start] at repaired
    split_ifs at repaired
    cases repaired
    exact take_left' rfl

/-- The search by blocks cuts any file after its last newline, unless more than the bound stands behind it. -/
theorem repair_eq_rdropWhile (file : Bytes) : repair_torn_journal_tail file =
    let whole := file.rdropWhile (· ≠ 10)
    if MAX_RECOVERY_TAIL_BYTES < file.length - whole.length then .error (.UnterminatedTail (file.length - whole.length))
    else .ok whole := by
  generalize cut : file.rdropWhile (· ≠ 10) = whole
  have parts : whole ++ file.rtakeWhile (· ≠ 10) = file := cut ▸ rdropWhile_append_rtakeWhile ..
  have unbroken : 10 ∉ file.rtakeWhile (· ≠ 10) := fun there => by simpa using mem_rtakeWhile_imp there
  have again : whole.rdropWhile (· ≠ 10) = whole := cut ▸ rdropWhile_idempotent ..
  have ends : whole = [] ∨ ∃ a, whole = a ++ [10] := by
    rcases eq_nil_or_concat' whole with none | ⟨a, b, rfl⟩
    · exact .inl none
    · exact .inr ⟨a, by simpa using rdropWhile_eq_self_iff.mp again⟩
  have start := scanTail_eq (by decide : 0 < TAIL_BLOCK_LEN) unbroken ends le_rfl (by simp) le_rfl
  rw [parts] at start
  have kept : file.take whole.length = whole := by rw [← parts, take_left]
  unfold repair_torn_journal_tail
  rw [start]
  dsimp only
  rw [kept]
  by_cases same : whole = file
  · simp [same]
  · rw [if_neg, if_neg]
    · intro ended
      obtain ⟨front, rfl⟩ := getLast?_eq_some_iff.mp ended
      exact same (cut ▸ rdropWhile_concat_neg _ _ _ (by simp))
    · intro empty
      rw [isEmpty_iff.mp empty] at cut same
      exact same cut.symm

/-! ## Torn tails -/

/-- Where a cut journal was cut: some events whole, and of the next at most its text. -/
theorem cut_journal (written : ∀ e ∈ journal, json.Writes e) (n : Nat) :
    ∃ k tail, (journalText json journal).take n = journalText json (journal.take k) ++ tail ∧ k ≤ journal.length ∧ 10 ∉ tail ∧
      (tail = [] ∨ ∃ e, journal[k]? = some e ∧ ∃ j, j ≤ (json.to_string e).length ∧ tail = (json.to_string e).take j) := by
  obtain ⟨k, tail, cut, few, part⟩ := take_joinLines (journal.map json.to_string) n
  rw [← map_take] at cut
  rw [length_map] at few
  refine ⟨k, tail, cut, few, ?_⟩
  rcases part with rfl | ⟨line, here, j, inside, rfl⟩
  · exact ⟨not_mem_nil, .inl rfl⟩
  · rw [getElem?_map, Option.map_eq_some_iff] at here
    obtain ⟨e, at_k, rfl⟩ := here
    exact ⟨fun there => (written e (mem_of_getElem? at_k)).unbroken (mem_of_mem_take there),
      .inr ⟨e, at_k, j, inside, rfl⟩⟩

/-- The lines of a file that end with a newline. -/
def terminatedPart (file : Bytes) : Bytes := joinLines (splitLines file).1

/-- What an unfinished line is to do: nothing. The file opens to what its finished lines give, and a fact stored next is there
after reopening together with all that could be seen. -/
structure TailHandled (json : Json) (policy : PrivacyPolicy) (file : Bytes) : Prop where
  opened : ∃ m, openFile json policy file = .ok m ∧ openFile json policy (terminatedPart file) = .ok m
  kept : ∀ m fact file', openFile json policy file = .ok m → json.Writes (.Store fact) → fact.confidence.is_finite = true →
    fact.deleted = false → m.lookup fact.fact_id = none → appendFile json file (.Store fact) = .ok file' →
    ∃ m', openFile json policy file' = .ok m' ∧ (∀ id, (m.get id).isSome = true → (m'.get id).isSome = true) ∧
      (m'.get fact.fact_id).isSome = true

theorem appendFile_text (unbroken : 10 ∉ tail) (appended : appendFile json (journalText json journal ++ tail) e = .ok file) :
    file = journalText json (journal ++ [e]) := by
  obtain ⟨repaired, ok, same⟩ := bind_ok_iff.mp appended
  rw [repair_text unbroken ok] at same
  cases same
  rw [journalText_append]
  simp [journalText, joinLines]

theorem get_sanitize (m : Memory) (id : String) : (m.sanitize_replayed_links.get id).isSome = (m.get id).isSome := by
  have found : m.sanitize_replayed_links.lookup id = (m.lookup id).map m.cleanLinks :=
    lookup_each (h := m.cleanLinks) (fun _ => rfl) m id
  unfold Memory.get
  rw [found]
  cases m.lookup id with
  | none => rfl
  | some f =>
    rw [Option.map_some]
    cases dead : f.deleted with
    | true => simp [dead, cleanLinks]
    | false => simp [dead, cleanLinks]

theorem get_stored {fact : Fact} (finite : fact.confidence.is_finite = true) (alive : fact.deleted = false)
    (unknown : (replay_journal policy journal).lookup fact.fact_id = none) :
    (∀ id, ((replay_journal policy journal).get id).isSome = true →
        ((replay_journal policy (journal ++ [.Store fact])).get id).isSome = true) ∧
      ((replay_journal policy (journal ++ [.Store fact])).get fact.fact_id).isSome = true := by
  obtain ⟨id_same, _, _, _, _, deleted_same, _⟩ := incoming_fields policy fact
  unfold replay_journal at unknown ⊢
  have unknown' : (replayLines policy journal).lookup (incoming policy fact).fact_id = none := by
    have found : (replayLines policy journal).sanitize_replayed_links.lookup fact.fact_id =
        ((replayLines policy journal).lookup fact.fact_id).map (replayLines policy journal).cleanLinks :=
      lookup_each (h := (replayLines policy journal).cleanLinks) (fun _ => rfl) _ _
    rw [found, Option.map_eq_none_iff] at unknown
    rw [id_same]
    exact unknown
  have stored : replayLines policy (journal ++ [.Store fact]) =
      (replayLines policy journal).insert_fact_indexes (incoming policy fact) := by
    rw [replayLines_append, foldl_cons, foldl_nil]
    unfold replayEvent
    rw [if_pos (show (JournalEvent.Store fact).readable = true from finite)]
    dsimp only [applyEvent]
    unfold Memory.replay_journal_insert
    dsimp only
    rw [unknown']
    rfl
  simp only [get_sanitize, stored]
  generalize replayLines policy journal = m at unknown' ⊢
  constructor
  · intro id visible
    unfold Memory.get at visible ⊢
    rw [lookup_insert]
    cases found : m.lookup id with
    | none => simp [found] at visible
    | some f =>
      rw [found] at visible
      exact visible
  · unfold Memory.get
    rw [← id_same, lookup_insert_same unknown']
    simp [deleted_same, alive]

/-- A cut of a journal is handled exactly when the unfinished line is text and is not a whole event that changes what the
finished lines give. -/
theorem torn_tail_handled_iff (json : Json) (policy : PrivacyPolicy) (journal : List JournalEvent)
    (written : ∀ e ∈ journal, json.Writes e) (n : Nat) :
    TailHandled json policy ((journalText json journal).take n) ↔
      utf8Valid (splitLines ((journalText json journal).take n)).2 = true ∧
        ∀ e, journal[(splitLines ((journalText json journal).take n)).1.length]? = some e →
          (splitLines ((journalText json journal).take n)).2 = json.to_string e →
            replay_journal policy (journal.take (splitLines ((journalText json journal).take n)).1.length ++ [e]) =
              replay_journal policy (journal.take (splitLines ((journalText json journal).take n)).1.length) := by
  obtain ⟨k, tail, cut, few, unbroken, part⟩ := cut_journal written n
  have written' : ∀ e ∈ journal.take k, json.Writes e := fun e member => written e (mem_of_mem_take member)
  have all : ∀ line ∈ (journal.take k).map json.to_string, 10 ∉ line := by
    intro line member
    obtain ⟨e, there, rfl⟩ := mem_map.mp member
    exact (written' e there).unbroken
  have split : splitLines ((journalText json journal).take n) = ((journal.take k).map json.to_string, tail) := by
    rw [cut]
    exact splitLines_join all unbroken
  have count : ((journal.take k).map json.to_string).length = k := by
    rw [length_map, length_take]
    omega
  have terminated : terminatedPart ((journalText json journal).take n) = journalText json (journal.take k) := by
    unfold terminatedPart
    rw [split]
    rfl
  have committed := @openFile_journal json policy (journal.take k) written'
  have opens := @openFile_text json policy (journal.take k) written' tail unbroken
  rw [← cut] at opens
  rw [split]
  dsimp only
  rw [count]
  -- the tail is read as its event when it is the whole text of one, and as nothing otherwise
  have read : ∀ e, journal[k]? = some e → tail = json.to_string e →
      replayText json policy (replayLines policy (journal.take k)) tail = replayLines policy (journal.take k ++ [e]) := by
    intro e here same
    rw [same, replayText_written (written e (mem_of_getElem? here)), replayLines_append]
    rfl
  constructor
  · rintro ⟨⟨m, opened, first⟩, _⟩
    rw [terminated, committed] at first
    cases first
    rw [opens] at opened
    refine ⟨?_, fun e here same => ?_⟩
    · cases empty : tail.isEmpty with
      | true =>
        rw [List.isEmpty_iff.mp empty]
        rfl
      | false =>
        rw [empty] at opened
        by_contra invalid
        rw [if_neg (by simp), if_neg invalid] at opened
        cases opened
    · have some_text := (written e (mem_of_getElem? here)).some_text
      have utf8 := (written e (mem_of_getElem? here)).utf8
      have nonempty : ¬ tail.isEmpty = true := by
        rw [same, List.isEmpty_iff]
        exact some_text
      rw [if_neg nonempty, if_pos (by rw [same]; exact utf8), read e here same] at opened
      exact Except.ok.inj opened
  · rintro ⟨utf8, idle⟩
    have opened : openFile json policy ((journalText json journal).take n) = .ok (replay_journal policy (journal.take k)) := by
      rw [opens]
      split_ifs with empty
      · rfl
      · rcases part with rfl | ⟨e, here, j, inside, cut_text⟩
        · exact absurd rfl empty
        · rcases Nat.lt_or_eq_of_le inside with short | whole
          · have nothing : json.from_str tail = none := by
              rw [cut_text]
              exact (written e (mem_of_getElem? here)).whole j short
            unfold replayText
            rw [nothing]
            rfl
          · have same : tail = json.to_string e := by rw [cut_text, whole, take_length]
            rw [read e here same]
            exact congrArg Except.ok (idle e here same)
    refine ⟨⟨_, opened, by rw [terminated]; exact committed⟩, ?_⟩
    intro m fact file' opened' writes finite alive unknown appended
    rw [opened] at opened'
    cases opened'
    rw [cut] at appended
    rw [appendFile_text unbroken appended]
    obtain ⟨seen, stored⟩ := @get_stored policy (journal.take k) fact finite alive unknown
    refine ⟨_, openFile_journal fun e member => ?_, seen, stored⟩
    rcases mem_append.mp member with old | new
    · exact written' e old
    · rw [mem_singleton.mp new]
      exact writes

end

instance (json : Json) (e : JournalEvent) : Decidable (json.Writes e) :=
  decidable_of_iff
    (json.to_string e ≠ [] ∧ (∀ b ∈ json.to_string e, 32 ≤ b) ∧ utf8Valid (json.to_string e) = true ∧
      json.from_str (json.to_string e) = (if e.readable then some e else none) ∧
      ∀ n < (json.to_string e).length, json.from_str ((json.to_string e).take n) = none)
    ⟨fun ⟨some_text, plain, utf8, read_back, whole⟩ => ⟨some_text, plain, utf8, read_back, whole⟩,
      fun h => ⟨h.some_text, h.plain, h.utf8, h.read_back, h.whole⟩⟩

/-- The identifier of a stored fact and a letter of two bytes, in braces. -/
def sampleText : JournalEvent → Bytes
  | .Store fact => 123 :: (fact.fact_id.toList.map (fun c => UInt8.ofNat c.toNat) ++ [0xC3, 0xA9, 125])
  | _ => [123, 125]

/-- A format for a few events. -/
def sampleJson (events : List JournalEvent) : Json where
  to_string := sampleText
  from_str line := events.find? fun e => decide (sampleText e = line)

def sampleStored : List JournalEvent :=
  (FactStore.run sampleEnv {} [.store sampleRequest ⟨"a", 1⟩ true true,
    .store { sampleRequest with key := "other" } ⟨"b", 2⟩ true true]).journal

theorem sampleStored_eq : sampleStored = [("a", "k", 1), ("b", "other", 2)].map fun (id, key, time) =>
    .Store ⟨id, "first", "e", key, "v", none, .finite 0, time, 1, false, 1, none, false, .None, none, none, none, none, none, 0, none⟩ := by
  decide +kernel

/-- A cut in the second line before its letter of two bytes. -/
theorem sampleStored_torn_tail_handled :
    TailHandled (sampleJson sampleStored) sampleEnv.policy ((journalText (sampleJson sampleStored) sampleStored).take 8) := by
  rw [sampleStored_eq]
  refine (torn_tail_handled_iff (sampleJson _) sampleEnv.policy _ (by decide +kernel) 8).mpr ⟨by decide +kernel, ?_⟩
  rintro e ⟨⟩ same
  exact absurd same (by decide +kernel)

/-- A cut inside a letter keeps the store from opening; a cut before the newline shows a fact that the next append removes. -/
theorem torn_tail_not_handled :
    (∀ e ∈ sampleStored, (sampleJson sampleStored).Writes e) ∧
      openFile (sampleJson sampleStored) sampleEnv.policy ((journalText (sampleJson sampleStored) sampleStored).take 3) =
        .error .InvalidData ∧
      ((openFile (sampleJson sampleStored) sampleEnv.policy
          ((journalText (sampleJson sampleStored) sampleStored).take 5)).toOption.bind fun m => m.get "a").isSome = true ∧
      (sampleStored[1]?.bind fun e =>
        (appendFile (sampleJson sampleStored) ((journalText (sampleJson sampleStored) sampleStored).take 5) e).toOption.bind
          fun file => (openFile (sampleJson sampleStored) sampleEnv.policy file).toOption.map
            fun m => ((m.get "a").isSome, (m.get "b").isSome)) = some (false, true) := by
  rw [sampleStored_eq]
  exact ⟨by decide +kernel, rfl, by decide +kernel⟩

end Crux.Facts
