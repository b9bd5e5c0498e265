import Mathlib.Logic.Equiv.List
import Mathlib.Tactic.DeriveCountable
import Crux.TextLines
import Crux.Utf8
import Crux.CreditConserved

/-!
# The credit journal as a file

One line of JSON for each event. Opening reads every line and stops at the first
that is no event; an append writes the event's text and then a newline, and does
not look at what the file ends with.
-/

namespace Crux.Billing
open CreditMeterStore CreditMeter Crux.Bytes Crux.TextLines List
open Crux.Frame (utf8Valid whitespace)

/-- `serde_json` on credit events. -/
structure EventJson where
  to_writer : CreditMeterEvent → Bytes
  from_str : Bytes → Option CreditMeterEvent

inductive ReplayError where
  | Io
  | Json (line : Nat)
deriving DecidableEq

def blankFrom : Nat → Bytes → Bool
  | _, [] => true
  | 0, _ :: _ => false
  | fuel + 1, b :: rest => whitespace.any fun w => w.isPrefixOf (b :: rest) && blankFrom fuel ((b :: rest).drop w.length)

/-- Nothing is left of the line once it is trimmed. -/
def isBlank (line : Bytes) : Bool := blankFrom line.length line

/-- The events of the lines from a number on. -/
def readEvents (json : EventJson) : Nat → List Bytes → Except ReplayError (List CreditMeterEvent)
  | _, [] => .ok []
  | idx, line :: rest =>
    if utf8Valid line then
      if isBlank line then readEvents json (idx + 1) rest
      else
        match json.from_str line with
        | none => .error (.Json (idx + 1))
        | some event => (readEvents json (idx + 1) rest).map (event :: ·)
    else .error .Io

def journalText (json : EventJson) (journal : List CreditMeterEvent) : Bytes := joinLines (journal.map json.to_writer)

/-- A meter and its file. -/
structure DiskMeter where
  file : Bytes
  meter : CreditMeter

/-- The file after a call that appended to the journal: the texts of the new events stand at its end. -/
def DiskMeter.written (json : EventJson) (d : DiskMeter) (m : CreditMeter) : DiskMeter :=
  ⟨d.file ++ journalText json (m.journal.drop d.meter.journal.length), m⟩

/-- `open_with_reservation_ttl` on the bytes of the journal. -/
def openDisk (json : EventJson) (file : Bytes) (reservation_ttl_secs now : Nat) : Except ReplayError DiskMeter := do
  let events ← readEvents json 0 (fileLines file)
  let d : DiskMeter := ⟨file, { store := replay events, journal := events }⟩
  return d.written json (d.meter.gc_stale_reservations reservation_ttl_secs now)

def DiskMeter.step (json : EventJson) (hashHex : String → String) (d : DiskMeter) : Op → Except ReplayError DiskMeter
  | .reopen reservation_ttl_secs now => openDisk json d.file reservation_ttl_secs now
  | op => .ok (d.written json (CreditMeter.step hashHex d.meter op))

def DiskMeter.run (json : EventJson) (hashHex : String → String) : DiskMeter → List Op → Except ReplayError DiskMeter
  | d, [] => .ok d
  | d, op :: ops => do
    let d ← d.step json hashHex op
    DiskMeter.run json hashHex d ops

/-- A meter after some events. -/
def appendAll (m : CreditMeter) (events : List CreditMeterEvent) : CreditMeter := events.foldl append_and_apply m

@[simp] theorem journal_appendAll (m : CreditMeter) (events : List CreditMeterEvent) :
    (appendAll m events).journal = m.journal ++ events := by
  induction events generalizing m with
  | nil => simp [appendAll]
  | cons e rest ih =>
    change (appendAll (m.append_and_apply e) rest).journal = _
    rw [ih]
    simp [append_and_apply]

theorem gc_appends (m : CreditMeter) (reservation_ttl_secs now : Nat) :
    ∃ events, m.gc_stale_reservations reservation_ttl_secs now = appendAll m events := by
  unfold gc_stale_reservations
  generalize staleOf m.store reservation_ttl_secs now = stale
  refine ⟨stale.map fun r => .Void SCHEMA_V1 r.tenant_id r.operation_id r.reservation_id STALE_RESERVATION_GC_REASON, ?_⟩
  rw [appendAll, foldl_map]
  rfl

theorem step_appends (hashHex : String → String) (m : CreditMeter) (op : Op)
    (call : ∀ reservation_ttl_secs now, op ≠ .reopen reservation_ttl_secs now) :
    ∃ events, step hashHex m op = appendAll m events := by
  rcases step_cases hashHex m call with ⟨same, _⟩ | ⟨e, same, _⟩
  · exact ⟨[], same⟩
  · exact ⟨[e], same⟩

theorem written_appendAll (json : EventJson) (d : DiskMeter) (events : List CreditMeterEvent) :
    d.written json (appendAll d.meter events) = ⟨d.file ++ journalText json events, appendAll d.meter events⟩ := by
  unfold DiskMeter.written
  rw [journal_appendAll, drop_left]

theorem exists_fresh_seed (s : CreditMeterStore) : ∃ event_id, s.seed_events.get ("", event_id) = none := by
  obtain ⟨event_id, fresh⟩ := Infinite.exists_notMem_finset (s.seed_events.keys.map Prod.snd).toFinset
  refine ⟨event_id, ?_⟩
  rw [mem_toFinset] at fresh
  cases known : s.seed_events.get ("", event_id) with
  | none => rfl
  | some amount => exact absurd (mem_map_of_mem (Entries.mem_keys_of_get known)) fresh

/-- An event is written as an object on one line that is read back; no part of it is read as an event, and neither are two
objects on one line. -/
structure EventJson.Faithful (json : EventJson) : Prop where
  object : ∀ e, ∃ rest, json.to_writer e = 123 :: rest
  plain : ∀ e, ∀ b ∈ json.to_writer e, 32 ≤ b
  utf8 : ∀ e, utf8Valid (json.to_writer e) = true
  read_back : ∀ e, json.from_str (json.to_writer e) = some e
  whole : ∀ e n, n < (json.to_writer e).length → json.from_str ((json.to_writer e).take n) = none
  single : ∀ e e', json.from_str (json.to_writer e ++ json.to_writer e') = none

theorem not_blank_object (rest : Bytes) : isBlank (123 :: rest) = false := by
  simp [isBlank, blankFrom, whitespace]

section
variable {json : EventJson} (faithful : json.Faithful)
include faithful

section
variable (journal : List CreditMeterEvent)

theorem readEvents_text (idx : Nat) (more : List Bytes) : readEvents json idx (journal.map json.to_writer ++ more) =
      (readEvents json (idx + journal.length) more).map (journal ++ ·) := by
  induction journal generalizing idx with
  | nil =>
    rw [map_nil, nil_append, length_nil, Nat.add_zero]
    cases readEvents json idx more <;> rfl
  | cons e rest ih =>
    obtain ⟨text, object⟩ := faithful.object e
    have blank : isBlank (json.to_writer e) = false := by rw [object, not_blank_object]
    rw [map_cons, cons_append, readEvents, if_pos (faithful.utf8 e), blank, if_neg (by simp),
      faithful.read_back]
    rw [ih, length_cons, Nat.add_assoc, Nat.add_comm 1]
    cases readEvents json (idx + (rest.length + 1)) more <;> rfl

theorem readEvents_stuck (object : ∃ rest, line = 123 :: rest) (unread : json.from_str line = none) (more : List Bytes) :
    ∃ error, readEvents json 0 (journal.map json.to_writer ++ line :: more) = .error error := by
  obtain ⟨rest, rfl⟩ := object
  rw [readEvents_text faithful]
  unfold readEvents
  rw [not_blank_object, unread]
  split_ifs with text blank
  · cases blank
  · exact ⟨_, rfl⟩
  · exact ⟨_, rfl⟩

theorem plain_lines : ∀ line ∈ journal.map json.to_writer, ∀ b ∈ line, 32 ≤ b := by
  intro line member
  obtain ⟨e, _, rfl⟩ := mem_map.mp member
  exact faithful.plain e

theorem openDisk_text (reservation_ttl_secs now : Nat) : openDisk json (journalText json journal) reservation_ttl_secs now =
      .ok ⟨journalText json (open_with_reservation_ttl journal reservation_ttl_secs now).journal,
        open_with_reservation_ttl journal reservation_ttl_secs now⟩ := by
  have lines : fileLines (journalText json journal) = journal.map json.to_writer ++ [] := by
    have unbroken : (10 : UInt8) ∉ [] := not_mem_nil
    have joined := fileLines_join (plain_lines faithful journal) unbroken
    rw [append_nil] at joined
    exact joined
  have read : readEvents json 0 (fileLines (journalText json journal)) = .ok journal := by
    rw [lines, readEvents_text faithful, readEvents]
    simp [Except.map]
  unfold openDisk
  rw [read, ok_bind]
  obtain ⟨events, appended⟩ := gc_appends { store := replay journal, journal } reservation_ttl_secs now
  dsimp only
  rw [open_with_reservation_ttl, appended, written_appendAll _ ⟨_, _⟩, journal_appendAll]
  unfold journalText
  rw [map_append, joinLines_append]
  rfl

end

/-- While nothing crashes the file holds the journal, and the meter is the one that is run. -/
theorem disk_run (hashHex : String → String) (m : CreditMeter) (ops : List Op) :
    DiskMeter.run json hashHex ⟨journalText json m.journal, m⟩ ops =
      .ok ⟨journalText json (run hashHex m ops).journal, run hashHex m ops⟩ := by
  induction ops generalizing m with
  | nil => rfl
  | cons op ops ih =>
    have stepped : DiskMeter.step json hashHex ⟨journalText json m.journal, m⟩ op =
        .ok ⟨journalText json (step hashHex m op).journal, step hashHex m op⟩ := by
      by_cases call : ∀ reservation_ttl_secs now, op ≠ .reopen reservation_ttl_secs now
      · obtain ⟨events, appended⟩ := step_appends hashHex m op call
        have ordinary : DiskMeter.step json hashHex ⟨journalText json m.journal, m⟩ op =
            .ok (DiskMeter.written json ⟨journalText json m.journal, m⟩ (step hashHex m op)) := by
          cases op with
          | reopen reservation_ttl_secs now => exact absurd rfl (call _ _)
          | seed | reserve | spend | void => rfl
        rw [ordinary, appended, written_appendAll json ⟨_, m⟩, journal_appendAll]
        simp [journalText, joinLines_append]
      · push Not at call
        obtain ⟨reservation_ttl_secs, now, rfl⟩ := call
        exact openDisk_text faithful _ _ _
    rw [DiskMeter.run, stepped, ok_bind]
    exact ih _

end

/-- The file opens to what its events give, and whatever is done afterwards the file can be opened again, with the state of
all that was done. -/
def Recovers (json : EventJson) (hashHex : String → String) (file : Bytes) (events : List CreditMeterEvent) : Prop :=
  ∀ reservation_ttl_secs now ops, ∃ d,
    openDisk json file reservation_ttl_secs now = .ok d ∧
      d.meter = open_with_reservation_ttl events reservation_ttl_secs now ∧
      ∃ d', d.run json hashHex ops = .ok d' ∧ d'.meter = CreditMeter.run hashHex d.meter ops

section
variable {json : EventJson} (faithful : json.Faithful)
include faithful

theorem recovers_text (hashHex : String → String) (journal : List CreditMeterEvent) :
    Recovers json hashHex (journalText json journal) journal := by
  intro reservation_ttl_secs now ops
  exact ⟨_, openDisk_text faithful _ _ _, rfl, _, disk_run faithful hashHex _ ops, rfl⟩

/-- A part of an event's text keeps the file from opening. -/
theorem torn_not_recovered (hashHex : String → String) (journal : List CreditMeterEvent) (e : CreditMeterEvent)
    (some_of : 0 < n) (short : n < (json.to_writer e).length) (events : List CreditMeterEvent) :
    ¬ Recovers json hashHex (journalText json journal ++ (json.to_writer e).take n) events := by
  intro recovers
  obtain ⟨d, opened, _⟩ := recovers 0 0 []
  obtain ⟨text, object⟩ := faithful.object e
  obtain ⟨n, rfl⟩ : ∃ k, n = k + 1 := ⟨n - 1, by omega⟩
  have unread := faithful.whole e (n + 1) short
  have unbroken : 10 ∉ (json.to_writer e).take (n + 1) := fun there =>
    absurd (faithful.plain e 10 (mem_of_mem_take there)) (by decide)
  rw [object, take_succ_cons] at unread unbroken opened
  obtain ⟨error, stuck⟩ := readEvents_stuck faithful journal ⟨_, rfl⟩ unread []
  unfold openDisk at opened
  rw [journalText, fileLines_join (plain_lines faithful journal) unbroken, isEmpty_cons, if_neg (by simp), stuck] at opened
  cases opened

/-- An event without its newline takes the next event onto its line, and then the file cannot be opened. -/
theorem glued_not_read (journal : List CreditMeterEvent) (e next : CreditMeterEvent) (more : List CreditMeterEvent) :
    ∃ error, readEvents json 0
      (fileLines (journalText json journal ++ json.to_writer e ++ journalText json (next :: more))) = .error error := by
  have lines : journalText json journal ++ json.to_writer e ++ journalText json (next :: more) =
      joinLines (journal.map json.to_writer ++ (json.to_writer e ++ json.to_writer next) :: more.map json.to_writer) ++ [] := by
    simp [journalText, joinLines_append, joinLines_cons]
  have plain : ∀ line ∈ journal.map json.to_writer ++ (json.to_writer e ++ json.to_writer next) :: more.map json.to_writer,
      ∀ b ∈ line, 32 ≤ b := by
    intro line member
    rcases mem_append.mp member with old | later
    · exact plain_lines faithful journal line old
    · rcases mem_cons.mp later with rfl | new
      · intro b there
        rcases mem_append.mp there with first | second
        · exact faithful.plain e b first
        · exact faithful.plain next b second
      · exact plain_lines faithful more line new
  obtain ⟨text, object⟩ := faithful.object e
  rw [lines, fileLines_join plain (by simp), isEmpty_nil, if_pos rfl, append_nil]
  exact readEvents_stuck faithful journal ⟨text ++ json.to_writer next, by rw [object, cons_append]⟩
    (faithful.single e next) _

theorem unterminated_not_recovered (hashHex : String → String) (journal : List CreditMeterEvent) (e : CreditMeterEvent)
    (events : List CreditMeterEvent) : ¬ Recovers json hashHex (journalText json journal ++ json.to_writer e) events := by
  intro recovers
  obtain ⟨d, opened, _⟩ := recovers 0 0 []
  -- whatever opening has written, one more seed puts a second object onto the last line
  obtain ⟨event_id, fresh⟩ := exists_fresh_seed d.meter.store
  obtain ⟨d', opened', _, d'', ran, _⟩ := recovers 0 0 [.seed "" 0 event_id, .reopen 0 0]
  rw [opened] at opened'
  cases opened'
  have file : ∃ voids, d.file = journalText json journal ++ json.to_writer e ++ journalText json voids := by
    obtain ⟨read, _, same⟩ := bind_ok_iff.mp opened
    obtain ⟨voids, appended⟩ := gc_appends { store := replay read, journal := read } 0 0
    dsimp only at same
    rw [appended, written_appendAll json ⟨_, _⟩] at same
    cases same
    exact ⟨voids, rfl⟩
  obtain ⟨voids, file⟩ := file
  have seeded : step hashHex d.meter (.seed "" 0 event_id) =
      appendAll d.meter [.SeedCompedWallet SCHEMA_V1 event_id "" 0] := by
    rcases seed_cases d.meter "" 0 event_id with ⟨known, _⟩ | ⟨_, same⟩
    · rw [fresh] at known
      cases known
    · exact same
  have stepped : d.step json hashHex (.seed "" 0 event_id) =
      .ok ⟨d.file ++ journalText json [.SeedCompedWallet SCHEMA_V1 event_id "" 0],
        appendAll d.meter [.SeedCompedWallet SCHEMA_V1 event_id "" 0]⟩ := by
    change Except.ok (d.written json _) = _
    rw [seeded, written_appendAll]
  rw [DiskMeter.run, stepped, ok_bind, DiskMeter.run] at ran
  obtain ⟨reopened, again, _⟩ := bind_ok_iff.mp ran
  obtain ⟨read, readable, _⟩ := bind_ok_iff.mp again
  have longer : journalText json journal ++ json.to_writer e ++ journalText json voids ++
      journalText json [.SeedCompedWallet SCHEMA_V1 event_id "" 0] =
        journalText json journal ++ json.to_writer e ++ journalText json (voids ++ [.SeedCompedWallet SCHEMA_V1 event_id "" 0]) := by
    simp [journalText, joinLines_append]
  rw [file, longer] at readable
  cases written : voids ++ [CreditMeterEvent.SeedCompedWallet SCHEMA_V1 event_id "" 0] with
  | nil => simp at written
  | cons next more =>
    rw [written] at readable
    obtain ⟨error, stuck⟩ := glued_not_read faithful journal e next more
    rw [stuck] at readable
    cases readable

end

/-- While nothing crashes the file holds the journal. A crash in an append is recovered from exactly when it leaves nothing of
the event's line, or all of it with its newline. -/
theorem crash_recovered_iff (json : EventJson) (faithful : json.Faithful) (hashHex : String → String) :
    (∀ ops, DiskMeter.run json hashHex ⟨[], {}⟩ ops =
        .ok ⟨journalText json (CreditMeter.run hashHex {} ops).journal, CreditMeter.run hashHex {} ops⟩) ∧
      ∀ (journal : List CreditMeterEvent) (e : CreditMeterEvent) (n : Nat),
        Recovers json hashHex (journalText json journal ++ (json.to_writer e ++ [10]).take n)
            (journal ++ if (json.to_writer e).length ≤ n then [e] else []) ↔
          n = 0 ∨ (json.to_writer e).length < n := by
  refine ⟨fun ops => disk_run faithful hashHex {} ops, fun journal e n => ⟨fun recovers => ?_, ?_⟩⟩
  · by_contra inside
    push Not at inside
    rw [take_append_of_le_length inside.2] at recovers
    rcases Nat.lt_or_eq_of_le inside.2 with short | whole
    · exact torn_not_recovered faithful hashHex journal e (by omega) short _ recovers
    · rw [whole, take_length] at recovers
      exact unterminated_not_recovered faithful hashHex journal e _ recovers
  · rintro (rfl | all)
    · obtain ⟨text, object⟩ := faithful.object e
      rw [if_neg (by simp [object]), take_zero, append_nil, append_nil]
      exact recovers_text faithful hashHex journal
    · have line : journalText json journal ++ (json.to_writer e ++ [10]).take n = journalText json (journal ++ [e]) := by
        rw [take_of_length_le (by simp; omega)]
        simp [journalText, joinLines]
      rw [line, if_pos (by omega)]
      exact recovers_text faithful hashHex _

instance countable_char : Countable Char := Function.Injective.countable (f := Char.toNat) fun _ _ same => Char.toNat_inj.mp same

instance countable_string : Countable String := Function.Injective.countable (f := String.toList) fun _ _ same => String.toList_inj.mp same

deriving instance Countable for CreditMeterEvent

/-- A number for each event. -/
noncomputable def eventNumber : CreditMeterEvent → Nat := (Countable.exists_injective_nat CreditMeterEvent).choose

/-- An object with as many letters as the event's number. -/
noncomputable def numberText (e : CreditMeterEvent) : Bytes := 123 :: (List.replicate (eventNumber e) 120 ++ [125])

open Classical in
noncomputable def numberJson : EventJson where
  to_writer := numberText
  from_str line := if read : ∃ e, numberText e = line then some read.choose else none

theorem numberText_injective : Function.Injective numberText := by
  intro e e' same
  have count := congrArg List.length same
  simp [numberText] at count
  exact (Countable.exists_injective_nat CreditMeterEvent).choose_spec (by unfold eventNumber at count; omega)

theorem utf8_letters (n : Nat) (rest : Bytes) : utf8Valid (List.replicate n 120 ++ rest) = utf8Valid rest := by
  induction n with
  | zero => rfl
  | succ n ih => exact ih

theorem numberText_whole (same : numberText e' = numberText e ++ rest) : rest = [] := by
  suffices letters : ∀ a b : Nat, List.replicate b (120 : UInt8) ++ [125] = List.replicate a 120 ++ (125 :: rest) → rest = [] by
    refine letters (eventNumber e) (eventNumber e') ?_
    have tail := tail_eq_of_cons_eq same
    simpa using tail
  intro a
  induction a with
  | zero =>
    rintro (_ | b) equal
    · simpa using equal
    · cases equal
  | succ a ih =>
    rintro (_ | b) equal
    · cases equal
    · exact ih b (tail_eq_of_cons_eq equal)

theorem numberJson_faithful : numberJson.Faithful where
  object e := ⟨_, rfl⟩
  plain e b there := by
    change b ∈ numberText e at there
    simp [numberText] at there
    rcases there with rfl | ⟨_, rfl⟩ | rfl <;> decide
  utf8 e := by
    change utf8Valid (List.replicate _ 120 ++ [125]) = true
    rw [utf8_letters]
    rfl
  read_back e := by
    have read : ∃ e', numberText e' = numberText e := ⟨e, rfl⟩
    exact (dif_pos read).trans (congrArg some (numberText_injective read.choose_spec))
  whole e n short := by
    refine dif_neg ?_
    rintro ⟨e', same⟩
    have parts : numberText e = numberText e' ++ (numberText e).drop n := by
      rw [same]
      exact (take_append_drop n _).symm
    have rest := numberText_whole parts
    rw [drop_eq_nil_iff] at rest
    exact absurd short (not_lt.mpr rest)
  single e e' := by
    refine dif_neg ?_
    rintro ⟨e'', same⟩
    cases numberText_whole same

/-- A crash after the newline of a seed. -/
theorem crash_recovered_whole :
    Recovers numberJson id
      (journalText numberJson [] ++ (numberText (.SeedCompedWallet SCHEMA_V1 "welcome" "acme" 10) ++ [10]).take
        ((numberText (.SeedCompedWallet SCHEMA_V1 "welcome" "acme" 10)).length + 1))
      [.SeedCompedWallet SCHEMA_V1 "welcome" "acme" 10] := by
  have recovered := ((crash_recovered_iff numberJson numberJson_faithful id).2 []
    (.SeedCompedWallet SCHEMA_V1 "welcome" "acme" 10)
    ((numberText (.SeedCompedWallet SCHEMA_V1 "welcome" "acme" 10)).length + 1)).mpr (.inr (Nat.lt_succ_self _))
  have whole : (numberJson.to_writer (.SeedCompedWallet SCHEMA_V1 "welcome" "acme" 10)).length ≤
      (numberText (.SeedCompedWallet SCHEMA_V1 "welcome" "acme" 10)).length + 1 := Nat.le_succ _
  rw [if_pos whole] at recovered
  exact recovered

/-- The event's id in braces. -/
def seedText : CreditMeterEvent → Bytes
  | .SeedCompedWallet _ event_id _ _ => 123 :: (event_id.toList.map (fun c => UInt8.ofNat c.toNat) ++ [125])
  | _ => [123, 125]

/-- A format for the seeds of a run. -/
def seedJson : EventJson where
  to_writer := seedText
  from_str line := (CreditMeter.run id {} [.seed "acme" 10 "a", .seed "acme" 5 "b", .seed "acme" 1 "c"]).journal.find?
    fun e => decide (seedText e = line)

/-- After one seed the second is cut. One byte of it keeps the meter from opening; all of it without the newline is read, but
then the third seed is written onto the same line, and the meter does not open again. -/
theorem torn_append_not_recovered :
    (CreditMeter.run id {} [.seed "acme" 10 "a"]).journal = [.SeedCompedWallet SCHEMA_V1 "a" "acme" 10] ∧
      (openDisk seedJson (journalText seedJson [.SeedCompedWallet SCHEMA_V1 "a" "acme" 10] ++
        (seedText (.SeedCompedWallet SCHEMA_V1 "b" "acme" 5) ++ [10]).take 1) 60 0).toOption.isNone = true ∧
      (openDisk seedJson (journalText seedJson [.SeedCompedWallet SCHEMA_V1 "a" "acme" 10] ++
        (seedText (.SeedCompedWallet SCHEMA_V1 "b" "acme" 5) ++ [10]).take 3) 60 0).toOption.map
          (fun d => d.meter.store.available_balance "acme") = some 15 ∧
      ((openDisk seedJson (journalText seedJson [.SeedCompedWallet SCHEMA_V1 "a" "acme" 10] ++
        (seedText (.SeedCompedWallet SCHEMA_V1 "b" "acme" 5) ++ [10]).take 3) 60 0).bind fun d =>
          d.run seedJson id [.seed "acme" 1 "c", .reopen 60 0]).toOption.isNone = true := by
  decide +kernel

end Crux.Billing
