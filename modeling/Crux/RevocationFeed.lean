import Mathlib.Data.Finset.Basic
import Mathlib.Data.Finset.Union
import Mathlib.Tactic.SplitIfs

/-!
# The revocation feed

`rcx-revocation`: the cached list of revoked passports, refreshed from the
issuer's document and extended by pushes, and the rule that a session is
authorised on fresh data only. A step carries what the transport answered; the
JSON reader is a parameter. A history of accepted documents and pushes says
which passports are owed a refusal: `owed`.
-/

namespace Crux.Crl

structure CrlDocument where
  schema : String
  sequence : Nat
  revoked_fprs : List String
deriving DecidableEq

def CRL_SCHEMA_V1 : String := "rcx-crl/1"

def DEFAULT_FRESHNESS_SECS : Nat := 300

inductive RevocationError where
  | Transport (message : String)
  | Unauthorized (status : Nat)
  | Malformed (message : String)
  | UnsupportedSchema (schema : String)
  | SequenceRollback (cached received : Nat)
  | NoCrlUrl
deriving DecidableEq

def RevocationError.to_string : RevocationError → String
  | .Transport message => "transport failure: " ++ message
  | .Unauthorized status =>
    "CRL endpoint rejected the credential (HTTP " ++ toString status
      ++ "); check CORECRUXD_ENGINE_API_KEY and CORECRUXD_ENGINE_TENANT_ID"
  | .Malformed message => "malformed CRL: " ++ message
  | .UnsupportedSchema schema => "unsupported CRL schema: " ++ schema
  | .SequenceRollback cached received =>
    "CRL sequence went backwards: cached " ++ toString cached ++ ", received " ++ toString received
  | .NoCrlUrl => "no crl_url on this token's revocation block"

inductive RevocationSnapshot where
  | Fresh (revoked : Finset String) (sequence : Nat)
  | Stale (revoked : Finset String) (sequence age_secs : Nat)
  | Unavailable (reason : String)
deriving DecidableEq

def RevocationSnapshot.is_authorizable : RevocationSnapshot → Bool
  | .Fresh _ _ => true
  | _ => false

/-- `verify` is run on fresh data only. -/
def authorize_when_known {R : Type} (snapshot : RevocationSnapshot) (verify : (String → Bool) → R) : Except String R :=
  match snapshot with
  | .Fresh revoked _ => .ok (verify fun fpr => fpr ∈ revoked)
  | .Stale _ _ _ => .error "revocation_unavailable"
  | .Unavailable _ => .error "revocation_unavailable"

structure CachedCrl where
  revoked : Finset String
  sequence : Nat
  fetched_at : Nat
deriving DecidableEq

structure RevocationFeed where
  crl_url : Option String
  freshness_secs : Nat
  cached : Option CachedCrl
  last_error : Option String
deriving DecidableEq

def RevocationFeed.new (crl_url : Option String) (freshness_secs : Nat) : RevocationFeed :=
  { crl_url, freshness_secs, cached := none, last_error := none }

section
variable (from_str : String → Except String CrlDocument)

section
variable (feed : RevocationFeed)

def RevocationFeed.failed (error : RevocationError) : RevocationFeed × Except RevocationError Unit :=
  ({ feed with last_error := some error.to_string }, .error error)

/-- `response` is what `transport.fetch` answers. -/
def RevocationFeed.refresh (response : Except RevocationError String) (now_unix_seconds : Nat) :
    RevocationFeed × Except RevocationError Unit :=
  match feed.crl_url with
  | none => ({ feed with last_error := some "no crl_url" }, .error .NoCrlUrl)
  | some _ =>
    match response with
    | .error err => feed.failed err
    | .ok body =>
      match from_str body with
      | .error message => feed.failed (.Malformed message)
      | .ok doc =>
        if doc.schema ≠ CRL_SCHEMA_V1 then feed.failed (.UnsupportedSchema doc.schema)
        else
          match feed.cached.filter fun cached => doc.sequence < cached.sequence with
          | some cached => feed.failed (.SequenceRollback cached.sequence doc.sequence)
          | none =>
            ({ feed with
                cached := some
                  { revoked := doc.revoked_fprs.toFinset, sequence := doc.sequence, fetched_at := now_unix_seconds }
                last_error := none }, .ok ())

def RevocationFeed.snapshot (now_unix_seconds : Nat) : RevocationSnapshot :=
  match feed.cached with
  | none => .Unavailable (feed.last_error.getD "revocation feed never fetched")
  | some cached =>
    -- `saturating_sub`
    let age := now_unix_seconds - cached.fetched_at
    if age ≤ feed.freshness_secs then .Fresh cached.revoked cached.sequence else .Stale cached.revoked cached.sequence age

def RevocationFeed.snapshot_refreshing (response : Except RevocationError String)
    (now_unix_seconds : Nat) : RevocationFeed × RevocationSnapshot :=
  let feed :=
    if !(feed.snapshot now_unix_seconds).is_authorizable then (feed.refresh from_str response now_unix_seconds).1 else feed
  (feed, feed.snapshot now_unix_seconds)

def RevocationFeed.apply_push (revoked_fprs : List String) : RevocationFeed :=
  match feed.cached with
  | some cached => { feed with cached := some { cached with revoked := cached.revoked ∪ revoked_fprs.toFinset } }
  | none => feed

/-- The document a refresh accepts. -/
def RevocationFeed.accepts (response : Except RevocationError String) : Option CrlDocument :=
  match feed.crl_url, response with
  | some _, .ok body =>
    match from_str body with
    | .ok doc =>
      if doc.schema = CRL_SCHEMA_V1 ∧ ∀ cached ∈ feed.cached, cached.sequence ≤ doc.sequence then some doc else none
    | .error _ => none
  | _, _ => none

end

end

section
variable {from_str : String → Except String CrlDocument} {feed : RevocationFeed} {response : Except RevocationError String}
  {now : Nat}

variable {doc : CrlDocument}

theorem accepts_iff : feed.accepts from_str response = some doc ↔
      feed.crl_url.isSome ∧ (∃ body, response = .ok body ∧ from_str body = .ok doc) ∧ doc.schema = CRL_SCHEMA_V1
        ∧ ∀ cached ∈ feed.cached, cached.sequence ≤ doc.sequence := by
  unfold RevocationFeed.accepts
  cases url : feed.crl_url with
  | none => simp
  | some url =>
    cases response with
    | error err => simp
    | ok body =>
      cases parsed : from_str body with
      | error message => simp [parsed]
      | ok read =>
        simp only [parsed, Option.isSome_some, true_and, Except.ok.injEq, exists_eq_left']
        constructor
        · intro accepted
          split_ifs at accepted with guarded
          obtain rfl := Option.some.inj accepted
          exact ⟨rfl, guarded⟩
        · rintro ⟨rfl, guarded⟩
          rw [if_pos guarded]

theorem rollback_filter : (feed.cached.filter fun cached => doc.sequence < cached.sequence) = none
      ↔ ∀ cached ∈ feed.cached, cached.sequence ≤ doc.sequence := by
  cases feed.cached <;> simp

theorem refresh_accepts (accepted : feed.accepts from_str response = some doc) : feed.refresh from_str response now
      = ({ feed with
            cached := some { revoked := doc.revoked_fprs.toFinset, sequence := doc.sequence, fetched_at := now }
            last_error := none }, .ok ()) := by
  obtain ⟨url, ⟨body, rfl, parsed⟩, schema, newer⟩ := accepts_iff.mp accepted
  obtain ⟨url, given⟩ := Option.isSome_iff_exists.mp url
  unfold RevocationFeed.refresh
  rw [given]
  simp only [parsed]
  rw [if_neg (by simp [schema]), rollback_filter.mpr newer]

theorem refresh_refuses (refused : feed.accepts from_str response = none) :
    (feed.refresh from_str response now).1.cached = feed.cached
      ∧ (feed.refresh from_str response now).1.freshness_secs = feed.freshness_secs
      ∧ (feed.refresh from_str response now).2.isOk = false := by
  unfold RevocationFeed.refresh
  cases url : feed.crl_url with
  | none => exact ⟨rfl, rfl, rfl⟩
  | some url' =>
    cases response with
    | error err => exact ⟨rfl, rfl, rfl⟩
    | ok body =>
      cases parsed : from_str body with
      | error message => simp only [parsed]; exact ⟨rfl, rfl, rfl⟩
      | ok doc =>
        simp only [parsed]
        split_ifs with schema
        · exact ⟨rfl, rfl, rfl⟩
        · cases older : feed.cached.filter fun cached => doc.sequence < cached.sequence with
          | some cached => exact ⟨rfl, rfl, rfl⟩
          | none =>
            have accepted : feed.accepts from_str (.ok body) = some doc :=
              accepts_iff.mpr ⟨by simp [url], ⟨body, rfl, parsed⟩, by simpa using schema, rollback_filter.mp older⟩
            rw [refused] at accepted
            cases accepted

end

open RevocationFeed

/-- What revokes and restores: accepted documents and pushes, the newest first. -/
inductive Event where
  | accepted (doc : CrlDocument)
  | pushed (revoked_fprs : List String)
deriving DecidableEq

/-- The sequence number of the newest document. -/
def level : List Event → Option Nat
  | [] => none
  | .accepted doc :: _ => some doc.sequence
  | .pushed _ :: past => level past

/-- The passports that were revoked and are owed a refusal: no document with a greater sequence number has
been accepted since that leaves them out. -/
def owed : List Event → Finset String
  | [] => ∅
  | .accepted doc :: past =>
    if (level past).any fun sequence => sequence < doc.sequence then doc.revoked_fprs.toFinset
    else doc.revoked_fprs.toFinset ∪ owed past
  | .pushed revoked_fprs :: past => owed past ∪ revoked_fprs.toFinset

inductive FeedOp where
  | refresh (response : Except RevocationError String) (now : Nat)
  | snapshot_refreshing (response : Except RevocationError String) (now : Nat)
  | apply_push (revoked_fprs : List String)

/-- A feed with its history. -/
structure Watched where
  feed : RevocationFeed
  past : List Event

section
variable (from_str : String → Except String CrlDocument)

def Watched.refresh (w : Watched) (response : Except RevocationError String) (now : Nat) : Watched :=
  { feed := (w.feed.refresh from_str response now).1
    past := ((w.feed.accepts from_str response).map Event.accepted).toList ++ w.past }

def Watched.step (w : Watched) : FeedOp → Watched
  | .refresh response now => w.refresh from_str response now
  | .snapshot_refreshing response now =>
    if !(w.feed.snapshot now).is_authorizable then w.refresh from_str response now else w
  | .apply_push revoked_fprs => { feed := w.feed.apply_push revoked_fprs, past := .pushed revoked_fprs :: w.past }

def Watched.run (w : Watched) (ops : List FeedOp) : Watched := ops.foldl (Watched.step from_str) w

/-- The snapshot reports the passport as revoked. -/
def Reports : RevocationSnapshot → String → Prop
  | .Fresh revoked _, fpr => fpr ∈ revoked
  | .Stale revoked _ _, fpr => fpr ∈ revoked
  | .Unavailable _, _ => False

/-- Whatever is owed a refusal is reported as revoked, whenever the snapshot is taken. -/
def Sticky (w : Watched) : Prop := ∀ fpr ∈ owed w.past, ∀ now, Reports (w.feed.snapshot now) fpr

/-- A document with the sequence number of the cache leaves out nothing that is in the cache. -/
def SafeRefresh (w : Watched) (response : Except RevocationError String) : Prop :=
  ∀ doc, w.feed.accepts from_str response = some doc → ∀ cached ∈ w.feed.cached, doc.sequence = cached.sequence →
    cached.revoked ⊆ doc.revoked_fprs.toFinset

/-- A refresh is safe, and a push finds a document in the cache. -/
def SafeStep (w : Watched) : FeedOp → Prop
  | .refresh response _ => SafeRefresh from_str w response
  | .snapshot_refreshing response now => (w.feed.snapshot now).is_authorizable = false → SafeRefresh from_str w response
  | .apply_push revoked_fprs => revoked_fprs = [] ∨ w.feed.cached.isSome

/-- Every state of a run is sticky. -/
def AllSticky : Watched → List FeedOp → Prop
  | w, [] => Sticky w
  | w, op :: rest => Sticky w ∧ AllSticky (w.step from_str op) rest

/-- Every step of a run is safe. -/
def AllSafe : Watched → List FeedOp → Prop
  | _, [] => True
  | w, op :: rest => SafeStep from_str w op ∧ AllSafe (w.step from_str op) rest

end

theorem reports_iff {feed : RevocationFeed} {now : Nat} {fpr : String} :
    Reports (feed.snapshot now) fpr ↔ ∃ cached ∈ feed.cached, fpr ∈ cached.revoked := by
  unfold snapshot
  cases feed.cached with
  | none => simp [Reports]
  | some cached =>
    simp
    split_ifs <;> rfl

/-- The history and the cache agree on the newest document, and what is cached was revoked. -/
structure Tracked (w : Watched) : Prop where
  levels : level w.past = w.feed.cached.map CachedCrl.sequence
  covered : ∀ cached ∈ w.feed.cached, cached.revoked ⊆ owed w.past

section
variable {from_str : String → Except String CrlDocument} {w : Watched}

theorem sticky_iff : Sticky w ↔ ∀ fpr ∈ owed w.past, ∃ cached ∈ w.feed.cached, fpr ∈ cached.revoked := by
  constructor
  · intro sticky fpr member
    exact reports_iff.mp (sticky fpr member 0)
  · intro held fpr member now
    exact reports_iff.mpr (held fpr member)

variable (response : Except RevocationError String) (now : Nat)

/-- A refresh either keeps the cache and the history or puts one document into both. -/
theorem refresh_cases (w : Watched) : (w.feed.accepts from_str response = none ∧ (w.refresh from_str response now).past = w.past
      ∧ (w.refresh from_str response now).feed.cached = w.feed.cached) ∨ ∃ doc, w.feed.accepts from_str response = some doc
      ∧ (w.refresh from_str response now).past = .accepted doc :: w.past ∧ (w.refresh from_str response now).feed.cached
        = some { revoked := doc.revoked_fprs.toFinset, sequence := doc.sequence, fetched_at := now } := by
  cases accepted : w.feed.accepts from_str response with
  | none =>
    refine .inl ⟨rfl, ?_, (refresh_refuses accepted).1⟩
    simp [Watched.refresh, accepted]
  | some doc =>
    refine .inr ⟨doc, rfl, ?_, ?_⟩
    · simp [Watched.refresh, accepted]
    · simp [Watched.refresh, refresh_accepts accepted]

theorem Tracked.refresh (tracked : Tracked w) : Tracked (w.refresh from_str response now) := by
  rcases refresh_cases response now w with ⟨-, past, cached⟩ | ⟨doc, -, past, cached⟩
  · exact ⟨by rw [past, cached, tracked.levels], by rw [past, cached]; exact tracked.covered⟩
  · refine ⟨by rw [past, cached]; rfl, ?_⟩
    rw [past, cached]
    rintro _ ⟨⟩
    rw [owed]
    split_ifs
    · exact Finset.Subset.refl _
    · exact Finset.subset_union_left

theorem Tracked.step (tracked : Tracked w) (op : FeedOp) : Tracked (w.step from_str op) := by
  cases op with
  | refresh response now => exact tracked.refresh response now
  | snapshot_refreshing response now =>
    rw [Watched.step]
    split_ifs
    · exact tracked.refresh response now
    · exact tracked
  | apply_push revoked_fprs =>
    obtain ⟨levels, covered⟩ := tracked
    rw [Watched.step, apply_push]
    cases given : w.feed.cached with
    | none =>
      rw [given] at levels
      exact ⟨by rw [given]; exact levels, by simp [given]⟩
    | some cached =>
      rw [given] at levels
      refine ⟨levels, ?_⟩
      rintro _ ⟨⟩
      exact Finset.union_subset_union_left (covered cached given)

/-- From a sticky state a refresh leads to a sticky one exactly when it is safe. -/
theorem refresh_sticky_iff (tracked : Tracked w) (sticky : Sticky w) :
    SafeRefresh from_str w response ↔ Sticky (w.refresh from_str response now) := by
  rcases refresh_cases response now w with ⟨refused, past, cached⟩ | ⟨doc, accepted, past, cached⟩
  · constructor
    · intro _
      rw [sticky_iff, past, cached]
      exact sticky_iff.mp sticky
    · intro _ doc accepted
      rw [refused] at accepted
      cases accepted
  · have newer := (accepts_iff.mp accepted).2.2.2
    rw [sticky_iff, past, cached]
    simp only [Option.mem_def, Option.some.injEq, exists_eq_left']
    constructor
    · intro safe fpr member
      rw [owed] at member
      split_ifs at member with greater
      · exact member
      · rcases Finset.mem_union.mp member with listed | earlier
        · exact listed
        · -- the cache has the document's sequence number, so the document lists all of it
          obtain ⟨old, held, inside⟩ := sticky_iff.mp sticky fpr earlier
          rw [tracked.levels, held] at greater
          have bound := newer old held
          have same : doc.sequence = old.sequence := by
            simp at greater
            omega
          exact safe doc accepted old held same inside
    · intro kept doc' accepted' old held same fpr inside
      rw [accepted] at accepted'
      obtain rfl := Option.some.inj accepted'
      refine kept fpr ?_
      rw [owed, tracked.levels, held]
      simp only [Option.map_some, Option.any_some, decide_eq_true_eq, same, Nat.lt_irrefl, if_false]
      exact Finset.mem_union_right _ (tracked.covered old held inside)

theorem push_sticky_iff (sticky : Sticky w) (revoked_fprs : List String) :
    (revoked_fprs = [] ∨ w.feed.cached.isSome) ↔ Sticky (w.step from_str (.apply_push revoked_fprs)) := by
  rw [sticky_iff, Watched.step, apply_push, owed]
  rw [sticky_iff] at sticky
  cases given : w.feed.cached with
  | none =>
    rw [given] at sticky
    simp only [Option.isSome_none, Bool.false_eq_true, or_false]
    constructor
    · rintro rfl fpr member
      simp at member
      exact absurd (sticky fpr member) (by simp)
    · intro kept
      cases revoked_fprs with
      | nil => rfl
      | cons fpr rest =>
        have held := kept fpr (Finset.mem_union_right _ (by simp))
        rw [given] at held
        simp at held
  | some cached =>
    rw [given] at sticky
    simp only [Option.isSome_some, or_true, true_iff]
    intro fpr member
    refine ⟨_, rfl, ?_⟩
    rcases Finset.mem_union.mp member with earlier | pushed
    · obtain ⟨_, ⟨⟩, inside⟩ := sticky fpr earlier
      exact Finset.mem_union_left _ inside
    · exact Finset.mem_union_right _ pushed

theorem step_sticky_iff (tracked : Tracked w) (sticky : Sticky w) (op : FeedOp) :
    SafeStep from_str w op ↔ Sticky (w.step from_str op) := by
  cases op with
  | refresh response now => exact refresh_sticky_iff response now tracked sticky
  | snapshot_refreshing response now =>
    rw [SafeStep, Watched.step]
    split_ifs with stale
    · rw [← refresh_sticky_iff response now tracked sticky]
      simp at stale
      simp [stale]
    · simp at stale
      simp [stale, sticky]
  | apply_push revoked_fprs => exact push_sticky_iff sticky revoked_fprs

theorem run_sticky_iff (tracked : Tracked w) (sticky : Sticky w) (ops : List FeedOp) :
    AllSafe from_str w ops ↔ AllSticky from_str w ops := by
  induction ops generalizing w with
  | nil => simp [AllSafe, AllSticky, sticky]
  | cons op rest ih =>
    rw [AllSafe, AllSticky]
    constructor
    · rintro ⟨safe, later⟩
      have next := (step_sticky_iff tracked sticky op).mp safe
      exact ⟨sticky, (ih (tracked.step op) next).mp later⟩
    · rintro ⟨-, later⟩
      have next : Sticky (w.step from_str op) := by
        cases rest with
        | nil => exact later
        | cons _ _ => exact later.1
      exact ⟨(step_sticky_iff tracked sticky op).mpr next, (ih (tracked.step op) next).mpr later⟩

theorem refresh_sequence :
    ∀ cached ∈ w.feed.cached, ∃ after ∈ (w.refresh from_str response now).feed.cached, cached.sequence ≤ after.sequence := by
  intro cached held
  rcases refresh_cases response now w with ⟨-, -, same⟩ | ⟨doc, accepted, -, replaced⟩
  · exact ⟨cached, same ▸ held, le_rfl⟩
  · exact ⟨_, replaced, (accepts_iff.mp accepted).2.2.2 cached held⟩

theorem step_sequence (op : FeedOp) :
    ∀ cached ∈ w.feed.cached, ∃ after ∈ (w.step from_str op).feed.cached, cached.sequence ≤ after.sequence := by
  intro cached held
  cases op with
  | refresh response now => exact refresh_sequence response now cached held
  | snapshot_refreshing response now =>
    rw [Watched.step]
    split_ifs
    · exact refresh_sequence response now cached held
    · exact ⟨cached, held, le_rfl⟩
  | apply_push revoked_fprs =>
    rw [Watched.step, apply_push, Option.mem_def.mp held]
    exact ⟨_, rfl, le_rfl⟩

theorem run_sequence (ops : List FeedOp) :
    ∀ cached ∈ w.feed.cached, ∃ after ∈ (w.run from_str ops).feed.cached, cached.sequence ≤ after.sequence := by
  induction ops generalizing w with
  | nil => exact fun cached held => ⟨cached, held, le_rfl⟩
  | cons op rest ih =>
    intro cached held
    obtain ⟨next, heldNext, first⟩ := step_sequence op cached held
    obtain ⟨last, heldLast, second⟩ := ih next heldNext
    exact ⟨last, heldLast, first.trans second⟩

/-- The sequence number a snapshot names. -/
def RevocationSnapshot.sequence : RevocationSnapshot → Option Nat
  | .Fresh _ sequence => some sequence
  | .Stale _ sequence _ => some sequence
  | .Unavailable _ => none

theorem snapshot_sequence (feed : RevocationFeed) (now : Nat) :
    (feed.snapshot now).sequence = feed.cached.map CachedCrl.sequence := by
  unfold snapshot
  cases feed.cached with
  | none => rfl
  | some cached =>
    simp
    split_ifs <;> rfl

def FeedOp.time : FeedOp → Option Nat
  | .refresh _ now => some now
  | .snapshot_refreshing _ now => some now
  | .apply_push _ => none

/-- The document in the cache was fetched by a step of the run. -/
def FetchedIn (times : List Nat) (w : Watched) : Prop := ∀ cached ∈ w.feed.cached, cached.fetched_at ∈ times

theorem FetchedIn.refresh (fetched : FetchedIn times w) :
    FetchedIn (times ++ [now]) (w.refresh from_str response now) := by
  intro cached held
  rcases refresh_cases response now w with ⟨-, -, same⟩ | ⟨doc, -, -, replaced⟩
  · exact List.mem_append_left _ (fetched cached (same ▸ held))
  · rw [replaced] at held
    obtain rfl := Option.some.inj held
    simp

theorem FetchedIn.step {times : List Nat} (fetched : FetchedIn times w) (op : FeedOp) :
    FetchedIn (times ++ op.time.toList) (w.step from_str op) := by
  cases op with
  | refresh response now => exact fetched.refresh response now
  | snapshot_refreshing response now =>
    rw [Watched.step]
    split_ifs
    · exact fetched.refresh response now
    · exact fun cached held => List.mem_append_left _ (fetched cached held)
  | apply_push revoked_fprs =>
    rw [Watched.step, apply_push]
    intro cached held
    cases given : w.feed.cached with
    | none =>
      rw [given] at held
      simp [given] at held
    | some old =>
      rw [given] at held
      obtain rfl := Option.some.inj held
      simpa [FeedOp.time] using fetched old given

theorem FetchedIn.run {times : List Nat} (fetched : FetchedIn times w) (ops : List FeedOp) :
    FetchedIn (times ++ ops.filterMap FeedOp.time) (w.run from_str ops) := by
  induction ops generalizing w times with
  | nil =>
    rw [List.filterMap_nil, List.append_nil]
    exact fetched
  | cons op rest ih =>
    have next : FetchedIn (times ++ op.time.toList) (w.step from_str op) := fetched.step op
    have split : (op :: rest).filterMap FeedOp.time = op.time.toList ++ rest.filterMap FeedOp.time := by
      cases named : op.time <;> simp [named]
    rw [split, ← List.append_assoc]
    exact ih next

theorem refresh_freshness :
    (w.refresh from_str response now).feed.freshness_secs = w.feed.freshness_secs := by
  cases accepted : w.feed.accepts from_str response with
  | none => exact (refresh_refuses accepted).2.1
  | some doc => rw [Watched.refresh, refresh_accepts accepted]

theorem run_freshness (ops : List FeedOp) : (w.run from_str ops).feed.freshness_secs = w.feed.freshness_secs := by
  induction ops generalizing w with
  | nil => rfl
  | cons op rest ih =>
    have step : (w.step from_str op).feed.freshness_secs = w.feed.freshness_secs := by
      cases op with
      | refresh response now => exact refresh_freshness response now
      | snapshot_refreshing response now =>
        rw [Watched.step]
        split_ifs
        · exact refresh_freshness response now
        · rfl
      | apply_push revoked_fprs =>
        rw [Watched.step, apply_push]
        cases w.feed.cached <;> rfl
    exact ih.trans step

end

/-- What is authorised was authorised on the document in the cache, within the freshness window. -/
theorem authorize_fresh {feed : RevocationFeed} {now : Nat} {R : Type} {verify : (String → Bool) → R} {r : R}
    (granted : authorize_when_known (feed.snapshot now) verify = .ok r) :
    ∃ cached ∈ feed.cached, now - cached.fetched_at ≤ feed.freshness_secs ∧ r = verify fun fpr => fpr ∈ cached.revoked := by
  unfold snapshot at granted
  cases given : feed.cached with
  | none =>
    rw [given] at granted
    cases granted
  | some cached =>
    rw [given] at granted
    simp only at granted
    split_ifs at granted with fresh
    · exact ⟨cached, rfl, fresh, (Except.ok.inj granted).symm⟩
    · cases granted

/-- A feed that nothing has been fetched for. -/
def Watched.new (crl_url : Option String) (freshness_secs : Nat) : Watched :=
  { feed := RevocationFeed.new crl_url freshness_secs, past := [] }

/-- In every run of a new feed, every owed passport is reported as revoked in every state exactly when every
step is safe; the sequence number of a snapshot never decreases; and a session is authorised only on a document
that was fetched within the freshness window. -/
theorem revocations_sticky_iff (from_str : String → Except String CrlDocument) (crl_url : Option String)
    (freshness_secs : Nat) (ops : List FeedOp) (now : Nat)
    (ordered : (ops.filterMap FeedOp.time ++ [now]).Pairwise (· ≤ ·)) :
    (AllSticky from_str (.new crl_url freshness_secs) ops ↔ AllSafe from_str (.new crl_url freshness_secs) ops)
    ∧ (∀ front back t t' sequence, ops = front ++ back →
        (((Watched.new crl_url freshness_secs).run from_str front).feed.snapshot t).sequence = some sequence →
        ∃ later, (((Watched.new crl_url freshness_secs).run from_str ops).feed.snapshot t').sequence = some later
          ∧ sequence ≤ later)
    ∧ ∀ (R : Type) (verify : (String → Bool) → R) (r : R),
        authorize_when_known (((Watched.new crl_url freshness_secs).run from_str ops).feed.snapshot now) verify = .ok r →
        ∃ cached ∈ ((Watched.new crl_url freshness_secs).run from_str ops).feed.cached,
          cached.fetched_at ≤ now ∧ now ≤ cached.fetched_at + freshness_secs
          ∧ r = verify fun fpr => fpr ∈ cached.revoked := by
  have tracked : Tracked (.new crl_url freshness_secs) := ⟨rfl, by rintro cached ⟨⟩⟩
  have sticky : Sticky (.new crl_url freshness_secs) := by
    intro fpr member
    cases member
  refine ⟨(run_sticky_iff tracked sticky ops).symm, ?_, ?_⟩
  · rintro front back t t' sequence rfl named
    rw [snapshot_sequence] at named
    obtain ⟨cached, held, rfl⟩ := Option.map_eq_some_iff.mp named
    obtain ⟨after, heldAfter, grows⟩ := run_sequence back cached held
    refine ⟨after.sequence, ?_, grows⟩
    rw [snapshot_sequence, Watched.run, List.foldl_append]
    exact Option.map_eq_some_iff.mpr ⟨after, heldAfter, rfl⟩
  · intro R verify r granted
    obtain ⟨cached, held, fresh, same⟩ := authorize_fresh granted
    have begun : FetchedIn [] (.new crl_url freshness_secs) := by
      rintro cached ⟨⟩
    have fetched := (begun.run ops) cached held
    have before : cached.fetched_at ≤ now := (List.pairwise_append.mp ordered).2.2 _ (by simpa using fetched) now (by simp)
    rw [run_freshness] at fresh
    change now - cached.fetched_at ≤ freshness_secs at fresh
    exact ⟨cached, held, before, by omega, same⟩

/-- A reader for two bodies. -/
def sampleReader (body : String) : Except String CrlDocument :=
  if body = "one" then .ok ⟨CRL_SCHEMA_V1, 1, ["p_a"]⟩
  else if body = "two" then .ok ⟨CRL_SCHEMA_V1, 2, ["p_b"]⟩
  else .error "expected value"

def sampleOps : List FeedOp :=
  [.refresh (.ok "one") 1000, .apply_push ["p_b"], .snapshot_refreshing (.ok "two") 1400, .refresh (.error (.Transport "down")) 1500]

/-- A pushed passport stays revoked when the next document lists it. -/
theorem sampleOps_sticky :
    AllSticky sampleReader (.new (some "https://crl.example/crl.json") 300) sampleOps
      ∧ ∃ cached ∈ ((Watched.new (some "https://crl.example/crl.json") 300).run sampleReader sampleOps).feed.cached,
          cached.fetched_at ≤ 1600 ∧ 1600 ≤ cached.fetched_at + 300 := by
  have results := revocations_sticky_iff sampleReader (some "https://crl.example/crl.json") 300 sampleOps 1600 (by decide)
  refine ⟨results.1.mpr ⟨?_, ?_, ?_, ?_, trivial⟩, ?_⟩
  · rintro doc - cached ⟨⟩
  · exact .inr rfl
  · rintro - doc accepted cached held same
    obtain rfl : _ = doc := Option.some.inj accepted
    obtain rfl : _ = cached := Option.some.inj held
    exact absurd same (by decide)
  · rintro doc accepted
    cases accepted
  · obtain ⟨cached, held, before, fresh, -⟩ := results.2.2 Bool (fun check => check "p_b") true rfl
    exact ⟨cached, held, before, fresh⟩

/-- A pushed revocation is dropped when the current document is fetched again, and a push before the first
document is dropped at once. -/
theorem pushed_revocation_dropped :
    let again := (Watched.new (some "https://crl.example/crl.json") 300).run sampleReader
      [.refresh (.ok "one") 1000, .apply_push ["p_b"], .snapshot_refreshing (.ok "one") 1301]
    let early := (Watched.new (some "https://crl.example/crl.json") 300).run sampleReader
      [.apply_push ["p_b"], .refresh (.ok "one") 1000]
    ("p_b" ∈ owed again.past ∧ again.feed.snapshot 1301 = .Fresh {"p_a"} 1)
      ∧ "p_b" ∈ owed early.past ∧ early.feed.snapshot 1000 = .Fresh {"p_a"} 1 := by
  decide +kernel

end Crux.Crl
