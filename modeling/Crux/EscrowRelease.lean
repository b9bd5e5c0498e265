import Crux.Bytes

/-!
# Release of the custodian share

The requests of `crux-escrow`: a request is opened, waits out a fixed delay and
is cancelled or completed, each step an event of the customer's timeline. The
timeline of every run replays to the live request; which timelines replay
without being those of a run is said at the end.
-/

namespace Crux.Escrow
open Crux.Bytes List

/-- Nanoseconds since the epoch. -/
abbrev DateTime := Int
abbrev Uuid := Nat

/-- Seventy-two hours. -/
def RELEASE_DELAY : Int := 72 * 3600 * 1000000000

inductive ReleaseError where
  | NotAccountHolder
  | AlreadyPending
  | TooSoon (available_at : DateTime)
  | NotPending
  | UnknownDevice
  | Unreplayable (reason : String)
deriving DecidableEq

inductive ReleaseState where
  | Pending
  | Cancelled (by_ : String) (at_ : DateTime)
  | Released (at_ : DateTime)
deriving DecidableEq

inductive ReleaseEventKind where
  | Requested (available_at : DateTime) (devices : List String)
  | Notified (device : String)
  | Cancelled
  | Released
deriving DecidableEq

structure ReleaseEvent where
  request_id : Uuid
  vault_id : String
  actor : String
  at_ : DateTime
  kind : ReleaseEventKind
deriving DecidableEq

structure ReleaseRequest where
  id : Uuid
  vault_id : String
  account_holder : String
  requested_at : DateTime
  available_at : DateTime
  notified_devices : List String
  state : ReleaseState
deriving DecidableEq

abbrev Result (α : Type) := Except ReleaseError α

/-- The text of an error; a time is shown as the clock library shows it. -/
def ReleaseError.message (showTime : DateTime → String) : ReleaseError → String
  | .NotAccountHolder => "only the account holder may request release of the custodian share"
  | .AlreadyPending => "a release is already pending for this vault"
  | .TooSoon available_at => "release is not available until " ++ showTime available_at
  | .NotPending => "this release is no longer pending"
  | .UnknownDevice => "device is not registered against this release"
  | .Unreplayable reason => "release events could not be replayed: " ++ reason

def ReleaseRequest.event (r : ReleaseRequest) (actor : String) (at_ : DateTime) (kind : ReleaseEventKind) : ReleaseEvent :=
  { request_id := r.id, vault_id := r.vault_id, actor, at_, kind }

/-- The request as `open` makes it, with the fresh id it draws. -/
def ReleaseRequest.opened (id : Uuid) (vault_id account_holder : String) (registered_devices : List String)
    (now : DateTime) : ReleaseRequest :=
  { id, vault_id, account_holder, requested_at := now, available_at := now + RELEASE_DELAY
    notified_devices := registered_devices, state := .Pending }

/-- The source's `open`. -/
def ReleaseRequest.openRequest (id : Uuid) (previous : Option ReleaseRequest)
    (vault_id account_holder requested_by : String) (registered_devices : List String) (now : DateTime) :
    Result (ReleaseRequest × List ReleaseEvent) := do
  ensure (requested_by = account_holder) .NotAccountHolder
  ensure (previous.all (fun p => decide (p.state ≠ .Pending)) = true) .AlreadyPending
  let request := opened id vault_id account_holder registered_devices now
  return (request, request.event requested_by now (.Requested request.available_at registered_devices) ::
    registered_devices.map fun device => request.event device now (.Notified device))

def ReleaseRequest.cancel (r : ReleaseRequest) (device : String) (now : DateTime) : Result (ReleaseRequest × ReleaseEvent) := do
  ensure (r.state = .Pending) .NotPending
  ensure (device ∈ r.notified_devices) .UnknownDevice
  return ({ r with state := .Cancelled device now }, r.event device now .Cancelled)

def ReleaseRequest.complete (r : ReleaseRequest) (now : DateTime) : Result (ReleaseRequest × ReleaseEvent) := do
  ensure (r.state = .Pending) .NotPending
  ensure (¬ now < r.available_at) (.TooSoon r.available_at)
  return ({ r with state := .Released now }, r.event r.account_holder now .Released)

variable (showTime : DateTime → String)

def replay_failed (e : ReleaseError) : ReleaseError := .Unreplayable (e.message showTime)

/-- One event after the first. -/
def ReleaseRequest.replayEvent (r : ReleaseRequest) (event : ReleaseEvent) : Result ReleaseRequest := do
  ensure (event.request_id = r.id) (.Unreplayable "stream mixes request ids")
  match event.kind with
  | .Notified _ => return r
  | .Requested _ _ => throw (.Unreplayable "two requests in one stream")
  | .Cancelled => ((r.cancel event.actor event.at_).mapError (replay_failed showTime)).map Prod.fst
  | .Released => ((r.complete event.at_).mapError (replay_failed showTime)).map Prod.fst

def ReleaseRequest.replayEvents : ReleaseRequest → List ReleaseEvent → Result ReleaseRequest
  | r, [] => .ok r
  | r, event :: rest => do
    let r ← r.replayEvent showTime event
    r.replayEvents rest

def ReleaseRequest.replay : List ReleaseEvent → Result ReleaseRequest
  | [] => .error (.Unreplayable "empty event stream")
  | first :: rest =>
    match first.kind with
    | .Requested available_at devices =>
      replayEvents showTime
        { id := first.request_id, vault_id := first.vault_id, account_holder := first.actor, requested_at := first.at_
          available_at, notified_devices := devices, state := .Pending } rest
    | _ => .error (.Unreplayable "stream does not open with a request")

/-- A call on an open request, with its caller and the clock. -/
inductive Call where
  | cancel (device : String) (now : DateTime)
  | complete (now : DateTime)
deriving DecidableEq

/-- A live request with the events written so far. -/
structure Timeline where
  request : ReleaseRequest
  events : List ReleaseEvent
deriving DecidableEq

/-- A call that is refused changes nothing and writes nothing. -/
def Timeline.call (t : Timeline) (c : Call) : Timeline :=
  let result := match c with
    | .cancel device now => t.request.cancel device now
    | .complete now => t.request.complete now
  match result with
  | .ok (request, event) => { request, events := t.events ++ [event] }
  | .error _ => t

def Timeline.run (t : Timeline) (calls : List Call) : Timeline := calls.foldl Timeline.call t

/-- The timelines of the runs: a request that was opened, and any calls on it. -/
def Reached (t : Timeline) : Prop :=
  ∃ id previous vault_id account_holder requested_by devices now request events calls,
    ReleaseRequest.openRequest id previous vault_id account_holder requested_by devices now = .ok (request, events) ∧
      t = Timeline.run { request, events } calls

variable {devices : List String} {now : DateTime} {events : List ReleaseEvent}

variable {r r' : ReleaseRequest} {e : ReleaseEvent}

theorem cancel_ok_iff : r.cancel device now = .ok (r', e) ↔ (r.state = .Pending ∧ device ∈ r.notified_devices) ∧
        r' = { r with state := .Cancelled device now } ∧ e = r.event device now .Cancelled := by
  unfold ReleaseRequest.cancel
  rw [ensure_bind_ok, ensure_bind_ok]
  simp [pure, Except.pure, and_assoc, eq_comm]

theorem complete_ok_iff : r.complete now = .ok (r', e) ↔ (r.state = .Pending ∧ ¬ now < r.available_at) ∧
        r' = { r with state := .Released now } ∧ e = r.event r.account_holder now .Released := by
  unfold ReleaseRequest.complete
  rw [ensure_bind_ok, ensure_bind_ok]
  simp [pure, Except.pure, and_assoc, eq_comm]

/-- What a call does: nothing, or one step from a pending request that its event tells. -/
theorem call_cases (t : Timeline) (c : Call) : t.call c = t ∨
      (∃ device now, device ∈ t.request.notified_devices ∧ t.request.state = .Pending ∧
        t.call c = { request := { t.request with state := .Cancelled device now }
                     events := t.events ++ [t.request.event device now .Cancelled] }) ∨
      (∃ now, ¬ now < t.request.available_at ∧ t.request.state = .Pending ∧
        t.call c = { request := { t.request with state := .Released now }
                     events := t.events ++ [t.request.event t.request.account_holder now .Released] }) := by
  cases c with
  | cancel device now =>
    simp only [Timeline.call]
    cases h : t.request.cancel device now with
    | error e => exact .inl rfl
    | ok out =>
      obtain ⟨⟨pending, listed⟩, same, told⟩ := cancel_ok_iff.mp h
      exact .inr (.inl ⟨device, now, listed, pending, by simp [same, told]⟩)
  | complete now =>
    simp only [Timeline.call]
    cases h : t.request.complete now with
    | error e => exact .inl rfl
    | ok out =>
      obtain ⟨⟨pending, late⟩, same, told⟩ := complete_ok_iff.mp h
      exact .inr (.inr ⟨now, late, pending, by simp [same, told]⟩)

theorem replayEvent_ok_iff : r.replayEvent showTime e = .ok r' ↔ e.request_id = r.id ∧
      ((∃ device, e.kind = .Notified device ∧ r' = r) ∨
        (e.kind = .Cancelled ∧ (r.state = .Pending ∧ e.actor ∈ r.notified_devices) ∧
          r' = { r with state := .Cancelled e.actor e.at_ }) ∨
        (e.kind = .Released ∧ (r.state = .Pending ∧ ¬ e.at_ < r.available_at) ∧
          r' = { r with state := .Released e.at_ })) := by
  unfold ReleaseRequest.replayEvent
  rw [ensure_bind_ok]
  apply and_congr_right
  intro _
  cases kind : e.kind with
  | Notified device => simp [pure, Except.pure, eq_comm]
  | Requested available_at devices => simp
  | Cancelled =>
    cases h : r.cancel e.actor e.at_ with
    | error err =>
      have refused : ¬ (r.state = .Pending ∧ e.actor ∈ r.notified_devices) := fun ok => by
        rw [cancel_ok_iff.mpr ⟨ok, rfl, rfl⟩] at h
        cases h
      simp [Except.mapError, Except.map, refused]
    | ok out =>
      obtain ⟨ok, same, _⟩ := cancel_ok_iff.mp h
      simp [Except.mapError, Except.map, ok, same, eq_comm]
  | Released =>
    cases h : r.complete e.at_ with
    | error err =>
      have refused : ¬ (r.state = .Pending ∧ ¬ e.at_ < r.available_at) := fun ok => by
        rw [complete_ok_iff.mpr ⟨ok, rfl, rfl⟩] at h
        cases h
      simp only [Except.mapError, Except.map, refused]
      simp
    | ok out =>
      obtain ⟨ok, same, _⟩ := complete_ok_iff.mp h
      simp only [Except.mapError, Except.map, ok, same]
      simp [eq_comm]

theorem replayEvents_append (r : ReleaseRequest) (events more : List ReleaseEvent) :
    r.replayEvents showTime (events ++ more) = r.replayEvents showTime events >>= fun r => r.replayEvents showTime more := by
  induction events generalizing r with
  | nil => rfl
  | cons e rest ih =>
    rw [cons_append, ReleaseRequest.replayEvents, ReleaseRequest.replayEvents]
    cases r.replayEvent showTime e with
    | error _ => rfl
    | ok r' => exact ih r'

variable {first : ReleaseEvent}

theorem replay_append : ReleaseRequest.replay showTime (first :: rest ++ more) =
      ReleaseRequest.replay showTime (first :: rest) >>= fun r => r.replayEvents showTime more := by
  rw [cons_append, ReleaseRequest.replay, ReleaseRequest.replay]
  cases first.kind with
  | Requested available_at devices => exact replayEvents_append showTime _ rest more
  | _ => rfl

theorem replayEvents_notices (r : ReleaseRequest) (devices : List String) (now : DateTime) :
    r.replayEvents showTime (devices.map fun device => r.event device now (.Notified device)) = .ok r := by
  induction devices with
  | nil => rfl
  | cons d rest ih =>
    have skip : r.replayEvent showTime (r.event d now (.Notified d)) = .ok r :=
      (replayEvent_ok_iff showTime).mpr ⟨rfl, .inl ⟨d, rfl, rfl⟩⟩
    rw [map_cons, ReleaseRequest.replayEvents, skip, ok_bind, ih]

/-- An event that settles the request opened by the first one, told by who may settle it. -/
def SettlesAs (first e : ReleaseEvent) : Prop :=
  e.vault_id = first.vault_id ∧ (e.kind = .Cancelled ∨ (e.kind = .Released ∧ e.actor = first.actor))

instance (first e : ReleaseEvent) : Decidable (SettlesAs first e) := by unfold SettlesAs; infer_instance

/-- The notices of a request: each listed device in turn, at the time of the request. -/
def noticesOf (first : ReleaseEvent) (devices : List String) : List ReleaseEvent :=
  devices.map fun device => { first with actor := device, kind := .Notified device }

/-- The request carries its delay, its notices follow at once, and then only events that settle it. -/
def WellTold : List ReleaseEvent → Prop
  | [] => False
  | first :: rest =>
    match first.kind with
    | .Requested available_at devices =>
      available_at = first.at_ + RELEASE_DELAY ∧ rest.take devices.length = noticesOf first devices ∧
        ∀ e ∈ rest.drop devices.length, SettlesAs first e
    | _ => False

/-- A run's timeline: the opening events, then settling events, and the request they stand for. -/
structure Told (t : Timeline) (first : ReleaseEvent) (devices : List String) (settled : List ReleaseEvent) : Prop where
  opening : first.kind = .Requested (first.at_ + RELEASE_DELAY) devices
  events : t.events = first :: (noticesOf first devices ++ settled)
  settles : ∀ e ∈ settled, SettlesAs first e
  id : t.request.id = first.request_id
  vault : t.request.vault_id = first.vault_id
  holder : t.request.account_holder = first.actor
  replays : ReleaseRequest.replay showTime t.events = .ok t.request

theorem told_opened {id : Uuid}
    (h : ReleaseRequest.openRequest id previous vault_id account_holder requested_by devices now = .ok (request, events)) :
    ∃ first, Told showTime { request, events } first devices [] := by
  unfold ReleaseRequest.openRequest at h
  rw [ensure_bind_ok, ensure_bind_ok] at h
  obtain ⟨rfl, _, h⟩ := h
  cases h
  refine ⟨_, rfl, by rw [append_nil]; rfl, by simp, rfl, rfl, rfl, ?_⟩
  exact replayEvents_notices showTime (.opened id vault_id _ devices now) devices now

theorem replayEvent_keeps (h : r.replayEvent showTime e = .ok r') :
    r'.id = r.id ∧ r'.vault_id = r.vault_id ∧ r'.account_holder = r.account_holder := by
  rcases ((replayEvent_ok_iff showTime).mp h).2 with ⟨_, _, rfl⟩ | ⟨_, _, rfl⟩ | ⟨_, _, rfl⟩ <;> exact ⟨rfl, rfl, rfl⟩

variable {t : Timeline} {settled : List ReleaseEvent}

theorem Told.snoc (h : Told showTime t first devices settled) (settles : SettlesAs first e)
    (step : t.request.replayEvent showTime e = .ok r) :
    Told showTime { request := r, events := t.events ++ [e] } first devices (settled ++ [e]) where
  opening := h.opening
  events := by rw [h.events]; simp
  settles := by
    intro e' he'
    rw [mem_append, mem_singleton] at he'
    rcases he' with old | rfl
    · exact h.settles e' old
    · exact settles
  id := (replayEvent_keeps showTime step).1.trans h.id
  vault := (replayEvent_keeps showTime step).2.1.trans h.vault
  holder := (replayEvent_keeps showTime step).2.2.trans h.holder
  replays := by
    have replayed := h.replays
    rw [h.events] at replayed ⊢
    rw [replay_append, replayed, ok_bind, ReleaseRequest.replayEvents, step]
    rfl

theorem Told.call
    (h : Told showTime t first devices settled) (c : Call) : ∃ settled', Told showTime (t.call c) first devices settled' := by
  rcases call_cases t c with same | ⟨device, now, listed, pending, same⟩ | ⟨now, late, pending, same⟩
  · exact ⟨settled, by rw [same]; exact h⟩
  · rw [same]
    refine ⟨_, h.snoc showTime ⟨h.vault, .inl rfl⟩ ?_⟩
    exact (replayEvent_ok_iff showTime).mpr ⟨rfl, .inr (.inl ⟨rfl, ⟨pending, listed⟩, rfl⟩)⟩
  · rw [same]
    refine ⟨_, h.snoc showTime ⟨h.vault, .inr ⟨rfl, h.holder⟩⟩ ?_⟩
    exact (replayEvent_ok_iff showTime).mpr ⟨rfl, .inr (.inr ⟨rfl, ⟨pending, late⟩, rfl⟩)⟩

theorem told_of_reached (h : Reached t) : ∃ first devices settled, Told showTime t first devices settled := by
  obtain ⟨id, previous, vault_id, account_holder, requested_by, devices, now, request, events, calls, opened, rfl⟩ := h
  obtain ⟨first, told⟩ := told_opened showTime opened
  refine ⟨first, devices, ?_⟩
  have some_settled : ∃ settled, Told showTime { request, events } first devices settled := ⟨[], told⟩
  clear told opened
  generalize ({ request, events } : Timeline) = t at *
  induction calls generalizing t with
  | nil => exact some_settled
  | cons c calls ih =>
    obtain ⟨settled, told⟩ := some_settled
    exact ih (t.call c) (told.call showTime c)

/-- The call that wrote a settling event. -/
def callOf (e : ReleaseEvent) : Call :=
  match e.kind with
  | .Cancelled => .cancel e.actor e.at_
  | _ => .complete e.at_

theorem run_callOf (h : Told showTime t first devices settled) (settles : ∀ e ∈ more, SettlesAs first e)
    (replayed : t.request.replayEvents showTime more = .ok r) : (t.run (more.map callOf)).events = t.events ++ more := by
  induction more generalizing t settled with
  | nil => simp [Timeline.run]
  | cons e more ih =>
    obtain ⟨⟨vault, way⟩, later⟩ := forall_mem_cons.mp settles
    rw [ReleaseRequest.replayEvents, bind_ok_iff] at replayed
    obtain ⟨r', step, replayed⟩ := replayed
    obtain ⟨id, accepted⟩ := (replayEvent_ok_iff showTime).mp step
    have written : t.call (callOf e) = { request := r', events := t.events ++ [e] } := by
      rcases way with kind | ⟨kind, actor⟩
      · have told : t.request.event e.actor e.at_ .Cancelled = e := by
          rw [ReleaseRequest.event, ← id, h.vault, ← vault, ← kind]
        simp [kind] at accepted
        have done : t.request.cancel e.actor e.at_ = .ok (r', e) := cancel_ok_iff.mpr ⟨accepted.1, accepted.2, told.symm⟩
        simp only [Timeline.call, callOf, kind, done]
      · have told : t.request.event t.request.account_holder e.at_ .Released = e := by
          rw [ReleaseRequest.event, ← id, h.vault, ← vault, h.holder, ← actor, ← kind]
        simp only [kind, reduceCtorEq, false_and, exists_false, false_or, true_and] at accepted
        have done : t.request.complete e.at_ = .ok (r', e) := complete_ok_iff.mpr ⟨accepted.1, accepted.2, told.symm⟩
        simp only [Timeline.call, callOf, kind, done]
    have told := h.snoc showTime ⟨vault, way⟩ step
    rw [map_cons]
    change ((t.call (callOf e)).run (more.map callOf)).events = _
    rw [written, ih told later replayed, append_assoc]
    rfl

theorem wellTold_iff : WellTold events ↔ ∃ first devices settled, events = first :: (noticesOf first devices ++ settled) ∧
      first.kind = .Requested (first.at_ + RELEASE_DELAY) devices ∧ ∀ e ∈ settled, SettlesAs first e := by
  constructor
  · intro told
    cases events with
    | nil => cases told
    | cons first rest =>
      rw [WellTold] at told
      cases kind : first.kind with
      | Requested available_at devices =>
        rw [kind] at told
        obtain ⟨rfl, notices, settles⟩ := told
        exact ⟨first, devices, rest.drop devices.length, by rw [← notices, take_append_drop], kind, settles⟩
      | _ => rw [kind] at told; cases told
  · rintro ⟨first, devices, settled, rfl, kind, settles⟩
    have count : (noticesOf first devices).length = devices.length := by simp [noticesOf]
    rw [WellTold, kind]
    refine ⟨rfl, ?_, ?_⟩
    · rw [← count, take_left]
    · rw [← count, drop_left]
      exact settles

theorem reached_of_wellTold (replayed : ReleaseRequest.replay showTime events = .ok r) (told : WellTold events) :
    ∃ t, Reached t ∧ t.events = events := by
  obtain ⟨first, devices, settled, rfl, kind, settles⟩ := wellTold_iff.mp told
  let request := ReleaseRequest.opened first.request_id first.vault_id first.actor devices first.at_
  have opened : ReleaseRequest.openRequest first.request_id none first.vault_id first.actor first.actor devices first.at_ =
      .ok (request, first :: noticesOf first devices) := by
    have head : request.event first.actor first.at_ (.Requested request.available_at devices) = first := by
      rw [show request.available_at = first.at_ + RELEASE_DELAY from rfl, ← kind]
      rfl
    simp only [ReleaseRequest.openRequest, ensure_true, Option.all_none, ok_bind]
    rw [head]
    rfl
  obtain ⟨first', opening⟩ := told_opened showTime opened
  obtain ⟨rfl, _⟩ := cons_eq_cons.mp opening.events
  rw [← cons_append, replay_append, opening.replays, ok_bind] at replayed
  refine ⟨_, ⟨_, _, _, _, _, _, _, _, _, settled.map callOf, opened, rfl⟩, ?_⟩
  exact run_callOf showTime opening settles replayed

/-- After a settled request come only notices. -/
theorem replayEvents_settled (settled : r.state ≠ .Pending)
    (replayed : r.replayEvents showTime events = .ok r') : r' = r ∧ ∀ e ∈ events, ∃ device, e.kind = .Notified device := by
  induction events with
  | nil =>
    cases replayed
    exact ⟨rfl, by simp⟩
  | cons e rest ih =>
    rw [ReleaseRequest.replayEvents, bind_ok_iff] at replayed
    obtain ⟨mid, step, replayed⟩ := replayed
    rcases ((replayEvent_ok_iff showTime).mp step).2 with ⟨device, kind, rfl⟩ | ⟨_, ⟨pending, _⟩, _⟩ | ⟨_, ⟨pending, _⟩, _⟩
    · obtain ⟨same, notices⟩ := ih replayed
      exact ⟨same, forall_mem_cons.mpr ⟨⟨device, kind⟩, notices⟩⟩
    · exact absurd pending settled
    · exact absurd pending settled

theorem replayEvents_released (pending : r.state = .Pending) (replayed : r.replayEvents showTime events = .ok r')
    (released : r'.state = .Released at_) :
    r.available_at ≤ at_ ∧ ∀ e ∈ events, e.kind ≠ .Cancelled := by
  induction events with
  | nil =>
    cases replayed
    rw [pending] at released
    cases released
  | cons e rest ih =>
    rw [ReleaseRequest.replayEvents, bind_ok_iff] at replayed
    obtain ⟨mid, step, replayed⟩ := replayed
    rcases ((replayEvent_ok_iff showTime).mp step).2 with ⟨device, kind, rfl⟩ | ⟨_, _, rfl⟩ | ⟨kind, ⟨_, late⟩, rfl⟩
    · obtain ⟨after, kept⟩ := ih replayed
      exact ⟨after, forall_mem_cons.mpr ⟨by simp [kind], kept⟩⟩
    · obtain ⟨rfl, _⟩ := replayEvents_settled showTime (by simp) replayed
      cases released
    · obtain ⟨rfl, notices⟩ := replayEvents_settled showTime (by simp) replayed
      cases released
      refine ⟨not_lt.mp late, forall_mem_cons.mpr ⟨by simp [kind], ?_⟩⟩
      intro e' he'
      obtain ⟨device, notice⟩ := notices e' he'
      simp [notice]

theorem replayEvents_keeps (replayed : r.replayEvents showTime events = .ok r') :
    r'.requested_at = r.requested_at ∧ r'.notified_devices = r.notified_devices := by
  induction events generalizing r with
  | nil =>
    cases replayed
    exact ⟨rfl, rfl⟩
  | cons e rest ih =>
    rw [ReleaseRequest.replayEvents, bind_ok_iff] at replayed
    obtain ⟨mid, step, replayed⟩ := replayed
    obtain ⟨requested, devices⟩ := ih replayed
    rcases ((replayEvent_ok_iff showTime).mp step).2 with ⟨_, _, rfl⟩ | ⟨_, _, rfl⟩ | ⟨_, _, rfl⟩ <;>
      exact ⟨requested, devices⟩

/-- The timeline of every run replays to the live request. A timeline that replays is that of a run exactly when it
carries its delay, its notices and nothing else than events that settle it; then a released share was released after
the delay, never cancelled, and every listed device was told. -/
theorem release_timeline :
    (∀ t, Reached t → ReleaseRequest.replay showTime t.events = .ok t.request) ∧
      (∀ events r, ReleaseRequest.replay showTime events = .ok r →
        ((∃ t, Reached t ∧ t.events = events) ↔ WellTold events)) ∧
      ∀ events r at_, ReleaseRequest.replay showTime events = .ok r → WellTold events → r.state = .Released at_ →
        r.requested_at + RELEASE_DELAY ≤ at_ ∧ (∀ e ∈ events, e.kind ≠ .Cancelled) ∧
          ∀ device ∈ r.notified_devices, ∃ e ∈ events, e.kind = .Notified device := by
  refine ⟨?_, ?_, ?_⟩
  · intro t reached
    obtain ⟨_, _, _, told⟩ := told_of_reached showTime reached
    exact told.replays
  · intro events r replayed
    constructor
    · rintro ⟨t, reached, rfl⟩
      obtain ⟨first, devices, settled, told⟩ := told_of_reached showTime reached
      exact wellTold_iff.mpr ⟨first, devices, settled, told.events, told.opening, told.settles⟩
    · exact reached_of_wellTold showTime replayed
  · intro events r at_ replayed told released
    obtain ⟨first, devices, settled, rfl, kind, _⟩ := wellTold_iff.mp told
    rw [ReleaseRequest.replay, kind] at replayed
    obtain ⟨after, kept⟩ := replayEvents_released showTime rfl replayed released
    obtain ⟨requested, same⟩ := replayEvents_keeps showTime replayed
    refine ⟨?_, forall_mem_cons.mpr ⟨by simp [kind], kept⟩, ?_⟩
    · rw [requested]
      exact after
    · intro device listed
      rw [same] at listed
      refine ⟨{ first with actor := device, kind := .Notified device }, ?_, rfl⟩
      exact mem_cons_of_mem _ (mem_append_left _ (mem_map.mpr ⟨device, listed, rfl⟩))

/-- A request that carries no delay, of which no device was told and whose share was handed over at once. -/
def hurriedEvents : List ReleaseEvent :=
  [{ request_id := 1, vault_id := "vault", actor := "passport:owner", at_ := 0, kind := .Requested 0 ["device:phone"] },
   { request_id := 1, vault_id := "vault", actor := "passport:owner", at_ := 0, kind := .Released }]

/-- It replays to a released share, and no run writes it. -/
theorem replay_accepts_hurried :
    (∃ r, ReleaseRequest.replay toString hurriedEvents = .ok r ∧ r.state = .Released 0 ∧
        r.available_at = r.requested_at ∧ r.notified_devices = ["device:phone"]) ∧
      ¬ ∃ t, Reached t ∧ t.events = hurriedEvents := by
  refine ⟨⟨_, rfl, rfl, rfl, rfl⟩, ?_⟩
  rintro ⟨t, reached, same⟩
  obtain ⟨first, devices, settled, told⟩ := told_of_reached toString reached
  have opening := told.opening
  obtain ⟨rfl, _⟩ := cons_eq_cons.mp (same.symm.trans told.events)
  simp [RELEASE_DELAY] at opening

end Crux.Escrow
