import EmailScheduler.RateLimit.SenderRateLimiter

/-!
# Runs of limiter calls

The limiter as a transition system: calls of `reserve` and `seed` in any order, and the Redis clock
moving forward. The state keeps the calls made so far with the decisions they returned, most recent
first; the properties of the limiter are properties of this history.
-/

set_option autoImplicit false

namespace EmailScheduler

open Foundation

/-- A call of the limiter, or the Redis clock reaching a later time. -/
inductive LimiterCall where
  | reserve (policy : SenderPolicy) (emailId : Uuid) (now : Int)
  | seed (policy : SenderPolicy) (acceptedCount : Nat) (lastAcceptedAt : Option Int) (now : Int)
  | tick (clock : Int)
deriving DecidableEq, Repr

/-- A completed call. -/
inductive LimiterEvent where
  | reserved (policy : SenderPolicy) (emailId : Uuid) (now : Int) (decision : RateLimitDecision)
  | seeded (policy : SenderPolicy) (acceptedCount : Nat) (lastAcceptedAt : Option Int) (now : Int)
deriving DecidableEq, Repr

/-- Redis, its clock, and the calls completed so far, most recent first. -/
structure Limiter where
  redis : LimiterStore
  clock : Int
  history : List LimiterEvent

namespace Limiter

/-- A call of `reserve` with the time `now` read by its caller. -/
def reserve (config : AppConfig) (policy : SenderPolicy) (emailId : Uuid) (now : Int)
    (s : Limiter) : RateLimitDecision × Limiter :=
  let result := EmailScheduler.reserve config policy emailId now s.clock s.redis
  (result.1, { s with
    redis := result.2
    history := .reserved policy emailId now result.1 :: s.history })

/-- A call of `seed`. -/
def seed (config : AppConfig) (policy : SenderPolicy) (acceptedCount : Nat)
    (lastAcceptedAt : Option Int) (now : Int) (s : Limiter) : Limiter :=
  { s with
    redis := EmailScheduler.seed config policy acceptedCount lastAcceptedAt now s.clock s.redis
    history := .seeded policy acceptedCount lastAcceptedAt now :: s.history }

/-- One call, or a move of the clock forward. -/
def step (config : AppConfig) : LimiterCall → Limiter → Option Limiter
  | .reserve policy emailId now, s => some (s.reserve config policy emailId now).2
  | .seed policy acceptedCount lastAcceptedAt now, s =>
      some (s.seed config policy acceptedCount lastAcceptedAt now)
  | .tick clock, s => if s.clock ≤ clock then some { s with clock := clock } else none

/-- Runs start with no limiter keys, at any time. -/
def system (config : AppConfig) : TransitionSystem Limiter LimiterCall where
  init s := s.redis = ExpiringStore.empty ∧ s.history = []
  step := step config

/-- The state without keys, at the epoch. -/
def emptyLimiter : Limiter := ⟨ExpiringStore.empty, 0, []⟩

section Fields

variable (config : AppConfig) (policy : SenderPolicy) (emailId : Uuid) (now : Int) (s : Limiter)

@[simp] theorem reserve_fst : (s.reserve config policy emailId now).1 =
    (EmailScheduler.reserve config policy emailId now s.clock s.redis).1 := rfl

@[simp] theorem reserve_redis : (s.reserve config policy emailId now).2.redis =
    (EmailScheduler.reserve config policy emailId now s.clock s.redis).2 := rfl

@[simp] theorem reserve_clock : (s.reserve config policy emailId now).2.clock = s.clock := rfl

@[simp] theorem reserve_history : (s.reserve config policy emailId now).2.history =
    .reserved policy emailId now
      (EmailScheduler.reserve config policy emailId now s.clock s.redis).1 :: s.history := rfl

end Fields

/-- Every caller's `now` is the time of the Redis clock. -/
def Synchronous (s : Limiter) : LimiterCall → Prop
  | .reserve _ _ now => now = s.clock
  | .seed _ _ _ now => now = s.clock
  | .tick _ => True

instance (s : Limiter) (c : LimiterCall) : Decidable (Synchronous s c) := by
  cases c <;> unfold Synchronous <;> infer_instance

end Limiter

/-! ## Reading the history -/

/-- An admission: the email, the caller's time, the delay it was admitted with, and whether it used
an existing reservation. -/
structure Admission where
  emailId : Uuid
  now : Int
  minimumDelayMs : Int
  existingReservation : Bool
deriving DecidableEq, Repr

/-- The admission recorded by an event of `senderId`. -/
def LimiterEvent.admission? (senderId : Uuid) : LimiterEvent → Option Admission
  | .reserved policy emailId now decision =>
      if policy.senderId = senderId ∧ decision.admitted = true then
        some ⟨emailId, now, policy.minimumDelayMs, decision.existingReservation⟩
      else none
  | .seeded _ _ _ _ => none

/-- The admissions of a sender, most recent first. -/
def admissions (senderId : Uuid) (history : List LimiterEvent) : List Admission :=
  history.filterMap (LimiterEvent.admission? senderId)

/-- The admissions of a sender in the window that starts at `start`. -/
def admissionsIn (senderId : Uuid) (start : Int) (history : List LimiterEvent) : List Admission :=
  (admissions senderId history).filter fun a => hourStart a.now = start

/-- The emails that were given a new reservation in a window, most recent first. -/
def newReservations (senderId : Uuid) (start : Int) (history : List LimiterEvent) : List Uuid :=
  ((admissionsIn senderId start history).filter fun a => !a.existingReservation).map
    Admission.emailId

@[simp] theorem admissions_cons_seeded (senderId : Uuid) (policy : SenderPolicy) (n : Nat)
    (last : Option Int) (now : Int) (history : List LimiterEvent) :
    admissions senderId (.seeded policy n last now :: history) = admissions senderId history := rfl

@[simp] theorem newReservations_cons_seeded (senderId : Uuid) (start : Int)
    (policy : SenderPolicy) (n : Nat) (last : Option Int) (now : Int)
    (history : List LimiterEvent) :
    newReservations senderId start (.seeded policy n last now :: history) =
      newReservations senderId start history := rfl

theorem admissions_cons_denied (senderId : Uuid) (policy : SenderPolicy) (emailId : Uuid)
    (now : Int) {d : RateLimitDecision} (h : d.admitted = false) (history : List LimiterEvent) :
    admissions senderId (.reserved policy emailId now d :: history) =
      admissions senderId history := by
  simp [admissions, LimiterEvent.admission?, h]

theorem admissions_cons_admitted (policy : SenderPolicy) (emailId : Uuid) (now : Int)
    {d : RateLimitDecision} (h : d.admitted = true) (history : List LimiterEvent) :
    admissions policy.senderId (.reserved policy emailId now d :: history) =
      ⟨emailId, now, policy.minimumDelayMs, d.existingReservation⟩ ::
        admissions policy.senderId history := by
  simp [admissions, LimiterEvent.admission?, h]

theorem mem_admissions_cons_admitted (policy : SenderPolicy) (emailId : Uuid) (now : Int)
    {d : RateLimitDecision} (h : d.admitted = true) (history : List LimiterEvent) :
    ⟨emailId, now, policy.minimumDelayMs, d.existingReservation⟩ ∈
      admissions policy.senderId (.reserved policy emailId now d :: history) := by
  rw [admissions_cons_admitted policy emailId now h]
  exact List.mem_cons_self

theorem admissions_cons_of_ne {senderId : Uuid} {policy : SenderPolicy}
    (h : policy.senderId ≠ senderId) (emailId : Uuid) (now : Int) (d : RateLimitDecision)
    (history : List LimiterEvent) :
    admissions senderId (.reserved policy emailId now d :: history) =
      admissions senderId history := by
  simp [admissions, LimiterEvent.admission?, h]

/-- A later event forgets no admission. -/
theorem mem_admissions_cons {senderId : Uuid} (event : LimiterEvent) {history : List LimiterEvent}
    {a : Admission} (h : a ∈ admissions senderId history) :
    a ∈ admissions senderId (event :: history) := by
  rw [admissions, List.filterMap_cons]
  split
  · exact h
  · exact List.mem_cons_of_mem _ h

/-- An event adds a new reservation only if it is an admission of the sender, in the window,
without a reservation. -/
theorem newReservations_cons_reserved (senderId : Uuid) (start : Int) (policy : SenderPolicy)
    (emailId : Uuid) (now : Int) (d : RateLimitDecision) (history : List LimiterEvent) :
    newReservations senderId start (.reserved policy emailId now d :: history) =
      if policy.senderId = senderId ∧ d.admitted = true ∧ hourStart now = start ∧
          d.existingReservation = false then
        emailId :: newReservations senderId start history
      else newReservations senderId start history := by
  by_cases hs : policy.senderId = senderId
  · by_cases ha : d.admitted = true
    · by_cases hw : hourStart now = start
      · by_cases he : d.existingReservation = true
        · simp [newReservations, admissionsIn, admissions, LimiterEvent.admission?, hs, ha, hw, he]
        · simp [newReservations, admissionsIn, admissions, LimiterEvent.admission?, hs, ha, hw, he]
      · simp [newReservations, admissionsIn, admissions, LimiterEvent.admission?, hs, ha, hw]
    · simp [newReservations, admissionsIn, admissions, LimiterEvent.admission?, hs, ha]
  · simp [newReservations, admissionsIn, admissions, LimiterEvent.admission?, hs]

theorem mem_newReservations {senderId : Uuid} {start : Int} {history : List LimiterEvent}
    {emailId : Uuid} :
    emailId ∈ newReservations senderId start history ↔
      ∃ a ∈ admissions senderId history,
        hourStart a.now = start ∧ a.existingReservation = false ∧ a.emailId = emailId := by
  simp only [newReservations, admissionsIn, List.mem_map, List.mem_filter, decide_eq_true_eq,
    Bool.not_eq_true']
  constructor
  · rintro ⟨a, ⟨⟨ha, hw⟩, he⟩, rfl⟩
    exact ⟨a, ha, hw, he, rfl⟩
  · rintro ⟨a, ha, hw, he, rfl⟩
    exact ⟨a, ⟨⟨ha, hw⟩, he⟩, rfl⟩

end EmailScheduler
