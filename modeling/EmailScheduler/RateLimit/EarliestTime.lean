import EmailScheduler.RateLimit.History

/-!
# A denial names the earliest time

A denied call of `reserve` returns `t`, the time at which its caller is to come back. Until `t` the
same email is denied whatever other calls do (`WaitsUntil`, kept by every step), and if nobody of
the sender is admitted meanwhile the call at `t` is admitted (`FreeAt`, kept by every step that
admits nobody). The first needs that `next` never decreases, the second that a sender has no counter
for an hour that its calls have not reached (`counted_by_call`).
-/

set_option autoImplicit false

namespace EmailScheduler

open Foundation

/-- The sender a key belongs to. -/
def RateKey.senderId : RateKey → Uuid
  | .hour senderId _ => senderId
  | .next senderId => senderId
  | .reservation senderId _ => senderId

/-- The time of an event, if it is of `senderId`. -/
def LimiterEvent.time? (senderId : Uuid) : LimiterEvent → Option Int
  | .reserved policy _ now _ => if policy.senderId = senderId then some now else none
  | .seeded policy _ _ now => if policy.senderId = senderId then some now else none

/-- The times of the calls made for a sender, most recent first. -/
def callTimes (senderId : Uuid) (history : List LimiterEvent) : List Int :=
  history.filterMap (LimiterEvent.time? senderId)

namespace Limiter

/-- `now` is no earlier than any call made for the sender so far. -/
def InOrder (senderId : Uuid) (now : Int) (s : Limiter) : Prop :=
  ∀ earlier ∈ callTimes senderId s.history, earlier ≤ now

instance (senderId : Uuid) (now : Int) (s : Limiter) : Decidable (InOrder senderId now s) :=
  inferInstanceAs (Decidable (∀ earlier ∈ callTimes senderId s.history, earlier ≤ now))

/-- The times of the calls made for a sender never go back. -/
def ClockForward (senderId : Uuid) (s : Limiter) : LimiterCall → Prop
  | .reserve policy _ now => policy.senderId = senderId → InOrder senderId now s
  | .seed policy _ _ now => policy.senderId = senderId → InOrder senderId now s
  | .tick _ => True

/-- Steps that leave a sender alone but for calls of `reserve` with its policy: the clock of these
calls never goes back, the sender is not seeded, and none of its keys expires. -/
def Undisturbed (policy : SenderPolicy) (s : Limiter) : LimiterCall → Prop
  | .reserve p _ now => p.senderId = policy.senderId → p = policy ∧ InOrder policy.senderId now s
  | .seed p _ _ _ => p.senderId ≠ policy.senderId
  | .tick clock => ∀ key, key.senderId = policy.senderId →
      s.redis.get clock key = s.redis.get s.clock key

/-- The call admits an email of the sender. -/
def Admits (config : AppConfig) (senderId : Uuid) (s : Limiter) : LimiterCall → Prop
  | .reserve p emailId now =>
      p.senderId = senderId ∧ (s.reserve config p emailId now).1.admitted = true
  | .seed _ _ _ _ => False
  | .tick _ => False

variable {config : AppConfig} {policy : SenderPolicy} {emailId : Uuid} {now : Int} {s : Limiter}

/-! ## The keys of other senders -/

theorem reserve_otherSender (p : SenderPolicy) {clock : Int} {redis : LimiterStore} {key : RateKey}
    (h : key.senderId ≠ p.senderId) :
    (EmailScheduler.reserve config p emailId now clock redis).2 key = redis key := by
  apply reserve_frame
  · rintro rfl
    exact h rfl
  · rintro rfl
    exact h rfl
  · rintro rfl
    exact h rfl

theorem seed_otherSender (p : SenderPolicy) (acceptedCount : Nat) (lastAcceptedAt : Option Int)
    {clock : Int} {redis : LimiterStore} {key : RateKey} (h : key.senderId ≠ p.senderId) :
    EmailScheduler.seed config p acceptedCount lastAcceptedAt now clock redis key = redis key := by
  apply seed_frame
  · rintro rfl
    exact h rfl
  · rintro rfl
    exact h rfl

/-! ## What a denial says -/

/-- The reasons for a denial: the email has no reservation and the counter of the hour has reached
the limit, or `next` lies ahead. The time returned is the later of `next` and the end of the hour,
or `next`. -/
theorem reserve_denied
    (h : (s.reserve config policy emailId now).1.admitted = false) :
    (s.redis.get s.clock (.reservation policy.senderId emailId) = none ∧
        policy.hourlyLimit ≤ reading s.redis s.clock (.hour policy.senderId (hourStart now)) ∧
        (s.reserve config policy emailId now).1.nextAvailableAt =
          max (reading s.redis s.clock (.next policy.senderId)) (hourEnd now)) ∨
      (((∃ v, s.redis.get s.clock (.reservation policy.senderId emailId) = some v) ∨
          reading s.redis s.clock (.hour policy.senderId (hourStart now)) < policy.hourlyLimit) ∧
        now < reading s.redis s.clock (.next policy.senderId) ∧
        (s.reserve config policy emailId now).1.nextAvailableAt =
          reading s.redis s.clock (.next policy.senderId)) := by
  rw [reserve_fst] at h ⊢
  have hhas := ExpiringStore.has_eq_isSome_get s.redis s.clock
    (.reservation policy.senderId emailId)
  cases hres : s.redis.get s.clock (.reservation policy.senderId emailId) with
  | none =>
      rw [hres, Option.isSome_none] at hhas
      by_cases hfull : policy.hourlyLimit ≤
          reading s.redis s.clock (.hour policy.senderId (hourStart now))
      · left
        refine ⟨rfl, hfull, ?_⟩
        by_cases hlater : hourEnd now < reading s.redis s.clock (.next policy.senderId)
        · rw [Int.max_eq_left (Int.le_of_lt hlater)]
          simp [EmailScheduler.reserve, reserveScript, rateKeys, hhas, hfull, hlater]
        · rw [Int.max_eq_right (Int.not_lt.1 hlater)]
          simp [EmailScheduler.reserve, reserveScript, rateKeys, hhas, hfull, hlater]
      · right
        by_cases hnext : now < reading s.redis s.clock (.next policy.senderId)
        · refine ⟨Or.inr (by omega), hnext, ?_⟩
          simp [EmailScheduler.reserve, reserveScript, rateKeys, hhas, hfull, hnext]
        · rw [reserve_admitted (by omega) (by omega)] at h
          cases h
  | some v =>
      -- The reservation stands for the counter, so only `next` can deny the call.
      rw [hres, Option.isSome_some] at hhas
      right
      by_cases hnext : now < reading s.redis s.clock (.next policy.senderId)
      · refine ⟨Or.inl ⟨v, rfl⟩, hnext, ?_⟩
        simp [EmailScheduler.reserve, reserveScript, rateKeys, hhas, hnext]
      · simp [EmailScheduler.reserve, reserveScript, rateKeys, hhas, hnext] at h

/-! ## Denied until then -/

/-- Until `t` the email is denied at every time from `now` on: `next` is at `t` or later, or the
hour of `now` is full, the email has no reservation, and `t` comes no later than `next` and the end
of that hour. -/
def WaitsUntil (policy : SenderPolicy) (emailId : Uuid) (now t : Int) (s : Limiter) : Prop :=
  t ≤ reading s.redis s.clock (.next policy.senderId) ∨
    (s.redis.get s.clock (.reservation policy.senderId emailId) = none ∧
      policy.hourlyLimit ≤ reading s.redis s.clock (.hour policy.senderId (hourStart now)) ∧
      t ≤ max (reading s.redis s.clock (.next policy.senderId)) (hourEnd now))

theorem waitsUntil_of_denied (h : (s.reserve config policy emailId now).1.admitted = false) :
    WaitsUntil policy emailId now (s.reserve config policy emailId now).1.nextAvailableAt s := by
  rcases reserve_denied h with ⟨hres, hfull, ht⟩ | ⟨-, -, ht⟩
  · exact Or.inr ⟨hres, hfull, Int.le_of_eq ht⟩
  · exact Or.inl (Int.le_of_eq ht)

/-- What the sender's keys read decides the wait. -/
theorem WaitsUntil.congr {t : Int} {s' : Limiter} (h : WaitsUntil policy emailId now t s)
    (hkeys : ∀ key, key.senderId = policy.senderId →
      s'.redis.get s'.clock key = s.redis.get s.clock key) :
    WaitsUntil policy emailId now t s' := by
  unfold WaitsUntil reading
  rw [hkeys _ rfl, hkeys _ rfl, hkeys _ rfl]
  exact h

/-- Two times of which the second is not before the first, in an hour that ends after both. -/
theorem hourStart_eq_of_lt {now later : Int} (hle : now ≤ later) (hlt : later < hourEnd now) :
    hourStart later = hourStart now := by
  unfold hourEnd hourStart oneHourMilliseconds at *
  omega

theorem WaitsUntil.denied {t later : Int} (h : WaitsUntil policy emailId now t s)
    (hle : now ≤ later) (hlt : later < t) :
    (s.reserve config policy emailId later).1.admitted = false := by
  rcases reserve_cases config policy emailId later s.clock s.redis with
    ⟨hdenied, -⟩ | ⟨hnext, -, hroom, -⟩ | ⟨hnext, ⟨v, hres⟩, -⟩
  · exact hdenied
  · rcases h with h | ⟨-, hfull, ht⟩
    · omega
    · rw [hourStart_eq_of_lt hle (by omega)] at hroom
      omega
  · rcases h with h | ⟨hnone, -, -⟩
    · omega
    · rw [hnone] at hres
      cases hres

/-- An admission stores the caller's time plus the delay, and that is there to be read at once. -/
theorem reading_next_of_admitted
    (h : (s.reserve config policy emailId now).1.admitted = true) :
    reading (s.reserve config policy emailId now).2.redis s.clock (.next policy.senderId) =
      now + policy.minimumDelayMs := by
  have hhour := config.oneHour_le_reservationTtl
  unfold oneHourMilliseconds at hhour
  have hentry : (s.reserve config policy emailId now).2.redis (.next policy.senderId) =
      some ⟨now + policy.minimumDelayMs, some (s.clock + config.rateLimitReservationTtlMs)⟩ := by
    rw [reserve_redis]
    rcases reserve_cases config policy emailId now s.clock s.redis with
      ⟨hdenied, -⟩ | ⟨-, -, -, -, hredis⟩ | ⟨-, -, -, hredis⟩
    · rw [reserve_fst, hdenied] at h
      cases h
    · rw [hredis]
      exact grantReservation_next config policy emailId now s.clock s.redis
    · rw [hredis]
      exact ExpiringStore.setPx_self _ _ _ _ _
  rw [reading, ExpiringStore.get_of_entry hentry, if_pos (by omega), Option.getD_some]

/-- A call with the sender's policy, no earlier than the denied one, keeps the wait. Its email may
be the denied one: that call is itself denied before `t`. -/
theorem waitsUntil_reserve (hdelay : 0 ≤ policy.minimumDelayMs) {t later : Int}
    (h : WaitsUntil policy emailId now t s) (other : Uuid) (hle : now ≤ later) :
    WaitsUntil policy emailId now t (s.reserve config policy other later).2 := by
  by_cases hadmit : (s.reserve config policy other later).1.admitted = true
  · have hnext := reading_next_of_admitted hadmit
    by_cases hlt : later < t
    · -- Admitted before `t`: another email, past the full counter through its reservation.
      have hother : other ≠ emailId := by
        rintro rfl
        rw [h.denied hle hlt] at hadmit
        cases hadmit
      rcases reserve_cases config policy other later s.clock s.redis with
        ⟨hdenied, -⟩ | ⟨hpassed, -, hroom, -⟩ | ⟨hpassed, -, -, hredis⟩
      · rw [reserve_fst, hdenied] at hadmit
        cases hadmit
      · rcases h with h | ⟨-, hfull, ht⟩
        · omega
        · rw [hourStart_eq_of_lt hle (by omega)] at hroom
          omega
      · rcases h with h | ⟨hnone, hfull, ht⟩
        · omega
        · have hsame : ∀ key, key ≠ .next policy.senderId →
              (s.reserve config policy other later).2.redis key = s.redis key := by
            intro key hne
            rw [reserve_redis, hredis, ExpiringStore.setPx_of_ne _ hne]
          refine Or.inr ⟨?_, ?_, ?_⟩
          · rw [ExpiringStore.get_congr (hsame _ (by simp))]
            exact hnone
          · rw [reading, ExpiringStore.get_congr (hsame _ (by simp))]
            exact hfull
          · -- `t` is at most the end of the hour, since `next` had passed.
            omega
    · left
      rw [reserve_clock, hnext]
      omega
  · have hredis : (s.reserve config policy other later).2.redis = s.redis := by
      rcases reserve_cases config policy other later s.clock s.redis with
        ⟨-, hredis⟩ | ⟨-, -, -, hd, -⟩ | ⟨-, -, hd, -⟩
      · exact hredis
      · rw [reserve_fst, hd] at hadmit
        exact absurd rfl hadmit
      · rw [reserve_fst, hd] at hadmit
        exact absurd rfl hadmit
    exact h.congr fun key _ => by rw [hredis, reserve_clock]

/-- An undisturbed step keeps the wait. -/
theorem waitsUntil_step (hdelay : 0 ≤ policy.minimumDelayMs) {t : Int} {call : LimiterCall}
    {s' : Limiter} (hcall : Undisturbed policy s call)
    (hstep : (system config).step call s = some s')
    (hnow : now ∈ callTimes policy.senderId s.history) (h : WaitsUntil policy emailId now t s) :
    WaitsUntil policy emailId now t s' := by
  cases call with
  | reserve p other later =>
      cases hstep
      by_cases hsender : p.senderId = policy.senderId
      · obtain ⟨rfl, horder⟩ := hcall hsender
        exact waitsUntil_reserve hdelay h other (horder now hnow)
      · refine h.congr fun key hkey => ExpiringStore.get_congr ?_ s.clock
        exact reserve_otherSender p (by rw [hkey]; exact Ne.symm hsender)
  | seed p acceptedCount lastAcceptedAt later =>
      cases hstep
      refine h.congr fun key hkey => ExpiringStore.get_congr ?_ s.clock
      exact seed_otherSender p acceptedCount lastAcceptedAt (by rw [hkey]; exact Ne.symm hcall)
  | tick clock =>
      simp only [system, step] at hstep
      split at hstep
      next =>
        cases hstep
        exact h.congr hcall
      next => cases hstep

/-- Calls are not forgotten. -/
theorem mem_callTimes_step {senderId : Uuid} {call : LimiterCall} {s' : Limiter}
    (hstep : (system config).step call s = some s') (h : now ∈ callTimes senderId s.history) :
    now ∈ callTimes senderId s'.history := by
  have hcons : ∀ event, now ∈ callTimes senderId (event :: s.history) := by
    intro event
    rw [callTimes, List.filterMap_cons]
    split
    · exact h
    · exact List.mem_cons_of_mem _ h
  cases call with
  | reserve p other later =>
      cases hstep
      exact hcons _
  | seed p acceptedCount lastAcceptedAt later =>
      cases hstep
      exact hcons _
  | tick clock =>
      simp only [system, step] at hstep
      split at hstep
      next =>
        cases hstep
        exact h
      next => cases hstep

/-! ## Admitted then -/

/-- At `t` the email is admitted: `next` is at most `t`, and the email has a reservation or the
counter of the hour of `t` is below the limit. -/
def FreeAt (policy : SenderPolicy) (emailId : Uuid) (t : Int) (s : Limiter) : Prop :=
  reading s.redis s.clock (.next policy.senderId) ≤ t ∧
    ((∃ v, s.redis.get s.clock (.reservation policy.senderId emailId) = some v) ∨
      reading s.redis s.clock (.hour policy.senderId (hourStart t)) < policy.hourlyLimit)

theorem FreeAt.congr {t : Int} {s' : Limiter} (h : FreeAt policy emailId t s)
    (hkeys : ∀ key, key.senderId = policy.senderId →
      s'.redis.get s'.clock key = s.redis.get s.clock key) :
    FreeAt policy emailId t s' := by
  unfold FreeAt reading
  rw [hkeys _ rfl, hkeys _ rfl, hkeys _ rfl]
  exact h

theorem FreeAt.admitted {t : Int} (h : FreeAt policy emailId t s) :
    (s.reserve config policy emailId t).1.admitted = true := by
  obtain ⟨hnext, hroom⟩ := h
  cases hadmit : (s.reserve config policy emailId t).1.admitted with
  | true => rfl
  | false =>
      rcases reserve_denied hadmit with ⟨hnone, hfull, -⟩ | ⟨-, hlater, -⟩
      · rcases hroom with ⟨v, hres⟩ | hroom
        · rw [hnone] at hres
          cases hres
        · omega
      · omega

/-- A step that admits nobody of the sender keeps what its keys read. -/
theorem freeAt_step {t : Int} {call : LimiterCall} {s' : Limiter}
    (hcall : Undisturbed policy s call) (hidle : ¬ Admits config policy.senderId s call)
    (hstep : (system config).step call s = some s') (h : FreeAt policy emailId t s) :
    FreeAt policy emailId t s' := by
  cases call with
  | reserve p other later =>
      cases hstep
      by_cases hsender : p.senderId = policy.senderId
      · have hredis : (s.reserve config p other later).2.redis = s.redis := by
          rcases reserve_cases config p other later s.clock s.redis with
            ⟨-, hredis⟩ | ⟨-, -, -, hd, -⟩ | ⟨-, -, hd, -⟩
          · exact hredis
          · exact absurd ⟨hsender, by rw [reserve_fst, hd]⟩ hidle
          · exact absurd ⟨hsender, by rw [reserve_fst, hd]⟩ hidle
        exact h.congr fun key _ => by rw [hredis, reserve_clock]
      · refine h.congr fun key hkey => ExpiringStore.get_congr ?_ s.clock
        exact reserve_otherSender p (by rw [hkey]; exact Ne.symm hsender)
  | seed p acceptedCount lastAcceptedAt later =>
      cases hstep
      refine h.congr fun key hkey => ExpiringStore.get_congr ?_ s.clock
      exact seed_otherSender p acceptedCount lastAcceptedAt (by rw [hkey]; exact Ne.symm hcall)
  | tick clock =>
      simp only [system, step] at hstep
      split at hstep
      next =>
        cases hstep
        exact h.congr hcall
      next => cases hstep

/-! ## Counters of hours to come -/

/-- Every counter kept for a sender is of an hour in which a call was made for it. -/
def CountedByCall (senderId : Uuid) (s : Limiter) : Prop :=
  ∀ start e, s.redis (.hour senderId start) = some e →
    ∃ earlier ∈ callTimes senderId s.history, hourStart earlier = start

/-- A call that writes at most the counter of its own hour keeps the property. -/
theorem CountedByCall.of_call {senderId callSender : Uuid} {redis : LimiterStore}
    {event : LimiterEvent} (h : CountedByCall senderId s)
    (htime : event.time? senderId = if callSender = senderId then some now else none)
    (hframe : ∀ start, RateKey.hour senderId start ≠ .hour callSender (hourStart now) →
      redis (.hour senderId start) = s.redis (.hour senderId start)) :
    CountedByCall senderId { s with redis := redis, history := event :: s.history } := by
  intro start e he
  rw [callTimes, List.filterMap_cons, htime]
  by_cases hkey : RateKey.hour senderId start = .hour callSender (hourStart now)
  · injection hkey with hsender hstart
    rw [if_pos hsender.symm]
    exact ⟨now, List.mem_cons_self, hstart.symm⟩
  · obtain ⟨earlier, hmem, hstart⟩ := h start e ((hframe start hkey).symm.trans he)
    refine ⟨earlier, ?_, hstart⟩
    split
    next => exact hmem
    next => exact List.mem_cons_of_mem _ hmem

theorem countedByCall_of_reachable {P : Limiter → LimiterCall → Prop}
    (h : (system config).Reachable P s) (senderId : Uuid) : CountedByCall senderId s := by
  refine h.invariant (I := CountedByCall senderId) ?_ ?_
  · intro s hs start e he
    rw [hs.1] at he
    cases he
  · intro s call s' _ hstep hinv
    cases call with
    | reserve p other later =>
        cases hstep
        exact hinv.of_call rfl fun start hne => reserve_frame hne (by simp) (by simp)
    | seed p acceptedCount lastAcceptedAt later =>
        cases hstep
        exact hinv.of_call rfl fun start hne =>
          seed_frame config p acceptedCount lastAcceptedAt later s.clock s.redis hne (by simp)
    | tick clock =>
        simp only [system, step] at hstep
        split at hstep
        next =>
          cases hstep
          exact hinv
        next => cases hstep

/-- An hour after the latest call has no counter. -/
theorem reading_hour_of_later (h : CountedByCall policy.senderId s)
    (hnow : InOrder policy.senderId now s) {start : Int} (hlater : hourStart now < start) :
    reading s.redis s.clock (.hour policy.senderId start) = 0 := by
  cases hget : s.redis.get s.clock (.hour policy.senderId start) with
  | none => rw [reading, hget, Option.getD_none]
  | some v =>
      obtain ⟨e, he, -⟩ := ExpiringStore.entry_of_get hget
      obtain ⟨earlier, hmem, rfl⟩ := h start e he
      have hle := hnow earlier hmem
      unfold hourStart oneHourMilliseconds at hlater
      omega

/-- After a denial the email is free at the time returned: either the hour is a later one, without a
counter, or it is the hour of the call, which had room. -/
theorem freeAt_of_denied (hlimit : 1 ≤ policy.hourlyLimit)
    (hcounted : CountedByCall policy.senderId s) (hnow : InOrder policy.senderId now s)
    (h : (s.reserve config policy emailId now).1.admitted = false) :
    FreeAt policy emailId (s.reserve config policy emailId now).1.nextAvailableAt s := by
  rcases reserve_denied h with ⟨-, -, ht⟩ | ⟨hroom, hlater, ht⟩
  · rw [ht]
    have hhour : hourStart now <
        hourStart (max (reading s.redis s.clock (.next policy.senderId)) (hourEnd now)) := by
      unfold hourEnd hourStart oneHourMilliseconds
      omega
    refine ⟨Int.le_max_left _ _, Or.inr ?_⟩
    rw [reading_hour_of_later hcounted hnow hhour]
    omega
  · rw [ht]
    refine ⟨Int.le_refl _, ?_⟩
    rcases hroom with hres | hroom
    · exact Or.inl hres
    · right
      by_cases hsame :
          hourStart (reading s.redis s.clock (.next policy.senderId)) = hourStart now
      · rw [hsame]
        exact hroom
      · have hhour : hourStart now <
            hourStart (reading s.redis s.clock (.next policy.senderId)) := by
          unfold hourStart oneHourMilliseconds at *
          omega
        rw [reading_hour_of_later hcounted hnow hhour]
        omega

/-- A denied call changes no key and is the latest call of its sender. -/
theorem reserve_of_denied (h : (s.reserve config policy emailId now).1.admitted = false) :
    (s.reserve config policy emailId now).2.redis = s.redis ∧
      now ∈ callTimes policy.senderId (s.reserve config policy emailId now).2.history := by
  constructor
  · rcases reserve_cases config policy emailId now s.clock s.redis with
      ⟨-, hredis⟩ | ⟨-, -, -, hd, -⟩ | ⟨-, -, hd, -⟩
    · exact hredis
    · rw [reserve_fst, hd] at h
      cases h
    · rw [reserve_fst, hd] at h
      cases h
  · rw [reserve_history, callTimes, List.filterMap_cons]
    simp [LimiterEvent.time?]

/-- **A denial names the earliest time.** In a run of any calls, whose times for the sender do not
go back, let `reserve` deny an email at `now` and return `t`. Then `t` is after `now`; after any
undisturbed steps the same email is denied at every time from `now` up to `t`; and if these steps
admit nobody of the sender, it is admitted at `t`. -/
theorem denial_names_earliest_time (config : AppConfig) (policy : SenderPolicy)
    (hlimit : 1 ≤ policy.hourlyLimit) (hdelay : 0 ≤ policy.minimumDelayMs) (emailId : Uuid)
    (now : Int) (s : Limiter)
    (hreach : (system config).Reachable (ClockForward policy.senderId) s)
    (hnow : InOrder policy.senderId now s)
    (hdenied : (s.reserve config policy emailId now).1.admitted = false) :
    now < (s.reserve config policy emailId now).1.nextAvailableAt ∧
      (∀ s', (system config).Steps (Undisturbed policy) (s.reserve config policy emailId now).2 s' →
        ∀ later, now ≤ later → later < (s.reserve config policy emailId now).1.nextAvailableAt →
          (s'.reserve config policy emailId later).1.admitted = false) ∧
      ∀ s', (system config).Steps
          (fun u call => Undisturbed policy u call ∧ ¬ Admits config policy.senderId u call)
          (s.reserve config policy emailId now).2 s' →
        (s'.reserve config policy emailId
          (s.reserve config policy emailId now).1.nextAvailableAt).1.admitted = true := by
  obtain ⟨hredis, hcalled⟩ := reserve_of_denied hdenied
  have hkeys : ∀ key : RateKey, key.senderId = policy.senderId →
      (s.reserve config policy emailId now).2.redis.get
        (s.reserve config policy emailId now).2.clock key = s.redis.get s.clock key := by
    intro key _
    rw [hredis, reserve_clock]
  refine ⟨lt_nextAvailableAt_of_denied hdenied, ?_, ?_⟩
  · intro s' hsteps later hle hlt
    have hinv := hsteps.invariant
      (I := fun u => now ∈ callTimes policy.senderId u.history ∧ WaitsUntil policy emailId now
        (s.reserve config policy emailId now).1.nextAvailableAt u)
      ⟨hcalled, (waitsUntil_of_denied hdenied).congr hkeys⟩
      (fun u call u' hcall hstep hu => ⟨mem_callTimes_step hstep hu.1,
        waitsUntil_step hdelay hcall hstep hu.1 hu.2⟩)
    exact hinv.2.denied hle hlt
  · intro s' hsteps
    have hcounted := countedByCall_of_reachable hreach policy.senderId
    have hinv := hsteps.invariant
      (I := FreeAt policy emailId (s.reserve config policy emailId now).1.nextAvailableAt)
      ((freeAt_of_denied hlimit hcounted hnow hdenied).congr hkeys)
      (fun u call u' hcall hstep hu => freeAt_step hcall.1 hcall.2 hstep hu)
    exact hinv.admitted

/-- One email an hour, a second apart. -/
def hourlyPolicy : SenderPolicy := ⟨0, 1, 1000⟩

/-- One email admitted at the epoch. -/
def oneAdmitted : Limiter := (emptyLimiter.reserve validConfig hourlyPolicy 1 0).2

/-- A second email is denied half a second later, another one ten minutes later; the second is still
denied a millisecond before the hour ends, and admitted when it ends. -/
theorem denial_names_earliest_time_hour :
    ∃ s', (system validConfig).Steps (Undisturbed hourlyPolicy)
        (oneAdmitted.reserve validConfig hourlyPolicy 2 500).2 s' ∧
      s'.history.length = 3 ∧
      (oneAdmitted.reserve validConfig hourlyPolicy 2 500).1.nextAvailableAt = 3600000 ∧
      (s'.reserve validConfig hourlyPolicy 2 3599999).1.admitted = false ∧
      (s'.reserve validConfig hourlyPolicy 2 3600000).1.admitted = true := by
  have hreach : (system validConfig).Reachable (ClockForward 0) oneAdmitted :=
    ⟨emptyLimiter, ⟨rfl, rfl⟩, .single (l := .reserve hourlyPolicy 1 0) (fun _ => by decide) rfl⟩
  obtain ⟨-, hwait, hfree⟩ := denial_names_earliest_time validConfig hourlyPolicy (by decide)
    (by decide) 2 500 oneAdmitted hreach (by decide) (by decide)
  have hthird : Undisturbed hourlyPolicy (oneAdmitted.reserve validConfig hourlyPolicy 2 500).2
      (.reserve hourlyPolicy 3 600000) := fun _ => ⟨rfl, by decide⟩
  have hidle : ¬ Admits validConfig 0 (oneAdmitted.reserve validConfig hourlyPolicy 2 500).2
      (.reserve hourlyPolicy 3 600000) := by
    rintro ⟨-, hadmit⟩
    revert hadmit
    decide
  have ht : (oneAdmitted.reserve validConfig hourlyPolicy 2 500).1.nextAvailableAt = 3600000 := by
    decide
  refine ⟨_, .single hthird rfl, rfl, ht, ?_, ?_⟩
  · exact hwait _ (.single hthird rfl) 3599999 (by decide) (by rw [ht]; decide)
  · rw [← ht]
    exact hfree _ (.single ⟨hthird, hidle⟩ rfl)

end Limiter

end EmailScheduler
