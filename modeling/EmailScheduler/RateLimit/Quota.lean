import EmailScheduler.RateLimit.History

/-!
# The hourly counter

Within a UTC hour the counter of a sender is the value it was seeded with plus the number of new
reservations granted, and no email is given a new reservation twice. The second fact rests on the
schema: reservations are kept for at least an hour, so a reservation made inside a window outlives
the window.

`QuotaInv` states what each key holds after a run, as a function of the history; the expiry of the
counter is the same whether it was created by `reserve` or by `seed`.
-/

set_option autoImplicit false

namespace EmailScheduler

open Foundation

/-- The events that write the counter of a window: a new reservation, or a seeding. -/
def LimiterEvent.writesCounter (senderId : Uuid) (start : Int) : LimiterEvent → Bool
  | .reserved policy _ now decision =>
      decide (policy.senderId = senderId ∧ decision.admitted = true ∧ hourStart now = start ∧
        decision.existingReservation = false)
  | .seeded policy _ _ now => decide (policy.senderId = senderId ∧ hourStart now = start)

/-- The events that write the counter of a window, most recent first. -/
def counterWrites (senderId : Uuid) (start : Int) (history : List LimiterEvent) :
    List LimiterEvent :=
  history.filter (LimiterEvent.writesCounter senderId start)

/-- The value the counter was seeded with: `0` unless the first event to write it is a seeding. -/
def seededCount (senderId : Uuid) (start : Int) (history : List LimiterEvent) : Int :=
  match (counterWrites senderId start history).getLast? with
  | some (.seeded _ acceptedCount _ _) => acceptedCount
  | _ => 0

/-- The limit used by a call of `reserve` in a window. -/
def LimiterEvent.limit? (senderId : Uuid) (start : Int) : LimiterEvent → Option Int
  | .reserved policy _ now _ =>
      if policy.senderId = senderId ∧ hourStart now = start then some policy.hourlyLimit else none
  | .seeded _ _ _ _ => none

/-- The largest limit used by a call of `reserve` in a window, or `0`. -/
def largestLimit (senderId : Uuid) (start : Int) (history : List LimiterEvent) : Int :=
  (history.filterMap (LimiterEvent.limit? senderId start)).foldr max 0

theorem counterWrites_cons (senderId : Uuid) (start : Int) (e : LimiterEvent)
    (history : List LimiterEvent) :
    counterWrites senderId start (e :: history) =
      if e.writesCounter senderId start then e :: counterWrites senderId start history
      else counterWrites senderId start history := by
  simp only [counterWrites, List.filter_cons]

/-- An event that does not write the counter leaves its seeded value. -/
theorem seededCount_cons_of_not_writes {senderId : Uuid} {start : Int} {e : LimiterEvent}
    (h : e.writesCounter senderId start = false) (history : List LimiterEvent) :
    seededCount senderId start (e :: history) = seededCount senderId start history := by
  simp [seededCount, counterWrites_cons, h]

/-- Once the counter is written, its seeded value is settled. -/
theorem seededCount_cons_of_ne_nil {senderId : Uuid} {start : Int} {history : List LimiterEvent}
    (h : counterWrites senderId start history ≠ []) (e : LimiterEvent) :
    seededCount senderId start (e :: history) = seededCount senderId start history := by
  obtain ⟨first, rest, hw⟩ := List.exists_cons_of_ne_nil h
  by_cases he : e.writesCounter senderId start = true
  · simp only [seededCount, counterWrites_cons, if_pos he, hw, List.getLast?_cons_cons]
  · simp only [seededCount, counterWrites_cons, if_neg he]

/-- A reservation does not seed the counter. -/
theorem seededCount_cons_reserved (senderId : Uuid) (start : Int) (policy : SenderPolicy)
    (emailId : Uuid) (now : Int) (d : RateLimitDecision) (history : List LimiterEvent) :
    seededCount senderId start (.reserved policy emailId now d :: history) =
      seededCount senderId start history := by
  by_cases hnil : counterWrites senderId start history = []
  · unfold seededCount
    rw [counterWrites_cons, hnil]
    split_ifs <;> rfl
  · exact seededCount_cons_of_ne_nil hnil _

theorem seededCount_nonneg (senderId : Uuid) (start : Int) (history : List LimiterEvent) :
    0 ≤ seededCount senderId start history := by
  unfold seededCount
  split
  · exact Int.natCast_nonneg _
  · exact Int.le_refl 0

/-- New reservations are among the events that write the counter. -/
theorem newReservations_of_counterWrites_nil {senderId : Uuid} {start : Int}
    {history : List LimiterEvent} (h : counterWrites senderId start history = []) :
    newReservations senderId start history = [] := by
  induction history with
  | nil => rfl
  | cons e history ih =>
      rw [counterWrites_cons] at h
      split at h
      next => cases h
      next hwrites =>
        cases e with
        | reserved policy emailId now d =>
            rw [newReservations_cons_reserved, if_neg]
            · exact ih h
            · simpa [LimiterEvent.writesCounter] using hwrites
        | seeded => exact ih h

theorem largestLimit_cons_le (senderId : Uuid) (start : Int) (e : LimiterEvent)
    (history : List LimiterEvent) :
    largestLimit senderId start history ≤ largestLimit senderId start (e :: history) := by
  unfold largestLimit
  cases h : e.limit? senderId start with
  | none => exact Int.le_of_eq (by rw [List.filterMap_cons_none h])
  | some n =>
      rw [List.filterMap_cons_some h, List.foldr_cons]
      omega

theorem le_largestLimit_cons {senderId : Uuid} {start n : Int} {e : LimiterEvent}
    (h : e.limit? senderId start = some n) (history : List LimiterEvent) :
    n ≤ largestLimit senderId start (e :: history) := by
  unfold largestLimit
  rw [List.filterMap_cons_some h, List.foldr_cons]
  omega

/-- The counter of a window after the events of a history: absent until an event writes it. -/
def counterEntry (config : AppConfig) (senderId : Uuid) (start : Int)
    (history : List LimiterEvent) : Option (Entry Int) :=
  if counterWrites senderId start history = [] then none
  else some ⟨seededCount senderId start history +
      ((newReservations senderId start history).length : Int),
    some (start + oneHourMilliseconds + config.rateLimitReservationTtlMs)⟩

theorem newReservations_cons_of_not_writes {senderId : Uuid} {start : Int} {e : LimiterEvent}
    (h : e.writesCounter senderId start = false) (history : List LimiterEvent) :
    newReservations senderId start (e :: history) = newReservations senderId start history := by
  cases e with
  | reserved policy emailId now d =>
      rw [newReservations_cons_reserved, if_neg]
      simpa [LimiterEvent.writesCounter] using h
  | seeded => rfl

/-- The counter is not changed by events that do not write it. -/
theorem counterEntry_cons_of_not_writes (config : AppConfig) {senderId : Uuid} {start : Int}
    {e : LimiterEvent} (h : e.writesCounter senderId start = false) (history : List LimiterEvent) :
    counterEntry config senderId start (e :: history) =
      counterEntry config senderId start history := by
  rw [counterEntry, counterEntry, counterWrites_cons, seededCount_cons_of_not_writes h,
    newReservations_cons_of_not_writes h]
  simp [h]

namespace Limiter

/-- What the keys hold after a run of synchronous calls. -/
structure QuotaInv (config : AppConfig) (s : Limiter) : Prop where
  counter : ∀ senderId start,
    s.redis (.hour senderId start) = counterEntry config senderId start s.history
  reserved : ∀ senderId, ∀ a ∈ admissions senderId s.history, a.existingReservation = false →
    ∃ v t, s.redis (.reservation senderId a.emailId) = some ⟨v, some t⟩ ∧
      a.now + config.rateLimitReservationTtlMs ≤ t
  past : ∀ senderId, ∀ a ∈ admissions senderId s.history, a.now ≤ s.clock
  no_repeat : ∀ senderId start, (newReservations senderId start s.history).Nodup
  capped : ∀ senderId start, ((newReservations senderId start s.history).length : Int) ≤
    largestLimit senderId start s.history

variable {config : AppConfig} {s : Limiter}

theorem quotaInv_init (h : (system config).init s) : QuotaInv config s := by
  obtain ⟨hredis, hhistory⟩ := h
  refine ⟨?_, ?_, ?_, ?_, ?_⟩ <;> rw [hhistory]
  · intro senderId start
    rw [hredis]
    rfl
  · intro senderId a ha
    cases ha
  · intro senderId a ha
    cases ha
  · intro senderId start
    exact List.nodup_nil
  · intro senderId start
    exact Int.le_refl 0

theorem quotaInv_tick (hinv : QuotaInv config s) {clock : Int} (hclock : s.clock ≤ clock) :
    QuotaInv config { s with clock := clock } :=
  { hinv with past := fun senderId a ha => Int.le_trans (hinv.past senderId a ha) hclock }

/-- Inside a window the counter of the window is present as soon as an event has written it. -/
theorem get_counter (hinv : QuotaInv config s) (senderId : Uuid) {start : Int}
    (hstart : s.clock < start + oneHourMilliseconds + config.rateLimitReservationTtlMs) :
    s.redis.get s.clock (.hour senderId start) =
      (counterEntry config senderId start s.history).map Entry.value := by
  have hc := hinv.counter senderId start
  unfold counterEntry at hc ⊢
  split at hc
  next hnil => rw [if_pos hnil, ExpiringStore.get_eq_none_of_none hc, Option.map_none]
  next hne => rw [if_neg hne, ExpiringStore.get_of_entry hc, if_pos hstart, Option.map_some]

/-- The reading of the counter is the seeded value plus the number of new reservations. -/
theorem reading_counter (hinv : QuotaInv config s) (senderId : Uuid) {start : Int}
    (hstart : s.clock < start + oneHourMilliseconds + config.rateLimitReservationTtlMs) :
    reading s.redis s.clock (.hour senderId start) = seededCount senderId start s.history +
      ((newReservations senderId start s.history).length : Int) := by
  rw [reading, get_counter hinv senderId hstart, counterEntry]
  split
  next hnil =>
    rw [newReservations_of_counterWrites_nil hnil]
    simp [seededCount, hnil]
  next => rfl

/-- The window of the current time has not expired. -/
theorem clock_lt_expiry (config : AppConfig) (clock : Int) :
    clock < hourStart clock + oneHourMilliseconds + config.rateLimitReservationTtlMs := by
  have h := lt_hourEnd clock
  have hhour := config.oneHour_le_reservationTtl
  unfold hourEnd at h
  unfold oneHourMilliseconds at h hhour ⊢
  omega

/-- An email with a new reservation in the current window still has it. -/
theorem reservation_present (hinv : QuotaInv config s) {senderId emailId : Uuid}
    (h : emailId ∈ newReservations senderId (hourStart s.clock) s.history) :
    ∃ v, s.redis.get s.clock (.reservation senderId emailId) = some v := by
  obtain ⟨a, ha, hw, he, rfl⟩ := mem_newReservations.1 h
  obtain ⟨v, t, hentry, ht⟩ := hinv.reserved senderId a ha he
  have hclose := lt_add_hour_of_hourStart_eq hw
  have hhour := config.oneHour_le_reservationTtl
  refine ⟨v, ?_⟩
  rw [ExpiringStore.get_of_entry hentry, if_pos (by omega)]

/-- An event that writes no counter and makes no reservation keeps the invariant, if the keys of
counters and reservations stay as they are. -/
theorem QuotaInv.of_same_keys (hinv : QuotaInv config s) {e : LimiterEvent} {redis : LimiterStore}
    (hhour : ∀ senderId start, redis (.hour senderId start) = s.redis (.hour senderId start))
    (hres : ∀ senderId emailId,
      redis (.reservation senderId emailId) = s.redis (.reservation senderId emailId))
    (hwrites : ∀ senderId start, e.writesCounter senderId start = false)
    (hadm : ∀ senderId, ∀ a ∈ admissions senderId (e :: s.history),
      a ∈ admissions senderId s.history ∨ (a.existingReservation = true ∧ a.now = s.clock)) :
    QuotaInv config { s with redis := redis, history := e :: s.history } where
  counter senderId start := by
    rw [counterEntry_cons_of_not_writes config (hwrites senderId start)]
    exact (hhour senderId start).trans (hinv.counter senderId start)
  reserved senderId a ha he := by
    rcases hadm senderId a ha with hold | ⟨hexisting, -⟩
    · obtain ⟨v, t, hentry, ht⟩ := hinv.reserved senderId a hold he
      exact ⟨v, t, (hres senderId a.emailId).trans hentry, ht⟩
    · rw [he] at hexisting
      cases hexisting
  past senderId a ha := by
    rcases hadm senderId a ha with hold | ⟨-, hnow⟩
    · exact hinv.past senderId a hold
    · exact Int.le_of_eq hnow
  no_repeat senderId start := by
    rw [newReservations_cons_of_not_writes (hwrites senderId start)]
    exact hinv.no_repeat senderId start
  capped senderId start := by
    rw [newReservations_cons_of_not_writes (hwrites senderId start)]
    exact Int.le_trans (hinv.capped senderId start) (largestLimit_cons_le _ _ _ _)

/-- A new reservation below the limit keeps the invariant: it was not granted before in this window,
and it raises the counter to at most the limit. -/
theorem quotaInv_newReservation (hinv : QuotaInv config s) (policy : SenderPolicy)
    (emailId : Uuid)
    (hnone : s.redis.get s.clock (.reservation policy.senderId emailId) = none)
    (hroom : reading s.redis s.clock (.hour policy.senderId (hourStart s.clock)) <
      policy.hourlyLimit) :
    QuotaInv config { s with
      redis := grantReservation config policy emailId s.clock s.clock s.redis
      history := .reserved policy emailId s.clock ⟨true, s.clock, false⟩ :: s.history } := by
  have hread := reading_counter hinv policy.senderId (clock_lt_expiry config s.clock)
  have hwrites : ∀ senderId start,
      LimiterEvent.writesCounter senderId start
        (.reserved policy emailId s.clock ⟨true, s.clock, false⟩) =
          decide (policy.senderId = senderId ∧ hourStart s.clock = start) := by
    intro senderId start
    simp [LimiterEvent.writesCounter]
  have hnew : ∀ senderId start, newReservations senderId start
      (.reserved policy emailId s.clock ⟨true, s.clock, false⟩ :: s.history) =
        if policy.senderId = senderId ∧ hourStart s.clock = start then
          emailId :: newReservations senderId start s.history
        else newReservations senderId start s.history := by
    intro senderId start
    rw [newReservations_cons_reserved]
    simp
  refine ⟨fun senderId start => ?_, fun senderId a ha he => ?_, fun senderId a ha => ?_,
    fun senderId start => ?_, fun senderId start => ?_⟩
  · dsimp only
    -- The counter of the window is raised by one, from what the script read; others stay.
    by_cases hkey : policy.senderId = senderId ∧ hourStart s.clock = start
    · obtain ⟨rfl, rfl⟩ := hkey
      rw [grantReservation_hour, counterEntry, counterWrites_cons, hwrites, hnew,
        seededCount_cons_reserved, hread]
      simp [hourEnd]
      omega
    · have hne : RateKey.hour senderId start ≠ .hour policy.senderId (hourStart s.clock) := by
        rintro heq
        injection heq with h₁ h₂
        exact hkey ⟨h₁.symm, h₂.symm⟩
      rw [grantReservation_frame hne (by simp) (by simp),
        counterEntry_cons_of_not_writes config (by rw [hwrites]; simpa using hkey)]
      exact hinv.counter senderId start
  · dsimp only at ha ⊢
    by_cases hs : policy.senderId = senderId
    · subst hs
      rw [admissions_cons_admitted policy emailId s.clock rfl, List.mem_cons] at ha
      -- An email has one reservation key: a new reservation extends it for older admissions too.
      by_cases hid : a.emailId = emailId
      · refine ⟨s.clock, _, by rw [hid]; exact grantReservation_reservation _ _ _ _ _ _, ?_⟩
        rcases ha with rfl | ha
        · exact Int.le_refl _
        · exact Int.add_le_add_right (hinv.past policy.senderId a ha) _
      · rcases ha with rfl | ha
        · exact absurd rfl hid
        · obtain ⟨v, t, hentry, ht⟩ := hinv.reserved policy.senderId a ha he
          refine ⟨v, t, ?_, ht⟩
          rw [grantReservation_frame (by simp) (by simp) (by simpa using hid)]
          exact hentry
    · rw [admissions_cons_of_ne hs] at ha
      obtain ⟨v, t, hentry, ht⟩ := hinv.reserved senderId a ha he
      have hne : RateKey.reservation senderId a.emailId ≠
          .reservation policy.senderId emailId := by
        rintro heq
        injection heq with h₁
        exact hs h₁.symm
      refine ⟨v, t, ?_, ht⟩
      rw [grantReservation_frame (by simp) (by simp) hne]
      exact hentry
  · dsimp only at ha ⊢
    by_cases hs : policy.senderId = senderId
    · subst hs
      rw [admissions_cons_admitted policy emailId s.clock rfl, List.mem_cons] at ha
      rcases ha with rfl | ha
      · exact Int.le_refl _
      · exact hinv.past policy.senderId a ha
    · rw [admissions_cons_of_ne hs] at ha
      exact hinv.past senderId a ha
  · rw [hnew]
    split
    next hkey =>
      obtain ⟨rfl, rfl⟩ := hkey
      -- A reservation made earlier in the window would still be there.
      refine List.nodup_cons.2 ⟨fun hmem => ?_, hinv.no_repeat _ _⟩
      obtain ⟨v, hv⟩ := reservation_present hinv hmem
      rw [hnone] at hv
      cases hv
    next => exact hinv.no_repeat senderId start
  · rw [hnew]
    dsimp only
    split
    next hkey =>
      obtain ⟨rfl, rfl⟩ := hkey
      -- The counter read was below this limit, and it counts the reservations of the window.
      have hlimit : policy.hourlyLimit ≤ largestLimit policy.senderId (hourStart s.clock)
          (.reserved policy emailId s.clock ⟨true, s.clock, false⟩ :: s.history) :=
        le_largestLimit_cons (by simp [LimiterEvent.limit?]) s.history
      have hseed := seededCount_nonneg policy.senderId (hourStart s.clock) s.history
      rw [List.length_cons]
      omega
    next => exact Int.le_trans (hinv.capped senderId start) (largestLimit_cons_le _ _ _ _)

theorem quotaInv_reserve (hinv : QuotaInv config s) (policy : SenderPolicy) (emailId : Uuid) :
    QuotaInv config (s.reserve config policy emailId s.clock).2 := by
  rcases reserve_cases config policy emailId s.clock s.clock s.redis with
    ⟨hd, hredis⟩ | ⟨-, hnone, hroom, hd, hredis⟩ | ⟨-, -, hd, hredis⟩
  · refine hinv.of_same_keys ?_ ?_ ?_ ?_
    · exact fun senderId start => by rw [hredis]
    · exact fun senderId id => by rw [hredis]
    · exact fun senderId start => by simp [LimiterEvent.writesCounter, hd]
    · intro senderId a ha
      rw [admissions_cons_denied senderId policy emailId s.clock hd] at ha
      exact Or.inl ha
  · have hstep := quotaInv_newReservation hinv policy emailId hnone hroom
    -- A new reservation is the only case that writes a counter.
    rw [← hredis, ← hd] at hstep
    exact hstep
  · refine hinv.of_same_keys ?_ ?_ ?_ ?_
    · exact fun senderId start => by rw [hredis, ExpiringStore.setPx_of_ne _ (by simp)]
    · exact fun senderId id => by rw [hredis, ExpiringStore.setPx_of_ne _ (by simp)]
    · exact fun senderId start => by simp [LimiterEvent.writesCounter, hd]
    · intro senderId a ha
      by_cases hs : policy.senderId = senderId
      · subst hs
        rw [admissions_cons_admitted policy emailId s.clock (by rw [hd]), List.mem_cons] at ha
        rcases ha with rfl | ha
        · exact Or.inr ⟨by rw [hd], rfl⟩
        · exact Or.inl ha
      · rw [admissions_cons_of_ne hs] at ha
        exact Or.inl ha

theorem quotaInv_seed (hinv : QuotaInv config s) (policy : SenderPolicy) (acceptedCount : Nat)
    (lastAcceptedAt : Option Int) :
    QuotaInv config (s.seed config policy acceptedCount lastAcceptedAt s.clock) := by
  have hadm : ∀ senderId, admissions senderId
      (.seeded policy acceptedCount lastAcceptedAt s.clock :: s.history) =
        admissions senderId s.history :=
    fun senderId => admissions_cons_seeded senderId policy acceptedCount lastAcceptedAt s.clock _
  refine ⟨fun senderId start => ?_, fun senderId a ha he => ?_, hinv.past, hinv.no_repeat,
    fun senderId start => ?_⟩
  · show EmailScheduler.seed config policy acceptedCount lastAcceptedAt s.clock s.clock s.redis
      (.hour senderId start) = counterEntry config senderId start (_ :: s.history)
    by_cases hkey : policy.senderId = senderId ∧ hourStart s.clock = start
    · obtain ⟨rfl, rfl⟩ := hkey
      have hget := get_counter hinv policy.senderId (clock_lt_expiry config s.clock)
      -- `SET … PX` of the seed and `PEXPIREAT` of the script give the counter the same expiry.
      have hexpiry : s.clock + seedTtl config s.clock =
          hourStart s.clock + oneHourMilliseconds + config.rateLimitReservationTtlMs := by
        unfold seedTtl hourEnd
        omega
      rw [seed_hour, ExpiringStore.has_eq_isSome_get, hget]
      by_cases hnil : counterWrites policy.senderId (hourStart s.clock) s.history = []
      · -- The first event of the window to write the counter.
        have hnew := newReservations_of_counterWrites_nil hnil
        simp [counterEntry, counterWrites_cons, LimiterEvent.writesCounter, hnil, hnew, hexpiry,
          seededCount]
      · rw [hinv.counter]
        -- The counter exists already, and `NX` leaves it as it is.
        simp [counterEntry, counterWrites_cons, LimiterEvent.writesCounter, hnil,
          seededCount_cons_of_ne_nil hnil]
    · have hne : RateKey.hour senderId start ≠ .hour policy.senderId (hourStart s.clock) := by
        rintro heq
        injection heq with h₁ h₂
        exact hkey ⟨h₁.symm, h₂.symm⟩
      rw [seed_frame _ _ _ _ _ _ _ hne (by simp), counterEntry_cons_of_not_writes config
        (by simpa [LimiterEvent.writesCounter] using hkey)]
      exact hinv.counter senderId start
  · obtain ⟨v, t, hentry, ht⟩ := hinv.reserved senderId a (hadm senderId ▸ ha) he
    refine ⟨v, t, ?_, ht⟩
    exact (seed_frame _ _ _ _ _ _ _ (by simp) (by simp)).trans hentry
  · exact Int.le_trans (hinv.capped senderId start) (largestLimit_cons_le _ _ _ _)

theorem quotaInv_of_reachable (h : (system config).Reachable Synchronous s) :
    QuotaInv config s := by
  refine h.invariant (fun s hs => quotaInv_init hs) ?_
  intro s call t hP hstep hinv
  cases call with
  | reserve policy emailId now =>
      obtain rfl : now = s.clock := hP
      cases hstep
      exact quotaInv_reserve hinv policy emailId
  | seed policy acceptedCount lastAcceptedAt now =>
      obtain rfl : now = s.clock := hP
      cases hstep
      exact quotaInv_seed hinv policy acceptedCount lastAcceptedAt
  | tick clock =>
      simp only [system, step] at hstep
      split at hstep
      next hclock =>
        cases hstep
        exact quotaInv_tick hinv hclock
      next => cases hstep

/-- What is exact about the quota of a sender in a state: no email has two new reservations in a
window, the counter of a window is its seeded value plus its new reservations for as long as it
lives, the reservations are within the largest limit used, a denial changes no key, and a seeding
lowers neither the counter nor `next`. -/
structure QuotaExact (config : AppConfig) (s : Limiter) (senderId : Uuid) : Prop where
  no_repeat : ∀ start, (newReservations senderId start s.history).Nodup
  counter_eq : ∀ start, s.clock < start + oneHourMilliseconds + config.rateLimitReservationTtlMs →
    reading s.redis s.clock (.hour senderId start) = seededCount senderId start s.history +
      ((newReservations senderId start s.history).length : Int)
  capped : ∀ start, ((newReservations senderId start s.history).length : Int) ≤
    largestLimit senderId start s.history
  denied_frame : ∀ policy emailId, policy.senderId = senderId →
    (s.reserve config policy emailId s.clock).1.admitted = false →
    (s.reserve config policy emailId s.clock).2.redis = s.redis
  seed_keeps : ∀ policy acceptedCount lastAcceptedAt key v, policy.senderId = senderId →
    s.redis.get s.clock key = some v →
    (s.seed config policy acceptedCount lastAcceptedAt s.clock).redis.get s.clock key = some v
  seed_counter : ∀ policy acceptedCount lastAcceptedAt start, policy.senderId = senderId →
    reading s.redis s.clock (.hour senderId start) ≤
      reading (s.seed config policy acceptedCount lastAcceptedAt s.clock).redis s.clock
        (.hour senderId start)
  seed_next : ∀ policy acceptedCount lastAcceptedAt, policy.senderId = senderId →
    0 ≤ policy.minimumDelayMs →
    reading s.redis s.clock (.next senderId) ≤
      reading (s.seed config policy acceptedCount lastAcceptedAt s.clock).redis s.clock
        (.next senderId)

/-- A reading that a seeding raises from nothing, or keeps. -/
theorem reading_le_seed {config : AppConfig} {policy : SenderPolicy} {acceptedCount : Nat}
    {lastAcceptedAt : Option Int} {now clock : Int} {redis : LimiterStore} {key : RateKey}
    (hnew : redis.get clock key = none → 0 ≤ reading
      (EmailScheduler.seed config policy acceptedCount lastAcceptedAt now clock redis) clock key) :
    reading redis clock key ≤
      reading (EmailScheduler.seed config policy acceptedCount lastAcceptedAt now clock redis)
        clock key := by
  cases h : redis.get clock key with
  | none =>
      have hzero : reading redis clock key = 0 := by rw [reading, h, Option.getD_none]
      rw [hzero]
      exact hnew h
  | some v => exact Int.le_of_eq (by rw [reading, reading, h, seed_get_of_get h])

theorem reading_seed_hour_nonneg (config : AppConfig) (policy : SenderPolicy) (acceptedCount : Nat)
    (lastAcceptedAt : Option Int) (now : Int) {clock : Int} {redis : LimiterStore} {start : Int}
    (h : redis.get clock (.hour policy.senderId start) = none) :
    0 ≤ reading (EmailScheduler.seed config policy acceptedCount lastAcceptedAt now clock redis)
      clock (.hour policy.senderId start) := by
  by_cases hw : start = hourStart now
  · subst hw
    -- The seed creates the counter of its own hour; other hours stay without one.
    have hentry := EmailScheduler.seed_hour config policy acceptedCount lastAcceptedAt
      now clock redis
    rw [ExpiringStore.has_eq_isSome_get, h, Option.isSome_none, if_neg (by simp)] at hentry
    rw [reading, ExpiringStore.get_of_entry hentry]
    split
    · exact Int.natCast_nonneg _
    · exact Int.le_refl 0
  · have hsame := seed_frame config policy acceptedCount lastAcceptedAt now clock redis
      (show RateKey.hour policy.senderId start ≠ _ by simpa using hw) (by simp)
    rw [reading, ExpiringStore.get_congr hsame, h]
    exact Int.le_refl 0

theorem reading_seed_next_nonneg (config : AppConfig) {policy : SenderPolicy}
    (hdelay : 0 ≤ policy.minimumDelayMs) (acceptedCount : Nat) (lastAcceptedAt : Option Int)
    (now : Int) {clock : Int} {redis : LimiterStore}
    (h : redis.get clock (.next policy.senderId) = none) :
    0 ≤ reading (EmailScheduler.seed config policy acceptedCount lastAcceptedAt now clock redis)
      clock (.next policy.senderId) := by
  have hentry := EmailScheduler.seed_next config policy acceptedCount lastAcceptedAt now clock redis
  split at hentry
  next hlast =>
    rw [reading, ExpiringStore.get_of_entry hentry]
    split
    · rw [Option.getD_some]
      omega
    · exact Int.le_refl 0
  next =>
    rw [reading, ExpiringStore.get_congr hentry, h]
    exact Int.le_refl 0

/-- **Quota exactness.** In every state reached by synchronous calls of `reserve` and `seed`, with
any emails and any policies, the quota of every sender is exact. -/
theorem quotaExact_of_reachable (h : (system config).Reachable Synchronous s) (senderId : Uuid) :
    QuotaExact config s senderId := by
  have hinv := quotaInv_of_reachable h
  refine ⟨hinv.no_repeat senderId, fun start hstart => reading_counter hinv senderId hstart,
    hinv.capped senderId, ?_, ?_, ?_, ?_⟩
  · intro policy emailId _ hdenied
    rcases reserve_cases config policy emailId s.clock s.clock s.redis with
      ⟨-, hredis⟩ | ⟨-, -, -, hd, -⟩ | ⟨-, -, hd, -⟩
    -- The other two cases of the script admit.
    · exact hredis
    · rw [reserve_fst, hd] at hdenied
      cases hdenied
    · rw [reserve_fst, hd] at hdenied
      cases hdenied
  · intro policy acceptedCount lastAcceptedAt key v _ hget
    exact seed_get_of_get hget
  · rintro policy acceptedCount lastAcceptedAt start rfl
    exact reading_le_seed (reading_seed_hour_nonneg config policy acceptedCount lastAcceptedAt _)
  · rintro policy acceptedCount lastAcceptedAt rfl hdelay
    exact reading_le_seed
      (reading_seed_next_nonneg config hdelay acceptedCount lastAcceptedAt _)

/-- A seeded counter, an admission and a denial in the first hour, and a seeding that comes late. -/
def quotaCalls : List LimiterCall :=
  [.seed ⟨0, 2, 1000⟩ 1 none 0, .reserve ⟨0, 2, 1000⟩ 10 0, .tick 5000,
    .reserve ⟨0, 2, 1000⟩ 11 5000, .seed ⟨0, 2, 1000⟩ 7 (some 4000) 5000]

theorem quotaExact_after_quotaCalls : ∃ s,
    (system validConfig).run Synchronous quotaCalls emptyLimiter = some s ∧
      newReservations 0 0 s.history = [10] ∧ reading s.redis s.clock (.hour 0 0) = 2 ∧
      QuotaExact validConfig s 0 :=
  ⟨_, rfl, by decide, by decide, quotaExact_of_reachable
    ⟨emptyLimiter, ⟨rfl, rfl⟩, TransitionSystem.steps_of_run quotaCalls rfl⟩ 0⟩

end Limiter

end EmailScheduler
