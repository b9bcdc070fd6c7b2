import EmailScheduler.RateLimit.History

/-!
# The hourly cap of the limiter

A reservation lets its email past the counter in whatever hour it comes back, so an hour can admit
more emails than its counter shows. `CountsInHour` is the condition under which a call does not do
this; the callers' times are arbitrary here, not tied to the Redis clock. While every call meets it,
the admissions of an hour are the reservations made in that hour (`CapInv.admitted`), and those are
within the limit (`CapInv.capped`).
-/

set_option autoImplicit false

namespace EmailScheduler

open Foundation

namespace Limiter

/-- A call of `reserve` lets nobody past the counter of its hour: a reservation that admits the
email was made in that hour, and a counter that is raised is one that Redis still keeps. -/
def CountsInHour (config : AppConfig) (policy : SenderPolicy) (emailId : Uuid) (now : Int)
    (s : Limiter) : Prop :=
  reading s.redis s.clock (.next policy.senderId) ≤ now →
    match s.redis.get s.clock (.reservation policy.senderId emailId) with
    | some reservedAt => hourStart reservedAt = hourStart now
    | none => reading s.redis s.clock (.hour policy.senderId (hourStart now)) < policy.hourlyLimit →
        s.clock < hourEnd now + config.rateLimitReservationTtlMs

instance (config : AppConfig) (policy : SenderPolicy) (emailId : Uuid) (now : Int) (s : Limiter) :
    Decidable (CountsInHour config policy emailId now s) := by
  unfold CountsInHour
  cases s.redis.get s.clock (.reservation policy.senderId emailId) <;> infer_instance

/-- What the keys of a sender with a fixed limit hold while every call counts in its hour. -/
structure CapInv (config : AppConfig) (senderId : Uuid) (limit : Nat) (s : Limiter) : Prop where
  reserved : ∀ emailId e, s.redis (.reservation senderId emailId) = some e →
    emailId ∈ newReservations senderId (hourStart e.value) s.history
  counter_nonneg : ∀ start e, s.redis (.hour senderId start) = some e → 0 ≤ e.value
  counted : ∀ start, newReservations senderId start s.history ≠ [] →
    s.clock < start + oneHourMilliseconds + config.rateLimitReservationTtlMs →
    ∃ v, s.redis (.hour senderId start) =
        some ⟨v, some (start + oneHourMilliseconds + config.rateLimitReservationTtlMs)⟩ ∧
      ((newReservations senderId start s.history).length : Int) ≤ v
  capped : ∀ start, (newReservations senderId start s.history).length ≤ limit
  admitted : ∀ a ∈ admissions senderId s.history,
    a.emailId ∈ newReservations senderId (hourStart a.now) s.history

variable {config : AppConfig} {senderId : Uuid} {limit : Nat} {s : Limiter}

theorem capInv_init (hredis : s.redis = ExpiringStore.empty) (hhistory : s.history = []) :
    CapInv config senderId limit s := by
  constructor
  · intro emailId e he
    rw [hredis] at he
    cases he
  · intro start e he
    rw [hredis] at he
    cases he
  · intro start hne
    rw [hhistory] at hne
    exact absurd rfl hne
  · intro start
    rw [hhistory]
    exact Nat.zero_le limit
  · intro a ha
    rw [hhistory] at ha
    cases ha

theorem capInv_tick (hinv : CapInv config senderId limit s) {clock : Int}
    (hclock : s.clock ≤ clock) : CapInv config senderId limit { s with clock := clock } :=
  { hinv with
    counted := fun start hne hlt => hinv.counted start hne (Int.lt_of_le_of_lt hclock hlt) }

/-- While its hour is kept, a counter reads at least the reservations made in the hour. -/
theorem CapInv.le_reading (hinv : CapInv config senderId limit s) (start : Int)
    (hstart : s.clock < start + oneHourMilliseconds + config.rateLimitReservationTtlMs) :
    ((newReservations senderId start s.history).length : Int) ≤
      reading s.redis s.clock (.hour senderId start) := by
  by_cases hnil : newReservations senderId start s.history = []
  · rw [hnil, reading]
    cases hget : s.redis.get s.clock (.hour senderId start) with
    | none => exact Int.le_refl 0
    | some v =>
        obtain ⟨e, he, rfl, -⟩ := ExpiringStore.entry_of_get hget
        exact hinv.counter_nonneg start e he
  · obtain ⟨v, hentry, hle⟩ := hinv.counted start hnil hstart
    rw [reading, ExpiringStore.get_of_entry hentry, if_pos hstart]
    exact hle

/-- An event that makes no reservation keeps the invariant, if the counters and reservations stay as
they are and it admits only emails with a reservation of the same hour. -/
theorem CapInv.of_same_keys (hinv : CapInv config senderId limit s) {event : LimiterEvent}
    {redis : LimiterStore}
    (hhour : ∀ start, redis (.hour senderId start) = s.redis (.hour senderId start))
    (hres : ∀ emailId,
      redis (.reservation senderId emailId) = s.redis (.reservation senderId emailId))
    (hnew : ∀ start, newReservations senderId start (event :: s.history) =
      newReservations senderId start s.history)
    (hadm : ∀ a ∈ admissions senderId (event :: s.history), a ∈ admissions senderId s.history ∨
      a.emailId ∈ newReservations senderId (hourStart a.now) s.history) :
    CapInv config senderId limit { s with redis := redis, history := event :: s.history } where
  reserved emailId e he := by
    rw [hnew]
    exact hinv.reserved emailId e ((hres emailId).symm.trans he)
  counter_nonneg start e he := hinv.counter_nonneg start e ((hhour start).symm.trans he)
  counted start hne hlt := by
    rw [hnew] at hne ⊢
    obtain ⟨v, hentry, hle⟩ := hinv.counted start hne hlt
    exact ⟨v, (hhour start).trans hentry, hle⟩
  capped start := by
    rw [hnew]
    exact hinv.capped start
  admitted a ha := by
    rw [hnew]
    rcases hadm a ha with hold | hreserved
    · exact hinv.admitted a hold
    · exact hreserved

theorem hour_ne {start start' : Int} (h : start ≠ start') :
    RateKey.hour senderId start ≠ .hour senderId start' := by
  intro heq
  injection heq with _ hstart
  exact h hstart

theorem reservation_ne {emailId emailId' : Uuid} (h : emailId ≠ emailId') :
    RateKey.reservation senderId emailId ≠ .reservation senderId emailId' := by
  intro heq
  injection heq with _ hemail
  exact h hemail

/-- A new reservation in an hour whose counter is kept and below the limit. -/
theorem capInv_newReservation (hinv : CapInv config senderId limit s) {policy : SenderPolicy}
    (hsender : policy.senderId = senderId) (hlimit : policy.hourlyLimit = limit) (emailId : Uuid)
    {now : Int}
    (hroom : reading s.redis s.clock (.hour policy.senderId (hourStart now)) < policy.hourlyLimit)
    (hkept : s.clock < hourEnd now + config.rateLimitReservationTtlMs) :
    CapInv config senderId limit { s with
      redis := grantReservation config policy emailId now s.clock s.redis
      history := .reserved policy emailId now ⟨true, now, false⟩ :: s.history } := by
  subst hsender
  have hread := hinv.le_reading (hourStart now) hkept
  have hnew : ∀ start, newReservations policy.senderId start
      (.reserved policy emailId now ⟨true, now, false⟩ :: s.history) =
        if hourStart now = start then emailId :: newReservations policy.senderId start s.history
        else newReservations policy.senderId start s.history := by
    intro start
    rw [newReservations_cons_reserved]
    simp
  have hsub : ∀ start id, id ∈ newReservations policy.senderId start s.history →
      id ∈ newReservations policy.senderId start
        (.reserved policy emailId now ⟨true, now, false⟩ :: s.history) := by
    intro start id hid
    rw [hnew]
    split
    · exact List.mem_cons_of_mem emailId hid
    · exact hid
  have hself : emailId ∈ newReservations policy.senderId (hourStart now)
      (.reserved policy emailId now ⟨true, now, false⟩ :: s.history) := by
    rw [hnew, if_pos rfl]
    exact List.mem_cons_self
  constructor
  · intro id e he
    -- `reserved`: the reservation of the email is new, the others are as before.
    by_cases hid : id = emailId
    · subst hid
      have hentry := grantReservation_reservation config policy id now s.clock s.redis
      obtain rfl := Option.some.inj (he.symm.trans hentry)
      exact hself
    · have hframe : grantReservation config policy emailId now s.clock s.redis
          (.reservation policy.senderId id) = s.redis (.reservation policy.senderId id) :=
        grantReservation_frame (by simp) (by simp) (reservation_ne hid)
      exact hsub _ _ (hinv.reserved id e (hframe.symm.trans he))
  · intro start e he
    by_cases hstart : start = hourStart now
    · subst hstart
      have hentry := grantReservation_hour config policy emailId now s.clock s.redis
      obtain rfl := Option.some.inj (he.symm.trans hentry)
      -- The counter was not negative, and it is raised by one.
      show 0 ≤ reading s.redis s.clock _ + 1
      omega
    · have hframe : grantReservation config policy emailId now s.clock s.redis
          (.hour policy.senderId start) = s.redis (.hour policy.senderId start) :=
        grantReservation_frame (hour_ne hstart) (by simp) (by simp)
      exact hinv.counter_nonneg start e (hframe.symm.trans he)
  · intro start hne hlt
    by_cases hstart : start = hourStart now
    · subst hstart
      -- `counted`: the counter read counts the earlier reservations, and goes up with the new one.
      refine ⟨_, grantReservation_hour config policy emailId now s.clock s.redis, ?_⟩
      rw [hnew, if_pos rfl, List.length_cons]
      omega
    · have hframe : grantReservation config policy emailId now s.clock s.redis
          (.hour policy.senderId start) = s.redis (.hour policy.senderId start) :=
        grantReservation_frame (hour_ne hstart) (by simp) (by simp)
      rw [hnew, if_neg (Ne.symm hstart)] at hne ⊢
      obtain ⟨v, hentry, hle⟩ := hinv.counted start hne hlt
      exact ⟨v, hframe.trans hentry, hle⟩
  · intro start
    rw [hnew]
    split
    next hstart =>
      subst hstart
      -- `capped`: the counter read was below the limit.
      rw [List.length_cons]
      omega
    next => exact hinv.capped start
  · intro a ha
    rw [admissions_cons_admitted policy emailId now rfl, List.mem_cons] at ha
    rcases ha with rfl | hold
    -- `admitted`: the new admission is a reservation of its own hour.
    · exact hself
    · exact hsub _ _ (hinv.admitted a hold)

/-- **A call of `reserve`.** A call that counts in its hour keeps the invariant; calls of other
senders always do. -/
theorem capInv_reserve (hinv : CapInv config senderId limit s) (policy : SenderPolicy)
    (emailId : Uuid) (now : Int)
    (hlimit : policy.senderId = senderId → policy.hourlyLimit = limit)
    (hcounts : policy.senderId = senderId → CountsInHour config policy emailId now s) :
    CapInv config senderId limit (s.reserve config policy emailId now).2 := by
  by_cases hsender : policy.senderId = senderId
  · have hc := hcounts hsender
    unfold CountsInHour at hc
    rcases reserve_cases config policy emailId now s.clock s.redis with
      ⟨hd, hredis⟩ | ⟨hnext, hnone, hroom, hd, hredis⟩ | ⟨hnext, ⟨reservedAt, hsome⟩, hd, hredis⟩
    · -- Denied.
      apply hinv.of_same_keys
      · intro start
        rw [hredis]
      · intro id
        rw [hredis]
      · intro start
        rw [newReservations_cons_reserved, hd]
        simp
      · intro a ha
        rw [admissions_cons_denied senderId policy emailId now hd] at ha
        exact Or.inl ha
    · -- Admitted with a new reservation.
      have hkept := hc hnext
      rw [hnone] at hkept
      have hstep := capInv_newReservation hinv hsender (hlimit hsender) emailId hroom (hkept hroom)
      rw [← hredis, ← hd] at hstep
      exact hstep
    · -- Admitted through a reservation, which the condition puts into the same hour.
      have hsame := hc hnext
      rw [hsome] at hsame
      obtain ⟨e, he, rfl, -⟩ := ExpiringStore.entry_of_get hsome
      -- The reservation was made in the hour of its value, and that hour is the hour of `now`.
      have hreserved : emailId ∈ newReservations senderId (hourStart now) s.history := by
        rw [hsender] at he
        have hmem := hinv.reserved emailId e he
        rw [hsame] at hmem
        exact hmem
      apply hinv.of_same_keys
      · intro start
        rw [hredis, ExpiringStore.setPx_of_ne _ (by simp)]
      · intro id
        rw [hredis, ExpiringStore.setPx_of_ne _ (by simp)]
      · intro start
        rw [newReservations_cons_reserved, hd]
        simp
      · intro a ha
        subst hsender
        rw [admissions_cons_admitted policy emailId now (by rw [hd]), List.mem_cons] at ha
        rcases ha with rfl | hold
        · exact Or.inr hreserved
        · exact Or.inl hold
  · -- The keys and the admissions of the sender are not touched.
    apply hinv.of_same_keys
    · intro start
      exact reserve_frame (by simpa using fun h _ => hsender h.symm) (by simp) (by simp)
    · intro id
      exact reserve_frame (by simp) (by simp) (by simpa using fun h _ => hsender h.symm)
    · intro start
      rw [newReservations_cons_reserved, if_neg (fun h => hsender h.1)]
    · intro a ha
      rw [admissions_cons_of_ne hsender] at ha
      exact Or.inl ha

/-- A seeding creates a counter only where none is kept, so it hides no reservation. -/
theorem capInv_seed (hinv : CapInv config senderId limit s) (policy : SenderPolicy)
    (acceptedCount : Nat) (lastAcceptedAt : Option Int) (now : Int) :
    CapInv config senderId limit (s.seed config policy acceptedCount lastAcceptedAt now) := by
  have hentry : ∀ start e, EmailScheduler.seed config policy acceptedCount lastAcceptedAt now
      s.clock s.redis (.hour senderId start) = some e →
        s.redis (.hour senderId start) = some e ∨ 0 ≤ e.value := by
    intro start e he
    by_cases hkey : RateKey.hour senderId start = .hour policy.senderId (hourStart now)
    -- The seed writes the counter of one hour, and only if the key is absent.
    · rw [hkey, seed_hour] at he
      rw [hkey]
      split at he
      · exact Or.inl he
      · cases he
        exact Or.inr (Int.natCast_nonneg acceptedCount)
    · rw [seed_frame config policy acceptedCount lastAcceptedAt now s.clock s.redis hkey
        (by simp)] at he
      exact Or.inl he
  constructor
  · intro emailId e he
    have hframe := seed_frame config policy acceptedCount lastAcceptedAt now s.clock s.redis
      (show RateKey.reservation senderId emailId ≠ .hour policy.senderId (hourStart now) by simp)
      (by simp)
    exact hinv.reserved emailId e (hframe.symm.trans he)
  · intro start e he
    rcases hentry start e he with hold | hnonneg
    · exact hinv.counter_nonneg start e hold
    · exact hnonneg
  · intro start hne hlt
    have hkept : s.clock < start + oneHourMilliseconds + config.rateLimitReservationTtlMs := hlt
    obtain ⟨v, hold, hle⟩ := hinv.counted start hne hkept
    refine ⟨v, ?_, hle⟩
    show EmailScheduler.seed config policy acceptedCount lastAcceptedAt now s.clock s.redis
      (.hour senderId start) = _
    by_cases hkey : RateKey.hour senderId start = .hour policy.senderId (hourStart now)
    · -- The counter is present, so the seeding leaves it.
      have hhas : s.redis.has s.clock (.hour senderId start) = true := by
        rw [ExpiringStore.has_eq_isSome_get, ExpiringStore.get_of_entry hold, if_pos hkept]
        rfl
      rw [hkey] at hhas hold ⊢
      rw [seed_hour, if_pos hhas]
      exact hold
    · rw [seed_frame config policy acceptedCount lastAcceptedAt now s.clock s.redis hkey (by simp)]
      exact hold
  · exact hinv.capped
  · exact hinv.admitted

end Limiter

end EmailScheduler
