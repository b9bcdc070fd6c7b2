import Mathlib.Tactic.Common

/-!
# Validated configuration

`environmentSchema` of `config/env.ts`, restricted to the integer settings that the scheduler reads.
`Environment` is a configuration after coercion of its fields to numbers; `AppConfig` is an
environment that the schema accepts, so the bounds the schema establishes travel with the value.

Strings, URLs, booleans and secrets are checked by the schema one field at a time and take part in
no cross-field check; they are left out.
-/

set_option autoImplicit false

namespace EmailScheduler

/-- Milliseconds in an hour; `oneHourMilliseconds` in the source. -/
def oneHourMilliseconds : Int := 60 * 60 * 1000

/-- The integer settings, after coercion. -/
structure Environment where
  workerConcurrency : Int
  defaultMinSendDelayMs : Int
  minSendDelayMs : Int
  maxSendDelayMs : Int
  defaultEmailsPerHour : Int
  maxEmailsPerHour : Int
  smtpMaxAttempts : Int
  smtpBackoffMs : Int
  processingLeaseMs : Int
  jobRetentionCount : Int
  reconciliationBatchSize : Int
  rateLimitReservationTtlMs : Int
  maxUploadBytes : Int
  maxLeadsPerBatch : Int
  maxSubjectLength : Int
  maxBodyLength : Int
  maxScheduleHorizonDays : Int
  apiPageSize : Int
  apiMaxPageSize : Int
deriving DecidableEq, Repr

/-- A cross-field issue: the path it is reported under and its message. -/
structure Issue where
  path : String
  message : String
deriving DecidableEq, Repr

/-- Integers that `z.number().int()` accepts. -/
def isSafeInteger (n : Int) : Bool := decide (-9007199254740991 ≤ n ∧ n ≤ 9007199254740991)

/-- `positiveInteger`. -/
def positiveInteger (n : Int) : Bool := isSafeInteger n && decide (0 < n)

/-- `nonNegativeInteger`. -/
def nonNegativeInteger (n : Int) : Bool := isSafeInteger n && decide (0 ≤ n)

/-- The names of the fields whose own check fails. -/
def invalidFields (e : Environment) : List String :=
  let positive := [
    ("WORKER_CONCURRENCY", e.workerConcurrency),
    ("MAX_SEND_DELAY_MS", e.maxSendDelayMs),
    ("DEFAULT_EMAILS_PER_HOUR", e.defaultEmailsPerHour),
    ("MAX_EMAILS_PER_HOUR", e.maxEmailsPerHour),
    ("SMTP_MAX_ATTEMPTS", e.smtpMaxAttempts),
    ("SMTP_BACKOFF_MS", e.smtpBackoffMs),
    ("PROCESSING_LEASE_MS", e.processingLeaseMs),
    ("JOB_RETENTION_COUNT", e.jobRetentionCount),
    ("RECONCILIATION_BATCH_SIZE", e.reconciliationBatchSize),
    ("RATE_LIMIT_RESERVATION_TTL_MS", e.rateLimitReservationTtlMs),
    ("MAX_UPLOAD_BYTES", e.maxUploadBytes),
    ("MAX_LEADS_PER_BATCH", e.maxLeadsPerBatch),
    ("MAX_SUBJECT_LENGTH", e.maxSubjectLength),
    ("MAX_BODY_LENGTH", e.maxBodyLength),
    ("MAX_SCHEDULE_HORIZON_DAYS", e.maxScheduleHorizonDays),
    ("API_PAGE_SIZE", e.apiPageSize),
    ("API_MAX_PAGE_SIZE", e.apiMaxPageSize)]
  let nonNegative := [
    ("DEFAULT_MIN_SEND_DELAY_MS", e.defaultMinSendDelayMs),
    ("MIN_SEND_DELAY_MS", e.minSendDelayMs)]
  (positive.filter fun field => !positiveInteger field.2).map Prod.fst ++
    (nonNegative.filter fun field => !nonNegativeInteger field.2).map Prod.fst

/-- The cross-field checks of `superRefine`, in order. -/
def superRefine (e : Environment) : List Issue :=
  (if e.minSendDelayMs > e.defaultMinSendDelayMs then
    [⟨"DEFAULT_MIN_SEND_DELAY_MS", "must be greater than or equal to MIN_SEND_DELAY_MS"⟩]
  else []) ++
  (if e.defaultMinSendDelayMs > e.maxSendDelayMs then
    [⟨"DEFAULT_MIN_SEND_DELAY_MS", "must be less than or equal to MAX_SEND_DELAY_MS"⟩]
  else []) ++
  (if e.defaultEmailsPerHour > e.maxEmailsPerHour then
    [⟨"DEFAULT_EMAILS_PER_HOUR", "must be less than or equal to MAX_EMAILS_PER_HOUR"⟩]
  else []) ++
  (if e.apiPageSize > e.apiMaxPageSize then
    [⟨"API_PAGE_SIZE", "must be less than or equal to API_MAX_PAGE_SIZE"⟩]
  else []) ++
  (if e.rateLimitReservationTtlMs < oneHourMilliseconds then
    [⟨"RATE_LIMIT_RESERVATION_TTL_MS", "must retain reservations for at least one hour"⟩]
  else [])

/-- An environment that `environmentSchema` accepts. -/
structure AppConfig extends Environment where
  fields_valid : invalidFields toEnvironment = []
  refined : superRefine toEnvironment = []

/-- `environmentSchema.safeParse`: the configuration, or the failing fields and the cross-field
issues. -/
def environmentSchema (e : Environment) : Except (List String × List Issue) AppConfig :=
  if h : invalidFields e = [] ∧ superRefine e = [] then
    .ok { toEnvironment := e, fields_valid := h.1, refined := h.2 }
  else .error (invalidFields e, superRefine e)

/-- The schema accepts exactly the configurations. -/
theorem environmentSchema_ok_iff (e : Environment) (config : AppConfig) :
    environmentSchema e = .ok config ↔ config.toEnvironment = e := by
  unfold environmentSchema
  constructor
  · intro h
    split at h
    · cases h
      rfl
    · cases h
  · rintro rfl
    rw [dif_pos ⟨config.fields_valid, config.refined⟩]

namespace AppConfig

variable (config : AppConfig)

private theorem positive_of_mem {e : Environment} {n : Int} (name : String)
    (hvalid : invalidFields e = [])
    (hn : positiveInteger n = false → name ∈ invalidFields e) : 0 < n := by
  by_contra hneg
  have hfalse : positiveInteger n = false := by
    simp [positiveInteger, hneg]
  have := hn hfalse
  simp [hvalid] at this

theorem zero_le_minSendDelayMs : 0 ≤ config.minSendDelayMs := by
  by_contra hneg
  have hfalse : nonNegativeInteger config.minSendDelayMs = false := by
    simp [nonNegativeInteger, hneg]
  have hinvalid : "MIN_SEND_DELAY_MS" ∈ invalidFields config.toEnvironment := by
    simp [invalidFields, hfalse]
  rw [config.fields_valid] at hinvalid
  cases hinvalid

theorem one_le_reconciliationBatchSize : 1 ≤ config.reconciliationBatchSize := by
  refine positive_of_mem "RECONCILIATION_BATCH_SIZE" config.fields_valid fun h => ?_
  simp [invalidFields, h]

theorem one_le_smtpMaxAttempts : 1 ≤ config.smtpMaxAttempts := by
  refine positive_of_mem "SMTP_MAX_ATTEMPTS" config.fields_valid fun h => ?_
  simp [invalidFields, h]

theorem one_le_smtpBackoffMs : 1 ≤ config.smtpBackoffMs := by
  refine positive_of_mem "SMTP_BACKOFF_MS" config.fields_valid fun h => ?_
  simp [invalidFields, h]

theorem one_le_maxEmailsPerHour : 1 ≤ config.maxEmailsPerHour := by
  refine positive_of_mem "MAX_EMAILS_PER_HOUR" config.fields_valid fun h => ?_
  simp [invalidFields, h]

theorem one_le_defaultEmailsPerHour : 1 ≤ config.defaultEmailsPerHour := by
  refine positive_of_mem "DEFAULT_EMAILS_PER_HOUR" config.fields_valid fun h => ?_
  simp [invalidFields, h]

theorem one_le_apiPageSize : 1 ≤ config.apiPageSize := by
  refine positive_of_mem "API_PAGE_SIZE" config.fields_valid fun h => ?_
  simp [invalidFields, h]

theorem defaultEmailsPerHour_le_max : config.defaultEmailsPerHour ≤ config.maxEmailsPerHour := by
  have := config.refined
  simp [superRefine] at this
  omega

theorem minSendDelayMs_le_default : config.minSendDelayMs ≤ config.defaultMinSendDelayMs := by
  have := config.refined
  simp [superRefine] at this
  omega

theorem defaultMinSendDelayMs_le_max : config.defaultMinSendDelayMs ≤ config.maxSendDelayMs := by
  have := config.refined
  simp [superRefine] at this
  omega

/-- Reservations are kept for at least one hour. -/
theorem oneHour_le_reservationTtl : oneHourMilliseconds ≤ config.rateLimitReservationTtlMs := by
  by_contra hlt
  have := config.refined
  simp [superRefine] at this
  omega

/-- The allowed delays form a nonempty interval. -/
theorem minSendDelayMs_le_max : config.minSendDelayMs ≤ config.maxSendDelayMs := by
  have := config.refined
  simp [superRefine] at this
  omega

end AppConfig

/-- `validEnvironment` of the configuration tests. -/
def validConfig : AppConfig where
  workerConcurrency := 4
  defaultMinSendDelayMs := 2000
  minSendDelayMs := 1000
  maxSendDelayMs := 60000
  defaultEmailsPerHour := 200
  maxEmailsPerHour := 1000
  smtpMaxAttempts := 3
  smtpBackoffMs := 1000
  processingLeaseMs := 30000
  jobRetentionCount := 1000
  reconciliationBatchSize := 250
  rateLimitReservationTtlMs := 7200000
  maxUploadBytes := 1048576
  maxLeadsPerBatch := 5000
  maxSubjectLength := 998
  maxBodyLength := 100000
  maxScheduleHorizonDays := 365
  apiPageSize := 25
  apiMaxPageSize := 100
  fields_valid := by decide
  refined := by decide

end EmailScheduler
