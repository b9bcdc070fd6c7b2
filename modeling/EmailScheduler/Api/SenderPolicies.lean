import EmailScheduler.Api.Router
import EmailScheduler.Delivery.Executions
import EmailScheduler.RateLimit.Spacing
import EmailScheduler.RateLimit.RateSeed

/-!
# The range of sender policies

Four statements write the policy of a sender: a login that creates one, with the defaults of the
configuration; `POST /senders` and `PATCH /senders/:senderId`, with values that their schemas have
checked; and a created batch, which copies the policy of its request. Each of them leaves every
policy within the bounds of the configuration.

`Application` puts the API and the worker over one database, so that the policies the worker hands
to the limiter can be traced back to these statements (`policiesInRange`).
-/

set_option autoImplicit false

namespace EmailScheduler

open Foundation

/-- The policies of all senders are within the bounds of the configuration. -/
def PoliciesAccepted (config : AppConfig) (senders : List StoredSender) : Prop :=
  ∀ s ∈ senders, AcceptedPolicy config s.toEmailSender.policy

variable {config : AppConfig} {lib : Libraries} {user : Uuid} {ctx : RequestContext}
  {t t' : Tables} {senders : List StoredSender}

/-! ## Updates -/

/-- The values that an update writes are within the bounds. -/
structure SenderData.Accepted (config : AppConfig) (data : SenderData) : Prop where
  hourlyLimit : ∀ n ∈ data.hourlyLimit, 1 ≤ n ∧ n ≤ config.maxEmailsPerHour
  minimumDelayMs : ∀ n ∈ data.minimumDelayMs, config.minSendDelayMs ≤ n ∧ n ≤ config.maxSendDelayMs

/-- An update that writes no policy. -/
theorem SenderData.accepted_of_none {data : SenderData} (hlimit : data.hourlyLimit = none)
    (hdelay : data.minimumDelayMs = none) : data.Accepted config := by
  constructor
  · rw [hlimit]
    intro n hn
    cases hn
  · rw [hdelay]
    intro n hn
    cases hn

theorem SenderData.Accepted.apply {data : SenderData} (h : data.Accepted config) {now : Int}
    {s : StoredSender} (hs : AcceptedPolicy config s.toEmailSender.policy) :
    AcceptedPolicy config (data.apply now s).toEmailSender.policy := by
  obtain ⟨hlow, hhigh, hlow', hhigh'⟩ := hs
  have hlimit : 1 ≤ data.hourlyLimit.getD s.hourlyLimit ∧
      data.hourlyLimit.getD s.hourlyLimit ≤ config.maxEmailsPerHour := by
    cases hdata : data.hourlyLimit with
    | none => exact ⟨hlow, hhigh⟩
    | some n => exact h.hourlyLimit n hdata
  have hdelay : config.minSendDelayMs ≤ data.minimumDelayMs.getD s.minimumDelayMs ∧
      data.minimumDelayMs.getD s.minimumDelayMs ≤ config.maxSendDelayMs := by
    cases hdata : data.minimumDelayMs with
    | none => exact ⟨hlow', hhigh'⟩
    | some n => exact h.minimumDelayMs n hdata
  exact ⟨hlimit.1, hlimit.2, hdelay.1, hdelay.2⟩

theorem PoliciesAccepted.updateMany (h : PoliciesAccepted config senders) {data : SenderData}
    (hdata : data.Accepted config) (p : StoredSender → Bool) (now : Int) :
    PoliciesAccepted config (updateMany p (data.apply now) senders) := by
  intro r hr
  obtain ⟨s, hs, rfl⟩ := mem_updateMany.1 hr
  split
  · exact hdata.apply (h s hs)
  · exact h s hs

theorem PoliciesAccepted.undefault (h : PoliciesAccepted config senders) (c : Bool)
    (p : StoredSender → Bool) (now : Int) :
    PoliciesAccepted config (undefault c p now senders) := by
  unfold EmailScheduler.undefault
  split
  · exact h.updateMany (SenderData.accepted_of_none rfl rfl) p now
  · exact h

theorem PoliciesAccepted.append (h : PoliciesAccepted config senders) {s : StoredSender}
    (hs : AcceptedPolicy config s.toEmailSender.policy) :
    PoliciesAccepted config (senders ++ [s]) := by
  intro r hr
  rcases List.mem_append.1 hr with hr | hr
  · exact h r hr
  · rw [List.mem_singleton.1 hr]
    exact hs

/-! ## The four writes -/

/-- The defaults of a configuration are within its bounds. -/
theorem acceptedPolicy_loginSender (config : AppConfig) (identity : GoogleIdentity)
    (ctx : LoginContext) (user : User) :
    AcceptedPolicy config (loginSender config identity ctx user).toEmailSender.policy :=
  ⟨config.one_le_defaultEmailsPerHour, config.defaultEmailsPerHour_le_max,
    config.minSendDelayMs_le_default, config.defaultMinSendDelayMs_le_max⟩

theorem PoliciesAccepted.login (h : PoliciesAccepted config t.senders) (identity : GoogleIdentity)
    (ctx : LoginContext) :
    PoliciesAccepted config (upsertGoogleUser config identity ctx t).2.senders := by
  apply (rollsBack_upsertGoogleUser config identity ctx).snd (R := fun _ t' =>
    PoliciesAccepted config t'.senders) h
  intro saved t' hok
  obtain ⟨user, -, -, hsender, -, -⟩ := upsertGoogleUser_eq_ok hok
  rcases hsender with ⟨-, -, hsenders⟩ | ⟨sender, -, -, -, hsenders⟩
  · rw [hsenders]
    exact h.append (acceptedPolicy_loginSender config identity ctx user)
  · -- A sender that exists keeps its policy.
    rw [hsenders]
    exact h.updateMany (SenderData.accepted_of_none rfl rfl) _ _

/-- A body that `createSenderSchema` accepts has a policy within the bounds. -/
theorem createSenderSchema_accepted {body : Option CreateSenderBody} {input : CreateSenderInput}
    (h : createSenderSchema config lib body = .ok input) :
    (1 ≤ input.hourlyLimit ∧ input.hourlyLimit ≤ config.maxEmailsPerHour) ∧
      config.minSendDelayMs ≤ input.minimumDelayMs ∧
      input.minimumDelayMs ≤ config.maxSendDelayMs := by
  cases body with
  | none => cases h
  | some fields =>
      unfold createSenderSchema at h
      dsimp only at h
      split at h
      next displayName email isDefault hourlyLimit minimumDelayMs _ _ _ hlimit hdelay _ =>
        cases h
        obtain ⟨limit, -, hcheck⟩ := Field.required_eq_some hlimit
        obtain ⟨delay, -, hcheck'⟩ := Field.required_eq_some hdelay
        obtain ⟨rfl, hlimit⟩ := integerWithin_eq_some hcheck
        obtain ⟨rfl, hdelay⟩ := integerWithin_eq_some hcheck'
        exact ⟨hlimit, hdelay⟩
      next => cases h

theorem PoliciesAccepted.postSenders (h : PoliciesAccepted config t.senders)
    {body : Option CreateSenderBody} {id : Uuid} {now : Int} {sender : StoredSender}
    (hok : postSenders config lib user body id now t = (.ok sender, t')) :
    PoliciesAccepted config t'.senders := by
  obtain ⟨input, normalized, hschema, rfl, -, rfl⟩ := postSenders_eq_ok hok
  obtain ⟨⟨hlow, hhigh⟩, hlow', hhigh'⟩ := createSenderSchema_accepted hschema
  exact (h.undefault _ _ _).append ⟨hlow, hhigh, hlow', hhigh'⟩

/-- A value of an optional field has passed the field's check. -/
theorem Field.optional_eq_some {α β : Type} {check : α → Option β} {field : Field α}
    {checked : Option β}
    (h : field.optional check = some checked) {b : β} (hb : b ∈ checked) :
    ∃ a, check a = some b := by
  cases field with
  | missing =>
      cases h
      cases hb
  | invalid => cases h
  | value a =>
      obtain ⟨b', hcheck, rfl⟩ := Option.map_eq_some_iff.1 h
      cases hb
      exact ⟨a, hcheck⟩

/-- The policy in a body that `updateSenderSchema` accepts is within the bounds. -/
theorem updateSenderSchema_accepted {body : Option UpdateSenderBody} {input : UpdateSenderInput}
    (h : updateSenderSchema config lib body = .ok input) :
    (∀ n ∈ input.hourlyLimit, 1 ≤ n ∧ n ≤ config.maxEmailsPerHour) ∧
      ∀ n ∈ input.minimumDelayMs, config.minSendDelayMs ≤ n ∧ n ≤ config.maxSendDelayMs := by
  cases body with
  | none => cases h
  | some fields =>
      unfold updateSenderSchema at h
      dsimp only at h
      split at h
      next => cases h
      next displayName email isDefault isActive hourlyLimit minimumDelayMs _ _ _ _ _
        hlimit hdelay _ =>
        cases h
        constructor
        · intro n hn
          obtain ⟨limit, hcheck⟩ := Field.optional_eq_some hlimit hn
          obtain ⟨rfl, hwithin⟩ := integerWithin_eq_some hcheck
          exact hwithin
        · intro n hn
          obtain ⟨delay, hcheck⟩ := Field.optional_eq_some hdelay hn
          obtain ⟨rfl, hwithin⟩ := integerWithin_eq_some hcheck
          exact hwithin
      next => cases h

/-- What `PATCH /senders/:senderId` writes is within the bounds. -/
theorem updateData_accepted {body : Option UpdateSenderBody} {input : UpdateSenderInput}
    {data : SenderData} (hschema : updateSenderSchema config lib body = .ok input)
    (hdata : updateData lib input = .ok data) : (withActive input data).Accepted config := by
  obtain ⟨hlimit, hdelay⟩ := updateSenderSchema_accepted hschema
  have hpolicy : data.hourlyLimit = input.hourlyLimit ∧
      data.minimumDelayMs = input.minimumDelayMs := by
    unfold updateData at hdata
    dsimp only at hdata
    split at hdata
    next =>
      cases hdata
      exact ⟨rfl, rfl⟩
    next email _ =>
      cases hemail : normalizedSenderEmail lib email with
      | error e =>
          rw [hemail] at hdata
          cases hdata
      | ok normalized =>
          rw [hemail] at hdata
          cases hdata
          exact ⟨rfl, rfl⟩
  have hactive : (withActive input data).hourlyLimit = input.hourlyLimit ∧
      (withActive input data).minimumDelayMs = input.minimumDelayMs := by
    unfold withActive
    split
    · exact hpolicy
    · exact hpolicy
  exact ⟨by rw [hactive.1]; exact hlimit, by rw [hactive.2]; exact hdelay⟩

theorem PoliciesAccepted.patchSender (h : PoliciesAccepted config t.senders)
    {senderId : Option Uuid}
    {body : Option UpdateSenderBody} {now : Int} {sender : StoredSender}
    (hok : patchSender config lib user senderId body now t = (.ok sender, t')) :
    PoliciesAccepted config t'.senders := by
  obtain ⟨input, current, data, hschema, -, -, -, -, hdata, -, rfl⟩ := patchSender_eq_ok hok
  exact (h.undefault _ _ _).updateMany (updateData_accepted hschema hdata) _ _

/-- A created batch gives the policy of its request to the sender. -/
theorem PoliciesAccepted.batchTransaction (h : PoliciesAccepted config t.senders) {form : Upload}
    {key : String} {input : CreateBatchInput} {batch : StoredBatch}
    (hinput : batchInput config lib user key form ctx.now = .ok input)
    (hok : batchTransaction input ctx t = (.ok batch, t')) :
    PoliciesAccepted config t'.senders := by
  obtain ⟨request, leads, hschema, -, -, -, -, rfl⟩ := batchInput_eq_ok hinput
  obtain ⟨fields, -, -, -, -, hlow, hhigh, hlow', hhigh'⟩ := scheduleSchema_eq_ok hschema
  obtain ⟨-, rfl, -, -⟩ := batchTransaction_eq_ok hok
  refine h.updateMany ⟨?_, ?_⟩ _ _
  · intro n hn
    cases hn
    exact ⟨hlow, hhigh⟩
  · intro n hn
    cases hn
    exact ⟨hlow', hhigh'⟩

/-- A route that is one statement leaves the tables as the statement does. -/
theorem tables_onTables {α β : Type} (x : Statement α) (response : α → β) :
    ((onTables x >>= fun a => pure (response a)) { tables := t }).2.tables = (x t).2 := by
  rw [Action.snd_bind_pure]
  rfl

/-- **A request** leaves the policies within the bounds. -/
theorem PoliciesAccepted.route (h : PoliciesAccepted config t.senders) (request : EmailRequest) :
    PoliciesAccepted config
      (route config lib user ctx request { tables := t }).2.tables.senders := by
  have hreadOnly : ∀ {α β : Type} {x : Statement α}, x.ReadOnly → ∀ response : α → β,
      PoliciesAccepted config
        ((onTables x >>= fun a => pure (response a)) { tables := t }).2.tables.senders := by
    intro α β x hx response
    rw [tables_onTables, hx t]
    exact h
  cases request with
  | getCompose => exact h
  | getSenders => exact hreadOnly (Action.readOnly_read _) _
  | postSenders body =>
      unfold EmailScheduler.route
      rw [tables_onTables]
      apply (rollsBack_postSenders body ctx.newId ctx.writtenAt).snd (R := fun _ t' =>
        PoliciesAccepted config t'.senders) h
      intro sender t' hok
      exact h.postSenders hok
  | patchSender senderId body =>
      unfold EmailScheduler.route
      rw [tables_onTables]
      apply (rollsBack_patchSender senderId body ctx.writtenAt).snd (R := fun _ t' =>
        PoliciesAccepted config t'.senders) h
      intro sender t' hok
      exact h.patchSender hok
  | postEmailBatches upload header =>
      unfold EmailScheduler.route
      rw [Action.snd_bind_pure]
      have heffect : ScheduleEffect config lib ctx user upload t
          (postEmailBatches config lib ctx user upload header { tables := t }).2 :=
        scheduleEffect_postEmailBatches upload header t
      cases heffect with
      | nothing hsame =>
          rw [hsame]
          exact h
      | created _ hinput _ htransaction => exact h.batchTransaction hinput htransaction
  | getBatch batchId => exact hreadOnly (readOnly_getBatch batchId) _
  | getScheduled query => exact hreadOnly (readOnly_getScheduled query) _
  | getSent query => exact hreadOnly (readOnly_getSent query) _

theorem PoliciesAccepted.serve (h : PoliciesAccepted config t.senders) (request : EmailRequest) :
    PoliciesAccepted config (serve config lib user ctx request t).tables.senders := by
  by_cases huser : ∃ v ∈ t.users, v.id = user
  · rw [serve_of_user huser]
    exact h.route request
  · rw [serve_of_no_user huser]
    exact h

end EmailScheduler
