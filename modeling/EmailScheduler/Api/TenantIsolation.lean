import EmailScheduler.Api.TenantWrites
import EmailScheduler.Foundation.Transition

/-!
# Tenant isolation

Logins, requests and the writes of the worker, from empty tables and in any order. What a request
returns and what it does to the rows of its user depends on these rows alone, whatever ids, cursors
and keys it names; and it neither changes rows of another user nor hands a batch of another user to
`enqueueBatch` (`tenantIsolation`).
-/

set_option autoImplicit false

namespace EmailScheduler

open Foundation

/-! ## The system -/

inductive ApiEvent where
  | login (identity : GoogleIdentity) (ctx : LoginContext)
  | request (user : Uuid) (request : EmailRequest) (ctx : RequestContext)
  /-- Another process writes columns that do not say whose rows these are. -/
  | background (tables : Tables)

/-- The tables, under logins and requests one at a time, and the worker. -/
def apiSystem (config : AppConfig) (lib : Libraries) : TransitionSystem Tables ApiEvent where
  init t := t = {}
  step
    | .login identity ctx, t => some (upsertGoogleUser config identity ctx t).2
    | .request user request ctx, t => some (serve config lib user ctx request t).tables
    | .background t', t => if t.KeepsKeys t' then some t' else none

variable {config : AppConfig} {lib : Libraries} {user : Uuid} {ctx : RequestContext}
  {t t' : Tables}

/-! ## What a request does to the tables -/

/-- The end of a route of a user: what it wrote, and which batches it handed to the queue. -/
structure Confined (user : Uuid) (t : Tables) (s : ApiState) : Prop where
  write : TenantWrite user t s.tables
  enqueued : ∀ id ∈ s.enqueued, ∃ b ∈ s.tables.batches, b.id = id ∧ b.userId = user

theorem confined_start : Confined user t { tables := t } := ⟨.nothing, by simp⟩

/-- A route that is one statement or transaction. -/
theorem confined_onTables {α β : Type} {x : Statement α} (h : TenantWrite user t (x t).2)
    (response : α → β) :
    Confined user t ((onTables x >>= fun a => pure (response a)) { tables := t }).2 := by
  rw [Action.snd_bind_pure]
  exact ⟨h, by simp [onTables]⟩

theorem confined_readOnly {α β : Type} {x : Statement α} (h : x.ReadOnly) (response : α → β) :
    Confined user t ((onTables x >>= fun a => pure (response a)) { tables := t }).2 := by
  apply confined_onTables
  rw [h t]
  exact .nothing

theorem tenantWrite_postSenders (huser : ∃ v ∈ t.users, v.id = user)
    (body : Option CreateSenderBody) (id : Uuid) (now : Int) :
    TenantWrite user t (postSenders config lib user body id now t).2 := by
  apply (rollsBack_postSenders body id now).snd .nothing
  intro sender t' hok
  obtain ⟨input, normalized, -, rfl, hnew, rfl⟩ := postSenders_eq_ok hok
  exact .senderCreated _ now rfl huser (id_ne_of_undefault hnew)

theorem tenantWrite_patchSender (senderId : Option Uuid) (body : Option UpdateSenderBody)
    (now : Int) : TenantWrite user t (patchSender config lib user senderId body now t).2 := by
  apply (rollsBack_patchSender senderId body now).snd .nothing
  intro sender t' hok
  obtain ⟨input, current, data, -, hmem, howner, -, -, -, -, rfl⟩ := patchSender_eq_ok hok
  exact .senderUpdated _ _ now hmem howner

/-- Handing a batch of the user to the queue. -/
theorem confined_enqueueBatch {batch : StoredBatch} {t' : Tables} (hwrite : TenantWrite user t t')
    (hbatch : batch ∈ t'.batches) (howner : batch.userId = user) :
    Confined user t (enqueueBatch ctx batch.id { tables := t' }).2 := by
  refine ⟨hwrite, ?_⟩
  intro id hid
  have hid : id = batch.id := by
    simpa [enqueueBatch] using hid
  rw [hid]
  exact ⟨batch, hbatch, rfl, howner⟩

theorem confined_postEmailBatches (upload : Except String Upload) (header : Option String) :
    Confined user t (postEmailBatches config lib ctx user upload header { tables := t }).2 := by
  have hposted : PostedBatch config lib ctx user upload t
      (postEmailBatches config lib ctx user upload header { tables := t }).2 :=
    postedBatch_postEmailBatches upload header t
  generalize (postEmailBatches config lib ctx user upload header { tables := t }).2 = s at hposted ⊢
  cases hposted with
  | rejected => exact confined_start
  | found hbatch hown => exact confined_enqueueBatch .nothing hbatch hown
  | created _ hok _ htransaction =>
      have howner := batchInput_userId hok
      obtain ⟨rfl, rfl, hsender, hnew⟩ := batchTransaction_eq_ok htransaction
      exact confined_enqueueBatch (.batchCreated howner hsender hnew) (by simp [writeBatch]) howner

/-- **What a request does** to the tables and the queue. -/
theorem confined_route (huser : ∃ v ∈ t.users, v.id = user) (request : EmailRequest) :
    Confined user t (route config lib user ctx request { tables := t }).2 := by
  cases request with
  | getCompose => exact confined_start
  | getSenders => exact confined_onTables .nothing _
  | postSenders body =>
      exact confined_onTables (tenantWrite_postSenders huser body ctx.newId ctx.writtenAt) _
  | patchSender senderId body =>
      exact confined_onTables (tenantWrite_patchSender senderId body ctx.writtenAt) _
  | postEmailBatches upload idempotencyKey =>
      unfold route
      rw [Action.snd_bind_pure]
      exact confined_postEmailBatches upload idempotencyKey
  | getBatch batchId => exact confined_readOnly (readOnly_getBatch batchId) _
  | getScheduled query => exact confined_readOnly (readOnly_getScheduled query) _
  | getSent query => exact confined_readOnly (readOnly_getSent query) _

/-- **What a request does**, with its authentication. -/
theorem confined_serve (t : Tables) (request : EmailRequest) :
    TenantWrite user t (serve config lib user ctx request t).tables ∧
      ∀ id ∈ (serve config lib user ctx request t).enqueued,
        ∃ b ∈ (serve config lib user ctx request t).tables.batches, b.id = id ∧
          b.userId = user := by
  by_cases huser : ∃ v ∈ t.users, v.id = user
  · rw [serve_of_user huser]
    have hconfined : Confined user t (route config lib user ctx request { tables := t }).2 :=
      confined_route huser request
    exact ⟨hconfined.write, hconfined.enqueued⟩
  · rw [serve_of_no_user huser]
    exact ⟨.nothing, fun id hid => nomatch hid⟩

/-! ## Reachable tables -/

/-- A login keeps the references between rows. -/
theorem TenantInv.login {identity : GoogleIdentity} {ctx : LoginContext} (h : TenantInv t) :
    TenantInv (upsertGoogleUser config identity ctx t).2 := by
  apply (rollsBack_upsertGoogleUser config identity ctx).snd (R := fun _ t' => TenantInv t') h
  intro saved t' hok
  obtain ⟨user, -, huser, hsender, hbatches, hemails⟩ := upsertGoogleUser_eq_ok hok
  have hlogin : LogsIn config identity ctx t t' := ⟨user, huser, hsender⟩
  obtain ⟨hsenderKey, hkept, -⟩ := hsender.senders h.senderKey
  refine ⟨(huser.users h.userKey).1, hsenderKey, ?_, ?_, ?_, ?_, ?_, ?_⟩
  · rw [hbatches]
    exact h.batchKey
  · exact hlogin.owner h.userKey h.senderKey h.senderOwner
  · intro v hv
    obtain ⟨s, hs, howner, -⟩ := hlogin.hasSender h.userKey h.senderKey h.senderOwner
      (Q := fun _ => True) trivial (fun w hw => by simpa using h.userSender w hw) v hv
    exact ⟨s, hs, howner⟩
  · intro b hb
    rw [hbatches] at hb
    obtain ⟨s, hs, hid, howner⟩ := h.batchSender b hb
    obtain ⟨r, hr, hid', howner', -⟩ := hkept s hs
    exact ⟨r, hr, hid'.trans hid, howner'.trans howner⟩
  · rw [hbatches, hemails]
    exact h.emailBatch
  · rw [hemails]
    exact h.emailKeys

theorem tenantInv_of_reachable (h : (apiSystem config lib).Reachable TransitionSystem.anyStep t) :
    TenantInv t := by
  apply h.invariant
  · intro s hs
    cases hs
    exact .empty
  · intro s event s' _ hstep hs
    cases event with
    | login identity ctx =>
        cases hstep
        exact hs.login
    | request user request ctx =>
        cases hstep
        exact hs.write (confined_serve s request).1
    | background tables =>
        simp only [apiSystem] at hstep
        split at hstep
        next hkeys =>
          cases hstep
          exact hs.keepsKeys hkeys
        next => cases hstep

/-- Users are never removed. -/
theorem user_of_step {event : ApiEvent} (h : (apiSystem config lib).step event t = some t')
    (huser : ∃ v ∈ t.users, v.id = user) : ∃ v ∈ t'.users, v.id = user := by
  obtain ⟨v, hv, hid⟩ := huser
  cases event with
  | login identity loginCtx =>
      cases h
      apply (rollsBack_upsertGoogleUser config identity loginCtx).snd (R := fun _ t' : Tables =>
        ∃ v ∈ t'.users, v.id = user) ⟨v, hv, hid⟩
      intro saved t' hok
      obtain ⟨saved, -, hsaves, -⟩ := upsertGoogleUser_eq_ok hok
      rcases hsaves with ⟨-, -, husers⟩ | ⟨old, -, -, -, -, husers⟩
      · rw [husers]
        exact ⟨v, List.mem_append_left _ hv, hid⟩
      · rw [husers]
        refine ⟨_, mem_updateMany.2 ⟨v, hv, rfl⟩, ?_⟩
        split <;> exact hid
  | request other request ctx =>
      cases h
      have hwrite : TenantWrite other t (serve config lib other ctx request t).tables :=
        (confined_serve t request).1
      generalize (serve config lib other ctx request t).tables = t' at hwrite ⊢
      cases hwrite <;> exact ⟨v, hv, hid⟩
  | background tables =>
      simp only [apiSystem] at h
      split_ifs at h with hkeys
      cases h
      rw [hkeys.1]
      exact ⟨v, hv, hid⟩

/-- The database knows the users that have a sender. -/
theorem exists_user_iff (h : TenantInv t) :
    (∃ v ∈ t.users, v.id = user) ↔ ownSenders user t ≠ [] := by
  constructor
  · rintro ⟨v, hv, rfl⟩ hnone
    obtain ⟨s, hs, howner⟩ := h.userSender v hv
    have hmem := mem_ownSenders.2 ⟨hs, howner⟩
    rw [hnone] at hmem
    cases hmem
  · intro hsome
    obtain ⟨s, hs⟩ := List.exists_mem_of_ne_nil _ hsome
    obtain ⟨hs, howner⟩ := mem_ownSenders.1 hs
    obtain ⟨v, hv, hid⟩ := h.senderOwner s hs
    exact ⟨v, hv, hid.trans howner⟩

/-! ## Isolation -/

/-- A request of a user from two states: it ends the same way for the user, and in the first of them
it leaves the rows of every other user alone. -/
structure Isolated (user : Uuid) (t₁ : Tables) (r₁ r₂ : Served) : Prop where
  response : r₁.response = r₂.response
  ownRows : AgreeOn user r₁.tables r₂.tables
  enqueued : r₁.enqueued = r₂.enqueued
  otherRows : ∀ other, other ≠ user → AgreeOn other t₁ r₁.tables
  ownBatches : ∀ id ∈ r₁.enqueued, ∃ b ∈ r₁.tables.batches, b.id = id ∧ b.userId = user

/-- Two states that agree on the rows of a user: a request of the user ends in the same way. -/
theorem serve_agree {t₁ t₂ : Tables} (h₁ : TenantInv t₁) (h₂ : TenantInv t₂)
    (hagree : AgreeOn user t₁ t₂) (hfresh₁ : ctx.Fresh t₁) (hfresh₂ : ctx.Fresh t₂)
    (request : EmailRequest) :
    (serve config lib user ctx request t₁).response =
        (serve config lib user ctx request t₂).response ∧
      (serve config lib user ctx request t₁).enqueued =
        (serve config lib user ctx request t₂).enqueued ∧
      AgreeOn user (serve config lib user ctx request t₁).tables
        (serve config lib user ctx request t₂).tables := by
  have hknown : (∃ v ∈ t₁.users, v.id = user) ↔ ∃ v ∈ t₂.users, v.id = user := by
    rw [exists_user_iff h₁, exists_user_iff h₂, hagree.1]
  by_cases huser : ∃ v ∈ t₁.users, v.id = user
  · rw [serve_of_user huser, serve_of_user (hknown.1 huser)]
    -- Both runs are runs on the same rows of the user.
    have hcommutes : Action.Commutes (restrictState user) (fun s => Ready ctx s.tables)
        (route config lib user ctx request) (route config lib user ctx request) :=
      route_commutes request
    have hrun₁ := hcommutes { tables := t₁ } ⟨h₁, hfresh₁⟩
    have hrun₂ := hcommutes { tables := t₂ } ⟨h₂, hfresh₂⟩
    have hsame : restrictState user { tables := t₁ } = restrictState user { tables := t₂ } := by
      unfold restrictState
      dsimp only
      rw [restrict_eq_iff.2 hagree]
    rw [hsame, hrun₂] at hrun₁
    obtain ⟨hresponse, hstate⟩ := Prod.mk.inj hrun₁
    obtain ⟨htables, hqueue⟩ := ApiState.mk.inj hstate
    refine ⟨?_, hqueue.symm, restrict_eq_iff.1 htables.symm⟩
    unfold Served.of
    dsimp only
    rw [hresponse]
  · rw [serve_of_no_user huser, serve_of_no_user fun hfound => huser (hknown.2 hfound)]
    exact ⟨rfl, rfl, hagree⟩

/-- **Tenant isolation.** In any two reachable states that agree on the senders, batches and emails
of a user, every request of the user, with the same clock and the same new ids, has the same
response and the same effect on the rows of the user. It changes no row of another user, and the
batches that it hands to `enqueueBatch` are the user's own. -/
theorem tenantIsolation {t₁ t₂ : Tables}
    (h₁ : (apiSystem config lib).Reachable TransitionSystem.anyStep t₁)
    (h₂ : (apiSystem config lib).Reachable TransitionSystem.anyStep t₂)
    (hagree : AgreeOn user t₁ t₂) (hfresh₁ : ctx.Fresh t₁) (hfresh₂ : ctx.Fresh t₂)
    (request : EmailRequest) :
    Isolated user t₁ (serve config lib user ctx request t₁)
      (serve config lib user ctx request t₂) := by
  have hinv₁ := tenantInv_of_reachable h₁
  have hinv₂ := tenantInv_of_reachable h₂
  obtain ⟨hresponse, henqueued, hown⟩ := serve_agree hinv₁ hinv₂ hagree hfresh₁ hfresh₂ request
  obtain ⟨hwrite, hqueue⟩ := confined_serve t₁ request
  refine ⟨hresponse, hown, henqueued, ?_, hqueue⟩
  intro other hother
  exact agreeOn_of_tenantWrite hinv₁ hwrite hother

/-- An upload with one recipient. -/
def leadsUpload (senderId : Uuid) : Upload where
  body := some {
    senderId := .value senderId
    subject := .value "Hello"
    body := .value "Text"
    startAt := .value 1000
    hourlyLimit := .value 100
    minimumDelayMs := .value 2000 }
  file := some ⟨⟨#[97, 64, 98, 46, 99]⟩, "leads.txt", "text/plain"⟩

def contextOf (id : Uuid) : RequestContext where
  now := 0
  writtenAt := 0
  newId := id
  newEmailId i := 100 * id + i
  queueAvailable := true

/-- Two users log in. -/
def twoLogins : List ApiEvent :=
  [.login ⟨"first", "first@test.invalid", "First", none⟩ ⟨1, 10, 0⟩,
    .login ⟨"second", "second@test.invalid", "Second", none⟩ ⟨2, 20, 0⟩]

/-- A batch with the sender of the second user. -/
def scheduleWithSecond : EmailRequest :=
  .postEmailBatches (.ok (leadsUpload 20)) (some "first-batch")

theorem tenantIsolation_of_foreignSender :
    ∃ t₁ t₂, (apiSystem validConfig testLibraries).run TransitionSystem.anyStep
        (twoLogins ++ [.request 2 scheduleWithSecond (contextOf 30)]) {} = some t₁ ∧
      (apiSystem validConfig testLibraries).run TransitionSystem.anyStep twoLogins {} = some t₂ ∧
      (ownBatches 2 t₁).length = 1 ∧ ¬ AgreeOn 2 t₁ t₂ ∧
      (serve validConfig testLibraries 1 (contextOf 40) scheduleWithSecond t₁).response =
        .error 404 "SENDER_NOT_FOUND" "The active sender was not found" .none ∧
      Isolated 1 t₁ (serve validConfig testLibraries 1 (contextOf 40) scheduleWithSecond t₁)
        (serve validConfig testLibraries 1 (contextOf 40) scheduleWithSecond t₂) := by
  have hfresh : ∀ t : Tables, (∀ s ∈ t.senders, s.id ≠ 40) → (∀ b ∈ t.batches, b.id ≠ 40) →
      (∀ e ∈ t.emails, e.id < 4000) → (contextOf 40).Fresh t := by
    intro t hsender hbatch hemail
    refine ⟨hsender, hbatch, ?_⟩
    intro e he i
    have hid : e.id < 4000 := hemail e he
    have hnew : 4000 ≤ (contextOf 40).newEmailId i := Nat.le_add_right 4000 i
    exact (Nat.lt_of_lt_of_le hid hnew).ne
  have hisolated : ∀ t₁ t₂, (apiSystem validConfig testLibraries).run TransitionSystem.anyStep
      (twoLogins ++ [.request 2 scheduleWithSecond (contextOf 30)]) {} = some t₁ →
      (apiSystem validConfig testLibraries).run TransitionSystem.anyStep twoLogins {} = some t₂ →
      AgreeOn 1 t₁ t₂ → (contextOf 40).Fresh t₁ → (contextOf 40).Fresh t₂ →
      Isolated 1 t₁ (serve validConfig testLibraries 1 (contextOf 40) scheduleWithSecond t₁)
        (serve validConfig testLibraries 1 (contextOf 40) scheduleWithSecond t₂) := by
    intro t₁ t₂ hrun₁ hrun₂ hagree hfresh₁ hfresh₂
    exact tenantIsolation (TransitionSystem.reachable_of_run _ rfl hrun₁)
      (TransitionSystem.reachable_of_run _ rfl hrun₂) hagree hfresh₁ hfresh₂ scheduleWithSecond
  exact ⟨_, _, rfl, rfl, by decide, by decide, by decide, hisolated _ _ rfl rfl (by decide)
    (hfresh _ (by decide) (by decide) (by decide)) (hfresh _ (by decide) (by decide) (by decide))⟩

end EmailScheduler
