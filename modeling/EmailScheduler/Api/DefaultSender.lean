import EmailScheduler.Api.GoogleUser
import EmailScheduler.Api.Senders
import EmailScheduler.Foundation.Transition
import EmailScheduler.Foundation.UniqueIndex

/-!
# Default senders

Logins, `POST /senders` and `PATCH /senders/:senderId`, one at a time and in any order.

A user who has logged in always has a default sender, and default senders are active
(`usableDefault_of_login`). At most one default sender is kept by both routes, which take the flag
from the other senders first. A login does not: it creates a second default sender when the Google
email of a known user is not the address of one of the user's senders
(`atMostOneDefault_of_reachable`).
-/

set_option autoImplicit false

namespace EmailScheduler

open Foundation

/-! ## The calls -/

/-- A login, or a request with the id of its user. -/
inductive SenderCall where
  | login (identity : GoogleIdentity) (ctx : LoginContext)
  | create (user : Uuid) (body : Option CreateSenderBody) (id : Uuid) (now : Int)
  | update (user : Uuid) (senderId : Option Uuid) (body : Option UpdateSenderBody) (now : Int)
deriving DecidableEq, Repr

/-- The result of a call that is not rejected. -/
inductive SenderResult where
  | user (user : AuthenticatedUser)
  | sender (sender : StoredSender)
deriving DecidableEq, Repr

namespace SenderCall

variable (config : AppConfig) (lib : Libraries)

def run : SenderCall → Statement SenderResult
  | .login identity ctx => do
      let user ← upsertGoogleUser config identity ctx
      return .user user
  | .create user body id now => do
      let sender ← authenticated user (postSenders config lib user body id now)
      return .sender sender
  | .update user senderId body now => do
      let sender ← authenticated user (patchSender config lib user senderId body now)
      return .sender sender

end SenderCall

/-- The calls, one at a time, from an empty database. -/
def senderSystem (config : AppConfig) (lib : Libraries) : TransitionSystem Tables SenderCall where
  init t := t = {}
  step call t := some (call.run config lib t).2

variable {config : AppConfig} {lib : Libraries} {t t' : Tables} {call : SenderCall}

/-- **A rejected call changes nothing.** -/
theorem SenderCall.rollsBack (call : SenderCall) : (call.run config lib).RollsBack := by
  cases call with
  | login identity ctx =>
      exact (rollsBack_upsertGoogleUser config identity ctx).bind_pure SenderResult.user
  | create user body id now =>
      apply Action.RollsBack.bind_pure _ SenderResult.sender
      exact Action.RollsBack.bind (Action.readOnly_throwIf _ _) fun _ =>
        rollsBack_postSenders body id now
  | update user senderId body now =>
      apply Action.RollsBack.bind_pure _ SenderResult.sender
      exact Action.RollsBack.bind (Action.readOnly_throwIf _ _) fun _ =>
        rollsBack_patchSender senderId body now

/-! ## What a call does -/

/-- A login that is not rejected. -/
def LogsIn (config : AppConfig) (identity : GoogleIdentity) (ctx : LoginContext)
    (t t' : Tables) : Prop :=
  ∃ user, SavesUser identity ctx t t' user ∧ SavesSender config identity ctx t t' user

/-- A sender that the user creates. -/
def CreatesSender (user : Uuid) (now : Int) (t t' : Tables) : Prop :=
  ∃ sender : StoredSender, sender.userId = user ∧ sender.isActive = true ∧
    (∀ s ∈ t.senders, s.id ≠ sender.id) ∧ t'.users = t.users ∧
    t'.senders = undefault sender.isDefault (fun s => decide (s.userId = user)) now t.senders ++
      [sender]

/-- A sender of the user that is updated: the flags that are asked for, and those of the row. -/
def UpdatesSender (user : Uuid) (now : Int) (t t' : Tables) : Prop :=
  ∃ (current : StoredSender) (data : SenderData), current ∈ t.senders ∧ current.userId = user ∧
    (current.isDefault = true → data.isActive ≠ some false ∧ data.isDefault ≠ some false) ∧
    (data.isDefault = some true → data.isActive = some true) ∧ t'.users = t.users ∧
    t'.senders = updateMany (fun s => decide (s.id = current.id)) (data.apply now)
      (undefault (decide (data.isDefault = some true))
        (isOtherSender user current.id) now t.senders)

theorem updateData_eq_ok {input : UpdateSenderInput} {data : SenderData}
    (h : updateData lib input = .ok data) :
    data.isDefault = input.isDefault ∧ data.isActive = input.isActive := by
  unfold updateData at h
  cases hemail : input.email with
  | none =>
      rw [hemail] at h
      cases h
      exact ⟨rfl, rfl⟩
  | some email =>
      rw [hemail] at h
      cases hnormalized : normalizedSenderEmail lib email with
      | error e =>
          simp only [hnormalized] at h
          cases h
      | ok normalized =>
          simp only [hnormalized] at h
          cases h
          exact ⟨rfl, rfl⟩

/-- The checks of an update, and what they leave to be written. -/
theorem flags_of_checkUpdate {current : StoredSender} {input : UpdateSenderInput}
    {data : SenderData} (hcheck : checkUpdate current input = .ok ())
    (hdata : updateData lib input = .ok data) :
    (current.isDefault = true → (withActive input data).isActive ≠ some false ∧
      (withActive input data).isDefault ≠ some false) ∧
    ((withActive input data).isDefault = some true →
      (withActive input data).isActive = some true) ∧
    (withActive input data).isDefault = input.isDefault := by
  obtain ⟨hdefault, hactive⟩ := updateData_eq_ok hdata
  unfold checkUpdate at hcheck
  unfold withActive
  split_ifs at hcheck with h₁ h₂ h₃
  split_ifs with hnew
  · simp [hdefault, hnew]
  · simp only [hdefault, hactive]
    refine ⟨fun hcurrent => ⟨fun h => h₁ ⟨hcurrent, h⟩, fun h => h₂ ⟨hcurrent, h⟩⟩, ?_, trivial⟩
    intro h
    exact absurd h hnew

/-- **What a call does.** A call that is not rejected logs in, or creates or updates a sender of a
user. -/
theorem SenderCall.eq_ok {result : SenderResult}
    (h : call.run config lib t = (.ok result, t')) :
    match call with
    | .login identity ctx => LogsIn config identity ctx t t'
    | .create user _ _ now => (∃ v ∈ t.users, v.id = user) ∧ CreatesSender user now t t'
    | .update user _ _ now => (∃ v ∈ t.users, v.id = user) ∧ UpdatesSender user now t t' := by
  cases call with
  | login identity ctx =>
      obtain ⟨saved, t₁, hlogin, hreturn⟩ := Action.bind_eq_ok h
      cases hreturn
      obtain ⟨user, -, huser, hsender, -, -⟩ := upsertGoogleUser_eq_ok hlogin
      exact ⟨user, huser, hsender⟩
  | create user body id now =>
      obtain ⟨sender, t₁, hroute, hreturn⟩ := Action.bind_eq_ok h
      cases hreturn
      obtain ⟨huser, hpost⟩ := authenticated_eq_ok hroute
      obtain ⟨input, normalized, -, rfl, hnew, rfl⟩ := postSenders_eq_ok hpost
      exact ⟨huser, createdSender user input normalized id now, rfl, rfl, id_ne_of_undefault hnew,
        rfl, rfl⟩
  | update user senderId body now =>
      obtain ⟨sender, t₁, hroute, hreturn⟩ := Action.bind_eq_ok h
      cases hreturn
      obtain ⟨huser, hpatch⟩ := authenticated_eq_ok hroute
      obtain ⟨input, current, data, -, hmem, howner, -, hcheck, hdata, -, rfl⟩ :=
        patchSender_eq_ok hpatch
      obtain ⟨hkeep, hactive, hflag⟩ := flags_of_checkUpdate hcheck hdata
      refine ⟨huser, current, withActive input data, hmem, howner, hkeep, hactive, rfl, ?_⟩
      rw [hflag]

/-! ## Every user has a default sender -/

/-- Every user has a default sender, and default senders are active. -/
structure DefaultInv (t : Tables) : Prop where
  userKey : PrimaryKey User.id t.users
  senderKey : PrimaryKey (fun s : StoredSender => s.id) t.senders
  owner : ∀ s ∈ t.senders, ∃ v ∈ t.users, v.id = s.userId
  hasDefault : ∀ v ∈ t.users, ∃ s ∈ t.senders, s.userId = v.id ∧ s.isDefault = true
  active : ∀ s ∈ t.senders, s.isDefault = true → s.isActive = true

namespace DefaultInv

theorem empty : DefaultInv {} where
  userKey := List.nodup_nil
  senderKey := List.nodup_nil
  owner := by simp
  hasDefault := by simp
  active := by simp

end DefaultInv

/-- The users after a login: those before it, and the one that logs in. -/
theorem SavesUser.users {identity : GoogleIdentity} {ctx : LoginContext} {user : User}
    (h : SavesUser identity ctx t t' user) (hkey : PrimaryKey User.id t.users) :
    PrimaryKey User.id t'.users ∧ (∃ v ∈ t'.users, v.id = user.id) ∧
      (∀ w ∈ t.users, ∃ v ∈ t'.users, v.id = w.id) ∧
      ∀ v ∈ t'.users, v.id = user.id ∨ ∃ w ∈ t.users, w.id = v.id := by
  rcases h with ⟨-, hnew, husers⟩ | ⟨old, hold, rfl, -, -, husers⟩
  · -- A new user fits the unique index, so its id is new.
    rw [husers]
    refine ⟨?_, ⟨user, by simp, rfl⟩, fun w hw => ⟨w, by simp [hw], rfl⟩, ?_⟩
    · apply hkey.append (.singleton _ _)
      intro v hv w hw heq
      rw [List.mem_singleton] at hw
      subst hw
      exact id_ne_of_userConflict (hnew v hv) heq.symm
    · intro v hv
      rcases List.mem_append.1 hv with hv | hv
      · exact Or.inr ⟨v, hv, rfl⟩
      · rw [List.mem_singleton] at hv
        exact Or.inl (congrArg User.id hv)
  · rw [husers]
    -- The update of a known user keeps its id.
    have hids : ∀ v, (updatedUser identity ctx v).id = v.id := fun _ => rfl
    refine ⟨hkey.updateMany hids, ?_, ?_, ?_⟩
    · exact ⟨_, mem_updateMany.2 ⟨old, List.mem_of_find?_eq_some hold, rfl⟩, by simp [hids]⟩
    · intro w hw
      refine ⟨_, mem_updateMany.2 ⟨w, hw, rfl⟩, ?_⟩
      split <;> rfl
    · intro v hv
      obtain ⟨w, hw, rfl⟩ := mem_updateMany.1 hv
      refine Or.inr ⟨w, hw, ?_⟩
      split <;> rfl

/-- The flags and owners of the senders after a login: as before, and for a sender that it creates
those of a default sender. -/
theorem SavesSender.senders {identity : GoogleIdentity} {ctx : LoginContext} {user : User}
    (h : SavesSender config identity ctx t t' user)
    (hkey : PrimaryKey (fun s : StoredSender => s.id) t.senders) :
    PrimaryKey (fun s : StoredSender => s.id) t'.senders ∧
      (∀ s ∈ t.senders, ∃ r ∈ t'.senders, r.id = s.id ∧ r.userId = s.userId ∧
        r.isDefault = s.isDefault) ∧
      ∀ r ∈ t'.senders, r = loginSender config identity ctx user ∨
        ∃ s ∈ t.senders, r.id = s.id ∧ r.userId = s.userId ∧ r.isDefault = s.isDefault ∧
          r.isActive = s.isActive := by
  rcases h with ⟨-, hnew, hsenders⟩ | ⟨sender, -, -, -, hsenders⟩
  · rw [hsenders]
    refine ⟨?_, fun s hs => ⟨s, by simp [hs], rfl, rfl, rfl⟩, ?_⟩
    · apply hkey.append (.singleton _ _)
      intro s hs r hr heq
      rw [List.mem_singleton] at hr
      subst hr
      exact id_ne_of_senderConflict (hnew s hs) heq.symm
    · intro r hr
      rcases List.mem_append.1 hr with hr | hr
      · exact Or.inr ⟨r, hr, rfl, rfl, rfl, rfl⟩
      · exact Or.inl (List.mem_singleton.1 hr)
  · rw [hsenders]
    refine ⟨hkey.updateMany fun _ => rfl, ?_, ?_⟩
    · intro s hs
      refine ⟨_, mem_updateMany.2 ⟨s, hs, rfl⟩, ?_⟩
      split <;> exact ⟨rfl, rfl, rfl⟩
    · intro r hr
      obtain ⟨s, hs, rfl⟩ := mem_updateMany.1 hr
      refine Or.inr ⟨s, hs, ?_⟩
      split <;> exact ⟨rfl, rfl, rfl, rfl⟩

section Login

variable {identity : GoogleIdentity} {ctx : LoginContext}

/-- After a login every sender still has an owner. -/
theorem LogsIn.owner (h : LogsIn config identity ctx t t') (huserKey : PrimaryKey User.id t.users)
    (hsenderKey : PrimaryKey (fun s : StoredSender => s.id) t.senders)
    (howner : ∀ s ∈ t.senders, ∃ v ∈ t.users, v.id = s.userId) :
    ∀ r ∈ t'.senders, ∃ v ∈ t'.users, v.id = r.userId := by
  obtain ⟨user, huser, hsender⟩ := h
  obtain ⟨-, hsaved, hkept, -⟩ := huser.users huserKey
  obtain ⟨-, -, hsenders⟩ := hsender.senders hsenderKey
  intro r hr
  rcases hsenders r hr with rfl | ⟨s, hs, -, howner', -⟩
  · exact hsaved
  · obtain ⟨w, hw, hid⟩ := howner s hs
    obtain ⟨v, hv, hid'⟩ := hkept w hw
    exact ⟨v, hv, hid'.trans (hid.trans howner'.symm)⟩

/-- After a login every user still has a sender with a flag that default senders have. -/
theorem LogsIn.hasSender (h : LogsIn config identity ctx t t')
    (huserKey : PrimaryKey User.id t.users)
    (hsenderKey : PrimaryKey (fun s : StoredSender => s.id) t.senders)
    (howner : ∀ s ∈ t.senders, ∃ v ∈ t.users, v.id = s.userId) {Q : Bool → Prop} (hQ : Q true)
    (hhas : ∀ v ∈ t.users, ∃ s ∈ t.senders, s.userId = v.id ∧ Q s.isDefault) :
    ∀ v ∈ t'.users, ∃ s ∈ t'.senders, s.userId = v.id ∧ Q s.isDefault := by
  obtain ⟨user, huser, hsender⟩ := h
  obtain ⟨-, -, -, husers⟩ := huser.users huserKey
  obtain ⟨-, hsendersKept, -⟩ := hsender.senders hsenderKey
  -- A known user keeps its sender.
  have hknown : ∀ w ∈ t.users, ∃ r ∈ t'.senders, r.userId = w.id ∧ Q r.isDefault := by
    intro w hw
    obtain ⟨s, hs, howner', hflag⟩ := hhas w hw
    obtain ⟨r, hr, -, howner'', hflag'⟩ := hsendersKept s hs
    rw [← hflag'] at hflag
    exact ⟨r, hr, howner''.trans howner', hflag⟩
  intro v hv
  rcases husers v hv with hid | ⟨w, hw, hid⟩
  · rcases huser with ⟨-, hnew, -⟩ | ⟨old, hold, rfl, -⟩
    · -- No sender is there for a new user, so the login creates one.
      rcases hsender with ⟨-, -, hcreated⟩ | ⟨sender, hmem, howner', -⟩
      · rw [hcreated]
        exact ⟨_, List.mem_append_right _ (List.mem_singleton_self _), hid.symm, hQ⟩
      · obtain ⟨w, hw, hw'⟩ := howner sender hmem
        exact absurd (hw'.trans howner').symm (id_ne_of_userConflict (hnew w hw))
    · rw [hid]
      exact hknown old (List.mem_of_find?_eq_some hold)
  · rw [← hid]
    exact hknown w hw

end Login

namespace DefaultInv

/-- A login keeps the invariant: the sender of a new user is a default sender. -/
theorem login {identity : GoogleIdentity} {ctx : LoginContext} (h : DefaultInv t)
    (hlogin : LogsIn config identity ctx t t') : DefaultInv t' := by
  have howner := hlogin.owner h.userKey h.senderKey h.owner
  have hdefault := hlogin.hasSender h.userKey h.senderKey h.owner (Q := fun flag => flag = true) rfl
    h.hasDefault
  obtain ⟨user, huser, hsender⟩ := hlogin
  obtain ⟨hsenderKey, -, hsenders⟩ := hsender.senders h.senderKey
  refine ⟨(huser.users h.userKey).1, hsenderKey, howner, hdefault, ?_⟩
  intro r hr hdefault
  rcases hsenders r hr with rfl | ⟨s, hs, -, -, hsame, hactive⟩
  · rfl
  · rw [hactive]
    rw [hsame] at hdefault
    exact h.active s hs hdefault

/-- A created sender takes the flag from the user's other senders, or is no default sender. -/
theorem create {user : Uuid} {now : Int} (h : DefaultInv t) (huser : ∃ v ∈ t.users, v.id = user)
    (hcreate : CreatesSender user now t t') : DefaultInv t' := by
  obtain ⟨sender, howner, hactive, hnew, husers, hsenders⟩ := hcreate
  refine ⟨?_, ?_, ?_, ?_, ?_⟩
  · rw [husers]
    exact h.userKey
  · rw [hsenders]
    apply (primaryKey_undefault h.senderKey).append (.singleton _ _)
    intro r hr q hq heq
    rw [List.mem_singleton] at hq
    obtain ⟨s, hs, hid, -⟩ := exists_of_mem_undefault hr
    rw [hq, hid] at heq
    exact hnew s hs heq
  · intro r hr
    rw [hsenders] at hr
    rw [husers]
    rcases List.mem_append.1 hr with hr | hr
    · obtain ⟨s, hs, -, howner', -⟩ := exists_of_mem_undefault hr
      rw [howner']
      exact h.owner s hs
    · rw [List.mem_singleton.1 hr, howner]
      exact huser
  · intro v hv
    rw [husers] at hv
    rw [hsenders]
    obtain ⟨s, hs, howner', hdefault⟩ := h.hasDefault v hv
    by_cases hlost : (sender.isDefault && decide (s.userId = user)) = true
    · -- The default sender loses the flag to the new one.
      rw [Bool.and_eq_true, decide_eq_true_eq] at hlost
      exact ⟨sender, by simp, howner.trans (hlost.2.symm.trans howner'), hlost.1⟩
    · rw [Bool.not_eq_true] at hlost
      exact ⟨s, List.mem_append_left _ (mem_undefault_of_not hs hlost), howner', hdefault⟩
  · intro r hr hdefault
    rw [hsenders] at hr
    rcases List.mem_append.1 hr with hr | hr
    · obtain ⟨s, hs, -, -, -, hsame⟩ := exists_of_mem_undefault hr
      have hrow := (hsame hdefault).1
      rw [hrow] at hdefault ⊢
      exact h.active s hs hdefault
    · rw [List.mem_singleton.1 hr]
      exact hactive

section Update

variable {current : StoredSender} {data : SenderData} {user : Uuid} {now : Int}

/-- Of the rows that an update reads only `current` has its id, and it is not one of the others. -/
theorem eq_current_of_id (h : DefaultInv t) (hcurrent : current ∈ t.senders) {c : Bool}
    {r : StoredSender} (hr : r ∈ undefault c (isOtherSender user current.id) now t.senders)
    (hid : r.id = current.id) : r = current := by
  obtain ⟨s, hs, rfl⟩ := mem_undefault.1 hr
  have hsame : s = current := by
    apply h.senderKey.eq_of_key_eq hs hcurrent
    split at hid <;> exact hid
  rw [hsame]
  simp [isOtherSender]

/-- After an update every user still has a default sender. -/
theorem hasDefault_update (h : DefaultInv t) (hcurrent : current ∈ t.senders)
    (howner : current.userId = user)
    (hkeep : current.isDefault = true → data.isDefault ≠ some false) :
    ∀ v ∈ t.users, ∃ s ∈ updateMany (fun s => decide (s.id = current.id)) (data.apply now)
      (undefault (decide (data.isDefault = some true)) (isOtherSender user current.id) now
        t.senders), s.userId = v.id ∧ s.isDefault = true := by
  intro v hv
  -- The current row is written in place, with what the update makes of its flag.
  have hwritten : ∀ flag, data.isDefault.getD current.isDefault = flag →
      ∃ r ∈ updateMany (fun s => decide (s.id = current.id)) (data.apply now)
        (undefault (decide (data.isDefault = some true)) (isOtherSender user current.id) now
          t.senders), r.userId = user ∧ r.isDefault = flag := by
    intro flag hflag
    refine ⟨data.apply now current, ?_, howner, hflag⟩
    refine mem_updateMany.2 ⟨current, mem_undefault_of_not hcurrent ?_, by simp⟩
    simp [isOtherSender]
  obtain ⟨s, hs, howner', hdefault⟩ := h.hasDefault v hv
  by_cases hset : data.isDefault = some true
  · by_cases huser : v.id = user
    · rw [huser]
      exact hwritten true (by rw [hset]; rfl)
    · -- Another user's default sender is not touched.
      refine ⟨s, mem_updateMany.2 ⟨s, mem_undefault_of_not hs ?_, ?_⟩, howner', hdefault⟩
      · have hother : s.userId ≠ user := by
          rw [howner']
          exact huser
        simp [isOtherSender, hother]
      · rw [if_neg]
        intro hid
        rw [decide_eq_true_eq] at hid
        have hsame := h.senderKey.eq_of_key_eq hs hcurrent hid
        rw [hsame, howner] at howner'
        exact huser howner'.symm
  · by_cases hid : s.id = current.id
    · -- The default sender is updated, and the checks leave it the flag.
      have hsame := h.senderKey.eq_of_key_eq hs hcurrent hid
      rw [hsame] at hdefault howner'
      have huser : v.id = user := howner'.symm.trans howner
      rw [huser]
      apply hwritten true
      have hnotFalse := hkeep hdefault
      cases hflag : data.isDefault with
      | none => exact hdefault
      | some flag =>
          cases flag with
          | true => rfl
          | false => exact absurd hflag hnotFalse
    · refine ⟨s, mem_updateMany.2 ⟨s, mem_undefault_of_not hs ?_, ?_⟩, howner', hdefault⟩
      · simp [hset]
      · simp [hid]

/-- After an update default senders are still active. -/
theorem active_update (h : DefaultInv t) (hcurrent : current ∈ t.senders)
    (hkeep : current.isDefault = true → data.isActive ≠ some false)
    (hactivates : data.isDefault = some true → data.isActive = some true) :
    ∀ r ∈ updateMany (fun s => decide (s.id = current.id)) (data.apply now)
      (undefault (decide (data.isDefault = some true)) (isOtherSender user current.id) now
        t.senders), r.isDefault = true → r.isActive = true := by
  intro r hr hdefault
  obtain ⟨q, hq, rfl⟩ := mem_updateMany.1 hr
  by_cases hid : q.id = current.id
  · rw [h.eq_current_of_id hcurrent hq hid] at hdefault ⊢
    simp only [decide_true, if_true, SenderData.apply_isDefault,
      SenderData.apply_isActive] at hdefault ⊢
    cases hflag : data.isDefault with
    | none =>
        -- The row was a default sender, so it was active and is not deactivated.
        rw [hflag] at hdefault
        have hnotFalse := hkeep hdefault
        cases hactive : data.isActive with
        | none => exact h.active current hcurrent hdefault
        | some active =>
            cases active with
            | true => rfl
            | false => exact absurd hactive hnotFalse
    | some flag =>
        rw [hflag] at hdefault
        rw [hactivates (by rw [hflag]; exact congrArg some hdefault)]
        rfl
  · simp only [hid, decide_false, Bool.false_eq_true, if_false] at hdefault ⊢
    obtain ⟨s, hs, -, -, -, hsame⟩ := exists_of_mem_undefault hq
    have hkept := (hsame hdefault).1
    rw [hkept] at hdefault ⊢
    exact h.active s hs hdefault

/-- An updated default sender stays active and default; a new one takes the flag from the others. -/
theorem update (h : DefaultInv t) (hupdate : UpdatesSender user now t t') : DefaultInv t' := by
  obtain ⟨current, data, hcurrent, howner, hkeep, hactivates, husers, hsenders⟩ := hupdate
  refine ⟨?_, ?_, ?_, ?_, ?_⟩
  · rw [husers]
    exact h.userKey
  · rw [hsenders]
    exact (primaryKey_undefault h.senderKey).updateMany fun _ => rfl
  · intro r hr
    rw [hsenders] at hr
    obtain ⟨q, hq, rfl⟩ := mem_updateMany.1 hr
    obtain ⟨s, hs, -, howner', -⟩ := exists_of_mem_undefault hq
    obtain ⟨v, hv, hid⟩ := h.owner s hs
    rw [husers]
    refine ⟨v, hv, hid.trans ?_⟩
    split <;> exact howner'.symm
  · rw [husers, hsenders]
    exact h.hasDefault_update hcurrent howner fun hdefault => (hkeep hdefault).2
  · rw [hsenders]
    exact h.active_update hcurrent (fun hdefault => (hkeep hdefault).1) hactivates

end Update

/-- Every call keeps the invariant. -/
theorem run (h : DefaultInv t) (call : SenderCall) :
    DefaultInv (call.run config lib t).2 := by
  cases hrun : call.run config lib t with
  | mk result t' =>
      cases result with
      | error e =>
          rw [call.rollsBack t e t' hrun]
          exact h
      | ok result =>
          have heffect := SenderCall.eq_ok hrun
          cases call with
          | login identity ctx => exact h.login heffect
          | create user body id now => exact h.create heffect.1 heffect.2
          | update user senderId body now => exact h.update heffect.2

end DefaultInv

/-! ## A usable default sender always remains -/

/-- Users are never deleted. -/
theorem users_of_run (h : DefaultInv t) (call : SenderCall) :
    ∀ w ∈ t.users, ∃ v ∈ (call.run config lib t).2.users, v.id = w.id := by
  intro w hw
  cases hrun : call.run config lib t with
  | mk result t' =>
      cases result with
      | error e =>
          rw [call.rollsBack t e t' hrun]
          exact ⟨w, hw, rfl⟩
      | ok result =>
          have heffect := SenderCall.eq_ok hrun
          cases call with
          | login identity ctx =>
              obtain ⟨user, huser, -⟩ := heffect
              exact (huser.users h.userKey).2.2.1 w hw
          | create user body id now =>
              obtain ⟨-, -, -, -, -, husers, -⟩ := heffect
              exact ⟨w, by rw [husers]; exact hw, rfl⟩
          | update user senderId body now =>
              obtain ⟨-, -, -, -, -, -, -, husers, -⟩ := heffect
              exact ⟨w, by rw [husers]; exact hw, rfl⟩

theorem defaultInv_of_reachable
    (h : (senderSystem config lib).Reachable TransitionSystem.anyStep t) : DefaultInv t := by
  apply h.invariant
  · intro s hs
    cases hs
    exact .empty
  · intro s call s' _ hstep hs
    cases hstep
    exact hs.run call

/-- **A usable default sender always remains.** After a login that is not rejected, and after any
calls that follow it, rejected or not, the user has a default sender; default senders are active;
and a call that is rejected leaves the senders as they are. -/
theorem usableDefault_of_login {identity : GoogleIdentity} {ctx : LoginContext}
    {saved : AuthenticatedUser} {t₁ t₂ : Tables}
    (h : (senderSystem config lib).Reachable TransitionSystem.anyStep t)
    (hlogin : (SenderCall.login identity ctx).run config lib t = (.ok (.user saved), t₁))
    (hlater : (senderSystem config lib).Steps TransitionSystem.anyStep t₁ t₂) :
    (∃ s ∈ t₂.senders, s.userId = saved.id ∧ s.isDefault = true) ∧
      (∀ s ∈ t₂.senders, s.isDefault = true → s.isActive = true) ∧
      ∀ (call : SenderCall) error t₃, call.run config lib t₂ = (.error error, t₃) →
        t₃.senders = t₂.senders := by
  have hinv := defaultInv_of_reachable h
  have hinv₁ : DefaultInv t₁ := by
    have hrun : DefaultInv ((SenderCall.login identity ctx).run config lib t).2 := hinv.run _
    rw [hlogin] at hrun
    exact hrun
  have hsaved : ∃ v ∈ t₁.users, v.id = saved.id := by
    obtain ⟨saved', t', hupsert, hreturn⟩ := Action.bind_eq_ok hlogin
    cases hreturn
    obtain ⟨user, rfl, huser, -⟩ := upsertGoogleUser_eq_ok hupsert
    exact (huser.users hinv.userKey).2.1
  -- The invariant and the user are kept by every later call.
  obtain ⟨hinv₂, v, hv, hid⟩ : DefaultInv t₂ ∧ ∃ v ∈ t₂.users, v.id = saved.id := by
    apply hlater.invariant ⟨hinv₁, hsaved⟩
    rintro s call s' - hstep ⟨hs, w, hw, hid⟩
    cases hstep
    obtain ⟨v, hv, hid'⟩ : ∃ v ∈ (call.run config lib s).2.users, v.id = w.id :=
      users_of_run hs call w hw
    exact ⟨hs.run call, v, hv, hid'.trans hid⟩
  refine ⟨?_, hinv₂.active, ?_⟩
  · rw [← hid]
    exact hinv₂.hasDefault v hv
  · intro call error t₃ hrejected
    rw [call.rollsBack t₂ error t₃ hrejected]

/-- Library functions for runs on addresses that contain one `@`. -/
def testLibraries : Libraries where
  isEmail text := text.toList.contains '@'
  parseCsv _ := some []

/-- The first login of a user. -/
def firstLogin : SenderCall := .login ⟨"subject", "first@test.invalid", "User", none⟩ ⟨1, 10, 0⟩

/-- Another sender becomes the default; deactivating it is refused; and creating it once more fails
after the default flag was taken from it. -/
def rejectedCalls : List SenderCall :=
  [.create 1 (some ⟨.value "Second", .value "second@test.invalid", .value true, .value 200,
      .value 2000, false⟩) 11 1,
    .update 1 (some 11) (some { isActive := .value false }) 2,
    .create 1 (some ⟨.value "Again", .value "second@test.invalid", .value true, .value 200,
      .value 2000, false⟩) 12 3]

theorem usableDefault_after_rejectedCalls :
    ∃ t₁ t₂, firstLogin.run validConfig testLibraries {} =
        (.ok (.user ⟨1, "first@test.invalid", "User", none⟩), t₁) ∧
      (senderSystem validConfig testLibraries).run TransitionSystem.anyStep rejectedCalls t₁ =
        some t₂ ∧
      (t₂.senders.map fun s => (s.id, s.isDefault)) = [(10, false), (11, true)] ∧
      (∃ s ∈ t₂.senders, s.userId = 1 ∧ s.isDefault = true) ∧
      (∀ s ∈ t₂.senders, s.isDefault = true → s.isActive = true) ∧
      ∀ (call : SenderCall) error t₃, call.run validConfig testLibraries t₂ = (.error error, t₃) →
        t₃.senders = t₂.senders := by
  have husable : ∀ t₁ t₂, firstLogin.run validConfig testLibraries {} =
      (.ok (.user ⟨1, "first@test.invalid", "User", none⟩), t₁) →
      (senderSystem validConfig testLibraries).run TransitionSystem.anyStep rejectedCalls t₁ =
        some t₂ →
      (∃ s ∈ t₂.senders, s.userId = 1 ∧ s.isDefault = true) ∧
        (∀ s ∈ t₂.senders, s.isDefault = true → s.isActive = true) ∧
        ∀ (call : SenderCall) error t₃, call.run validConfig testLibraries t₂ = (.error error, t₃) →
          t₃.senders = t₂.senders := by
    intro t₁ t₂ hlogin hlater
    exact usableDefault_of_login ⟨{}, rfl, .refl⟩ hlogin (TransitionSystem.steps_of_run _ hlater)
  exact ⟨_, _, rfl, rfl, by decide, husable _ _ rfl rfl⟩

end EmailScheduler
