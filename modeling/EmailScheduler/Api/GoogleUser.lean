import EmailScheduler.Api.Tables
import EmailScheduler.Config

/-!
# Google logins and the users of requests

`auth/google-user.ts`: a login saves the user under its Google subject, and a sender under the
user and the Google email. The sender it creates is a default sender; the one it finds keeps its
flags. The user of a request is loaded from the database before its route runs (`authenticated`).
-/

set_option autoImplicit false

namespace EmailScheduler

open Foundation

structure AuthenticatedUser where
  id : Uuid
  email : String
  name : String
  avatarUrl : Option String
deriving DecidableEq, Repr

def toAuthenticatedUser (user : User) : AuthenticatedUser :=
  ⟨user.id, user.email, user.name, user.avatarUrl⟩

/-- The ids that a login draws, and its time. -/
structure LoginContext where
  userId : Uuid
  senderId : Uuid
  now : Int
deriving DecidableEq, Repr

variable (config : AppConfig) (identity : GoogleIdentity) (ctx : LoginContext)

/-- `create` of the user. -/
def createdUser : User where
  id := ctx.userId
  googleSubject := identity.googleSubject
  email := identity.email
  name := identity.name
  avatarUrl := identity.avatarUrl
  lastLoginAt := ctx.now

/-- `update` of the user. -/
def updatedUser (user : User) : User :=
  { user with
    email := identity.email
    name := identity.name
    avatarUrl := identity.avatarUrl
    lastLoginAt := ctx.now }

/-- The user with the subject. -/
def knownUser (t : Tables) : Option User :=
  t.users.find? fun u => decide (u.googleSubject = identity.googleSubject)

/-- `transaction.user.upsert`. -/
def upsertUser : Statement User := do
  .ofExcept (checkIdentity identity)
  let found ← .read (knownUser identity)
  match found with
  | none => do
      insertUser (createdUser identity ctx)
      return createdUser identity ctx
  | some user => do
      updateUser user (updatedUser identity ctx)
      return updatedUser identity ctx user

/-- `create` of the sender. -/
def loginSender (user : User) : StoredSender where
  id := ctx.senderId
  userId := user.id
  displayName := identity.name
  email := identity.email
  normalizedEmail := identity.email
  isDefault := true
  isActive := true
  hourlyLimit := config.defaultEmailsPerHour
  minimumDelayMs := config.defaultMinSendDelayMs
  createdAt := ctx.now
  updatedAt := ctx.now

/-- `update` of the sender. -/
def loginData : SenderData where
  displayName := some identity.name
  email := some identity.email

/-- The sender's unique key: `userId_normalizedEmail`. -/
def hasKey (userId : Uuid) (normalizedEmail : String) (s : StoredSender) : Bool :=
  decide (s.userId = userId) && decide (s.normalizedEmail = normalizedEmail)

theorem hasKey_iff {userId : Uuid} {normalizedEmail : String} {s : StoredSender} :
    hasKey userId normalizedEmail s = true ↔
      s.userId = userId ∧ s.normalizedEmail = normalizedEmail := by
  simp [hasKey]

def findByKey (userId : Uuid) (normalizedEmail : String) (t : Tables) : Option StoredSender :=
  t.senders.find? (hasKey userId normalizedEmail)

/-- `transaction.emailSender.upsert`. -/
def upsertSender (user : User) : Statement StoredSender := do
  let found ← .read (findByKey user.id identity.email)
  match found with
  | none => insertSender (loginSender config identity ctx user)
  | some sender => updateSender sender (loginData identity) ctx.now

/-- The body of the transaction. -/
def saveGoogleUser : Statement User := do
  let savedUser ← upsertUser identity ctx
  let _ ← upsertSender config identity ctx savedUser
  return savedUser

def upsertGoogleUser : Statement AuthenticatedUser := do
  let user ← .transaction (saveGoogleUser config identity ctx)
  return toAuthenticatedUser user

/-- `findAuthenticatedUser`. -/
def findAuthenticatedUser (userId : Uuid) (t : Tables) : Option AuthenticatedUser :=
  (t.users.find? fun u => decide (u.id = userId)).map toAuthenticatedUser

/-- A route behind `requireAuth`: the session holds the id of a user, who is loaded first. -/
def authenticated {α : Type} (userId : Uuid) (route : Statement α) : Statement α := do
  .throwIf (fun t => (findAuthenticatedUser userId t).isNone)
    (httpError 401 "AUTHENTICATION_REQUIRED" "Authentication is required")
  route

theorem isNone_findAuthenticatedUser {userId : Uuid} {t : Tables} :
    (findAuthenticatedUser userId t).isNone = false ↔ ∃ u ∈ t.users, u.id = userId := by
  rw [findAuthenticatedUser, Option.isNone_map, Option.isNone_eq_false_iff, List.find?_isSome]
  simp

theorem authenticated_of_user {α : Type} {userId : Uuid} {route : Statement α} {t : Tables}
    (h : ∃ u ∈ t.users, u.id = userId) : authenticated userId route t = route t :=
  Action.bind_of_ok (Action.throwIf_of_not (isNone_findAuthenticatedUser.2 h))

theorem authenticated_of_no_user {α : Type} {userId : Uuid} {route : Statement α} {t : Tables}
    (h : ¬ ∃ u ∈ t.users, u.id = userId) : authenticated userId route t =
      (.error (httpError 401 "AUTHENTICATION_REQUIRED" "Authentication is required"), t) := by
  have hunknown : (findAuthenticatedUser userId t).isNone = true := by
    rw [← Bool.not_eq_false]
    exact fun hfound => h (isNone_findAuthenticatedUser.1 hfound)
  rw [authenticated, Action.bind_apply, Action.throwIf, hunknown]
  rfl

theorem authenticated_eq_ok {α : Type} {userId : Uuid} {route : Statement α} {a : α}
    {t t' : Tables} (h : authenticated userId route t = (.ok a, t')) :
    (∃ u ∈ t.users, u.id = userId) ∧ route t = (.ok a, t') := by
  obtain ⟨_, t₁, hcheck, hroute⟩ := Action.bind_eq_ok h
  obtain ⟨hfound, rfl⟩ := Action.throwIf_eq_ok hcheck
  exact ⟨isNone_findAuthenticatedUser.1 hfound, hroute⟩

/-! ## What a login that returns has done -/

variable {config identity ctx}

/-- The user is new, or the one with the subject. -/
def SavesUser (identity : GoogleIdentity) (ctx : LoginContext) (t t' : Tables)
    (user : User) : Prop :=
  (user = createdUser identity ctx ∧ (∀ v ∈ t.users, userConflict user v = false) ∧
      t'.users = t.users ++ [user]) ∨
    ∃ old, knownUser identity t = some old ∧ user = updatedUser identity ctx old ∧
      checkIdentity identity = .ok () ∧
      (∀ v ∈ t.users, v.id ≠ old.id → v.email ≠ identity.email) ∧
      t'.users = updateMany (fun v => decide (v.id = old.id)) (updatedUser identity ctx) t.users

/-- The sender is new, or the user's own one under the Google email. -/
def SavesSender (config : AppConfig) (identity : GoogleIdentity) (ctx : LoginContext)
    (t t' : Tables) (user : User) : Prop :=
  (checkSender (loginSender config identity ctx user).toEmailSender = .ok () ∧
      (∀ s ∈ t.senders, senderConflict (loginSender config identity ctx user) s = false) ∧
      t'.senders = t.senders ++ [loginSender config identity ctx user]) ∨
    ∃ sender ∈ t.senders, sender.userId = user.id ∧ sender.normalizedEmail = identity.email ∧
      t'.senders = updateMany (fun s => decide (s.id = sender.id))
        ((loginData identity).apply ctx.now) t.senders

theorem upsertUser_eq_ok {user : User} {t t' : Tables}
    (h : upsertUser identity ctx t = (.ok user, t')) :
    SavesUser identity ctx t t' user ∧ t'.senders = t.senders ∧ t'.batches = t.batches ∧
      t'.emails = t.emails := by
  obtain ⟨_, t₁, hcolumns, hupsert⟩ := Action.bind_eq_ok h
  obtain ⟨hfits, rfl⟩ := Action.ofExcept_eq_ok hcolumns
  obtain ⟨found, t₂, hread, hsave⟩ := Action.bind_eq_ok hupsert
  obtain ⟨hfound, rfl⟩ := Action.read_eq_ok hread
  cases found with
  | none =>
      obtain ⟨_, t₃, hinsert, hreturn⟩ := Action.bind_eq_ok hsave
      cases hreturn
      obtain ⟨hnew, rfl⟩ := insertUser_eq_ok hinsert
      exact ⟨Or.inl ⟨rfl, hnew, rfl⟩, rfl, rfl, rfl⟩
  | some old =>
      obtain ⟨_, t₃, hupdate, hreturn⟩ := Action.bind_eq_ok hsave
      cases hreturn
      obtain ⟨hemail, rfl⟩ := updateUser_eq_ok hupdate
      exact ⟨Or.inr ⟨old, hfound, rfl, hfits, hemail, rfl⟩, rfl, rfl, rfl⟩

theorem upsertSender_eq_ok {user : User} {sender : StoredSender} {t t' : Tables}
    (h : upsertSender config identity ctx user t = (.ok sender, t')) :
    SavesSender config identity ctx t t' user ∧ t'.users = t.users ∧ t'.batches = t.batches ∧
      t'.emails = t.emails := by
  obtain ⟨found, t₁, hread, hsave⟩ := Action.bind_eq_ok h
  obtain ⟨hfound, rfl⟩ := Action.read_eq_ok hread
  cases found with
  | none =>
      obtain ⟨-, hfits, hnew, rfl⟩ := insertSender_eq_ok hsave
      exact ⟨Or.inl ⟨hfits, hnew, rfl⟩, rfl, rfl, rfl⟩
  | some old =>
      obtain ⟨-, -, rfl⟩ := updateSender_eq_ok hsave
      have hkey := List.find?_some hfound
      obtain ⟨howner, hemail⟩ := hasKey_iff.1 hkey
      exact ⟨Or.inr ⟨old, List.mem_of_find?_eq_some hfound, howner, hemail, rfl⟩, rfl, rfl, rfl⟩

/-- **A login that returns** has saved the user and a sender under the Google email. -/
theorem upsertGoogleUser_eq_ok {saved : AuthenticatedUser} {t t' : Tables}
    (h : upsertGoogleUser config identity ctx t = (.ok saved, t')) :
    ∃ user, saved = toAuthenticatedUser user ∧ SavesUser identity ctx t t' user ∧
      SavesSender config identity ctx t t' user ∧ t'.batches = t.batches ∧
      t'.emails = t.emails := by
  obtain ⟨user, t₁, htransaction, hreturn⟩ := Action.bind_eq_ok h
  cases hreturn
  have hbody := Action.transaction_eq_ok htransaction
  obtain ⟨savedUser, t₂, huser, hrest⟩ := Action.bind_eq_ok hbody
  obtain ⟨sender, t₃, hsender, hreturn⟩ := Action.bind_eq_ok hrest
  cases hreturn
  obtain ⟨hsaves, hsenders, hbatches, hemails⟩ := upsertUser_eq_ok huser
  obtain ⟨hsaves', husers, hbatches', hemails'⟩ := upsertSender_eq_ok hsender
  refine ⟨user, rfl, ?_, ?_, hbatches'.trans hbatches, hemails'.trans hemails⟩
  · unfold SavesUser at hsaves ⊢
    rw [husers]
    exact hsaves
  · unfold SavesSender at hsaves' ⊢
    rw [← hsenders]
    exact hsaves'

/-- A login that fails changes nothing. -/
theorem rollsBack_upsertGoogleUser (config : AppConfig) (identity : GoogleIdentity)
    (ctx : LoginContext) : (upsertGoogleUser config identity ctx).RollsBack :=
  (Action.RollsBack.transaction _).bind_pure toAuthenticatedUser

end EmailScheduler
