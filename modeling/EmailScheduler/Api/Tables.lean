import EmailScheduler.Foundation.Transaction
import EmailScheduler.Scheduling.Statements

/-!
# The tables of the API

The API reads columns that the worker does not: users, and the times at which rows were created and
last written. `Tables` adds them to the rows of the schema, and `Tables.database` forgets them
again.

A statement of a transaction is an action on the tables. It throws where the database does: a text
that is too long for its column or holds a zero byte, an integer that does not fit four bytes, a
unique index. The user of a request is loaded from the database before the request is handled and
users are never deleted, so the foreign keys to users hold.
-/

set_option autoImplicit false

namespace EmailScheduler

open Foundation

/-! ## Rows -/

structure User where
  id : Uuid
  googleSubject : String
  email : String
  name : String
  avatarUrl : Option String
  lastLoginAt : Int
deriving DecidableEq, Repr

structure StoredSender extends EmailSender where
  createdAt : Int
  updatedAt : Int
deriving DecidableEq, Repr

structure StoredBatch extends EmailBatch where
  createdAt : Int
deriving DecidableEq, Repr

structure StoredEmail extends ScheduledEmail where
  updatedAt : Int
deriving DecidableEq, Repr

structure Tables where
  users : List User := []
  senders : List StoredSender := []
  batches : List StoredBatch := []
  emails : List StoredEmail := []
deriving DecidableEq, Repr

/-- The database without the columns that only the API reads. Attempts are not its business. -/
def Tables.database (t : Tables) : Database where
  senders := t.senders.map StoredSender.toEmailSender
  batches := t.batches.map StoredBatch.toEmailBatch
  emails := t.emails.map StoredEmail.toScheduledEmail
  attempts := []

/-! ## Errors -/

/-- What a request handler throws. -/
inductive RequestError where
  | http (error : HttpError)
  /-- The `HttpError` of `parseOrThrow`, with the paths of its issues; their texts are `zod`'s. -/
  | invalidRequest (paths : List String)
  /-- A `MulterError` with its code. -/
  | multer (code : String)
  /-- A `PrismaClientKnownRequestError` with its code. -/
  | prisma (code : String)
  | other
deriving DecidableEq, Repr

/-- An `HttpError` without details. -/
def httpError (status : Nat) (code message : String) : RequestError :=
  .http ⟨status, code, message, none⟩

/-- The error of a row that a unique index does not let in. -/
def uniqueConflict : RequestError := .prisma "P2002"

abbrev Statement (α : Type) : Type := Action Tables RequestError α

/-! ## Column types -/

/-- A value of a `varchar` column. -/
def checkText (width : Nat) (text : String) : Except RequestError Unit :=
  if text.toList.contains (Char.ofNat 0) then .error .other
  else if width < text.length then .error (.prisma "P2000")
  else .ok ()

/-- A value of a `text` column. -/
def checkUnboundedText (text : String) : Except RequestError Unit :=
  if text.toList.contains (Char.ofNat 0) then .error .other else .ok ()

/-- A value of an `integer` column. -/
def checkInteger (n : Int) : Except RequestError Unit :=
  if -2147483648 ≤ n ∧ n ≤ 2147483647 then .ok () else .error .other

/-! ## Users -/

/-- `GoogleIdentity`. -/
structure GoogleIdentity where
  googleSubject : String
  email : String
  name : String
  avatarUrl : Option String
deriving DecidableEq, Repr

/-- The columns that a login writes in `users`. -/
def checkIdentity (identity : GoogleIdentity) : Except RequestError Unit := do
  checkText 255 identity.googleSubject
  checkText 320 identity.email
  checkText 200 identity.name
  if (identity.avatarUrl.getD "").toList.contains (Char.ofNat 0) then throw .other

/-- Two users that a unique index does not allow together. -/
def userConflict (a b : User) : Bool :=
  decide (a.id = b.id) || decide (a.googleSubject = b.googleSubject) || decide (a.email = b.email)

theorem id_ne_of_userConflict {a b : User} (h : userConflict a b = false) : a.id ≠ b.id := by
  intro heq
  simp [userConflict, heq] at h

def insertUser (user : User) : Statement Unit := do
  .throwIf (fun t => t.users.any (userConflict user)) uniqueConflict
  .write fun t => { t with users := t.users ++ [user] }

/-- Write columns of a user that the transaction has read; its id stays. -/
def updateUser (user : User) (columns : User → User) : Statement Unit := do
  .throwIf (fun t => t.users.any fun u =>
    decide (u.id ≠ user.id) && decide (u.email = (columns user).email)) uniqueConflict
  .write fun t => { t with users := updateMany (fun u => decide (u.id = user.id)) columns t.users }

/-! ## Senders -/

/-- The columns of a new sender. -/
def checkSender (sender : EmailSender) : Except RequestError Unit := do
  checkText 200 sender.displayName
  checkText 320 sender.email
  checkText 320 sender.normalizedEmail
  checkInteger sender.hourlyLimit
  checkInteger sender.minimumDelayMs

/-- Two senders that a unique index does not allow together. -/
def senderConflict (a b : StoredSender) : Bool :=
  decide (a.id = b.id) ||
    (decide (a.userId = b.userId) && decide (a.normalizedEmail = b.normalizedEmail))

theorem senderConflict_iff {a b : StoredSender} :
    senderConflict a b = true ↔
      a.id = b.id ∨ a.userId = b.userId ∧ a.normalizedEmail = b.normalizedEmail := by
  simp [senderConflict]

theorem id_ne_of_senderConflict {a b : StoredSender} (h : senderConflict a b = false) :
    a.id ≠ b.id := by
  intro heq
  rw [senderConflict_iff.2 (Or.inl heq)] at h
  cases h

/-- `emailSender.create`. -/
def insertSender (sender : StoredSender) : Statement StoredSender := do
  .ofExcept (checkSender sender.toEmailSender)
  .throwIf (fun t => t.senders.any (senderConflict sender)) uniqueConflict
  .write fun t => { t with senders := t.senders ++ [sender] }
  return sender

/-- `data` of an update: the columns to write. -/
structure SenderData where
  displayName : Option String := none
  email : Option String := none
  normalizedEmail : Option String := none
  isDefault : Option Bool := none
  isActive : Option Bool := none
  hourlyLimit : Option Int := none
  minimumDelayMs : Option Int := none
deriving DecidableEq, Repr

/-- The row after an update. -/
def SenderData.apply (data : SenderData) (now : Int) (sender : StoredSender) : StoredSender :=
  { sender with
    displayName := data.displayName.getD sender.displayName
    email := data.email.getD sender.email
    normalizedEmail := data.normalizedEmail.getD sender.normalizedEmail
    isDefault := data.isDefault.getD sender.isDefault
    isActive := data.isActive.getD sender.isActive
    hourlyLimit := data.hourlyLimit.getD sender.hourlyLimit
    minimumDelayMs := data.minimumDelayMs.getD sender.minimumDelayMs
    updatedAt := now }

/-- The columns that an update writes. -/
def SenderData.check (data : SenderData) : Except RequestError Unit := do
  data.displayName.forM (checkText 200)
  data.email.forM (checkText 320)
  data.normalizedEmail.forM (checkText 320)
  data.hourlyLimit.forM checkInteger
  data.minimumDelayMs.forM checkInteger

/-- `emailSender.updateMany`. -/
def updateSenders (p : StoredSender → Bool) (data : SenderData) (now : Int) : Statement Unit :=
  .write fun t => { t with senders := updateMany p (data.apply now) t.senders }

/-- `emailSender.update({ where: { id }, data })`, for a row that the transaction has read. -/
def updateSender (sender : StoredSender) (data : SenderData) (now : Int) :
    Statement StoredSender := do
  .ofExcept data.check
  .throwIf (fun t => t.senders.any fun s => decide (s.id ≠ sender.id) &&
    (decide (s.userId = sender.userId) &&
      decide (s.normalizedEmail = (data.apply now sender).normalizedEmail))) uniqueConflict
  updateSenders (fun s => decide (s.id = sender.id)) data now
  return data.apply now sender

@[simp] theorem SenderData.apply_id (data : SenderData) (now : Int) (s : StoredSender) :
    (data.apply now s).id = s.id := rfl

@[simp] theorem SenderData.apply_userId (data : SenderData) (now : Int) (s : StoredSender) :
    (data.apply now s).userId = s.userId := rfl

@[simp] theorem SenderData.apply_isDefault (data : SenderData) (now : Int) (s : StoredSender) :
    (data.apply now s).isDefault = data.isDefault.getD s.isDefault := rfl

@[simp] theorem SenderData.apply_isActive (data : SenderData) (now : Int) (s : StoredSender) :
    (data.apply now s).isActive = data.isActive.getD s.isActive := rfl

/-! ## What a statement that returns has done -/

theorem insertUser_eq_ok {user : User} {t t' : Tables} {u : Unit}
    (h : insertUser user t = (.ok u, t')) :
    (∀ v ∈ t.users, userConflict user v = false) ∧ t' = { t with users := t.users ++ [user] } := by
  obtain ⟨_, t₁, hcheck, hwrite⟩ := Action.bind_eq_ok h
  obtain ⟨hnone, rfl⟩ := Action.throwIf_eq_ok hcheck
  cases hwrite
  exact ⟨by simpa using hnone, rfl⟩

theorem updateUser_eq_ok {user : User} {columns : User → User} {t t' : Tables} {u : Unit}
    (h : updateUser user columns t = (.ok u, t')) :
    (∀ v ∈ t.users, v.id ≠ user.id → v.email ≠ (columns user).email) ∧
      t' = { t with
        users := updateMany (fun v => decide (v.id = user.id)) columns t.users } := by
  obtain ⟨_, t₁, hcheck, hwrite⟩ := Action.bind_eq_ok h
  obtain ⟨hnone, rfl⟩ := Action.throwIf_eq_ok hcheck
  cases hwrite
  exact ⟨by simpa using hnone, rfl⟩

/-- An update of a user whose new email no other user has. -/
theorem updateUser_of_fits {user : User} {columns : User → User} {t : Tables}
    (h : ∀ v ∈ t.users, v.id ≠ user.id → v.email ≠ (columns user).email) :
    updateUser user columns t = (.ok (), { t with
      users := updateMany (fun v => decide (v.id = user.id)) columns t.users }) := by
  have hnone : (t.users.any fun v =>
      decide (v.id ≠ user.id) && decide (v.email = (columns user).email)) = false := by
    simpa using h
  exact Eq.trans (Action.bind_of_ok (Action.throwIf_of_not hnone)) rfl

theorem insertSender_eq_ok {sender s : StoredSender} {t t' : Tables}
    (h : insertSender sender t = (.ok s, t')) :
    s = sender ∧ checkSender sender.toEmailSender = .ok () ∧
      (∀ r ∈ t.senders, senderConflict sender r = false) ∧
      t' = { t with senders := t.senders ++ [sender] } := by
  obtain ⟨_, t₁, hcolumns, hinsert⟩ := Action.bind_eq_ok h
  obtain ⟨hfits, rfl⟩ := Action.ofExcept_eq_ok hcolumns
  obtain ⟨_, t₂, hcheck, hrest⟩ := Action.bind_eq_ok hinsert
  obtain ⟨hnone, rfl⟩ := Action.throwIf_eq_ok hcheck
  obtain ⟨_, t₃, hwrite, hreturn⟩ := Action.bind_eq_ok hrest
  cases hwrite
  cases hreturn
  exact ⟨rfl, hfits, by simpa using hnone, rfl⟩

/-- An insertion that meets no conflict. -/
theorem insertSender_of_fits {sender : StoredSender} {t : Tables}
    (hcolumns : checkSender sender.toEmailSender = .ok ())
    (h : ∀ s ∈ t.senders, senderConflict sender s = false) :
    insertSender sender t = (.ok sender, { t with senders := t.senders ++ [sender] }) := by
  have hnone : t.senders.any (senderConflict sender) = false := by
    simpa using h
  unfold insertSender
  rw [hcolumns]
  apply Eq.trans (Action.bind_of_ok rfl)
  exact Eq.trans (Action.bind_of_ok (Action.throwIf_of_not hnone)) rfl

theorem updateSender_eq_ok {sender s : StoredSender} {data : SenderData} {now : Int}
    {t t' : Tables} (h : updateSender sender data now t = (.ok s, t')) :
    s = data.apply now sender ∧
      (∀ r ∈ t.senders, r.id ≠ sender.id → r.userId = sender.userId →
        r.normalizedEmail ≠ s.normalizedEmail) ∧
      t' = { t with
        senders := updateMany (fun r => decide (r.id = sender.id))
          (data.apply now) t.senders } := by
  obtain ⟨_, t₁, hcolumns, hinsert⟩ := Action.bind_eq_ok h
  obtain ⟨-, rfl⟩ := Action.ofExcept_eq_ok hcolumns
  obtain ⟨_, t₂, hcheck, hrest⟩ := Action.bind_eq_ok hinsert
  obtain ⟨hnone, rfl⟩ := Action.throwIf_eq_ok hcheck
  obtain ⟨_, t₃, hwrite, hreturn⟩ := Action.bind_eq_ok hrest
  cases hwrite
  cases hreturn
  exact ⟨rfl, by simpa using hnone, rfl⟩

end EmailScheduler
