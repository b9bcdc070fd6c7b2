import EmailScheduler.Api.Tables
import EmailScheduler.Config
import EmailScheduler.Scheduling.LeadParser
import Mathlib.Data.List.Sort

/-!
# Senders

The routes `GET /senders`, `POST /senders` and `PATCH /senders/:senderId` of `email/router.ts`, with
the schemas of their bodies.

A field of a body is given as its schema sees it. A `z.coerce.number().int()` field has the integer
that `Number` makes of what was sent; it is invalid where that is no integer.
-/

set_option autoImplicit false

namespace EmailScheduler

open Foundation

/-! ## Schemas -/

/-- A field of a request. -/
inductive Field (α : Type) where
  | missing
  | invalid
  | value (a : α)
deriving DecidableEq, Repr

namespace Field

variable {α β : Type}

/-- A required field that passes a check, as the check leaves it. -/
def required (check : α → Option β) : Field α → Option β
  | .value a => check a
  | _ => none

/-- `.optional()`. -/
def optional (check : α → Option β) : Field α → Option (Option β)
  | .missing => some none
  | .invalid => none
  | .value a => (check a).map some

/-- `.default(…)`. -/
def withDefault (check : α → Option β) (default : β) : Field α → Option β
  | .missing => some default
  | .invalid => none
  | .value a => check a

theorem required_eq_some {check : α → Option β} {field : Field α} {b : β}
    (h : field.required check = some b) : ∃ a, field = .value a ∧ check a = some b := by
  cases field with
  | missing => cases h
  | invalid => cases h
  | value a => exact ⟨a, rfl, h⟩

end Field

/-- The path of a field whose check fails, once however many issues it has. -/
def issue {α : Type} (path : String) (checked : Option α) : List String :=
  if checked.isSome then [] else [path]

variable (config : AppConfig) (lib : Libraries)

/-- `z.string().trim().min(1).max(limit)`. -/
def trimmedText (limit : Int) (text : String) : Option String :=
  if 1 ≤ utf16Length (trim text) ∧ (utf16Length (trim text) : Int) ≤ limit then some (trim text)
  else none

/-- `z.email().max(320)`. -/
def emailText (text : String) : Option String := if emailSchema lib text then some text else none

/-- `int().min(low).max(high)`. -/
def integerWithin (low high n : Int) : Option Int :=
  if isSafeInteger n ∧ low ≤ n ∧ n ≤ high then some n else none

theorem integerWithin_eq_some {low high n m : Int} (h : integerWithin low high n = some m) :
    m = n ∧ low ≤ n ∧ n ≤ high := by
  unfold integerWithin at h
  split at h
  next hwithin =>
    cases h
    exact ⟨rfl, hwithin.2⟩
  next => cases h

/-- `policyFields.hourlyLimit`. -/
def hourlyLimitField : Int → Option Int := integerWithin 1 config.maxEmailsPerHour

/-- `policyFields.minimumDelayMs`. -/
def minimumDelayField : Int → Option Int :=
  integerWithin config.minSendDelayMs config.maxSendDelayMs

/-- The body of `POST /senders`. -/
structure CreateSenderBody where
  displayName : Field String
  email : Field String
  isDefault : Field Bool
  hourlyLimit : Field Int
  minimumDelayMs : Field Int
  hasUnknownKeys : Bool := false
deriving DecidableEq, Repr

structure CreateSenderInput where
  displayName : String
  email : String
  isDefault : Bool
  hourlyLimit : Int
  minimumDelayMs : Int
deriving DecidableEq, Repr

/-- `createSenderSchema`; a body that is no object has one issue, with the empty path. -/
def createSenderSchema : Option CreateSenderBody → Except RequestError CreateSenderInput
  | none => .error (.invalidRequest [""])
  | some body =>
      let displayName := body.displayName.required (trimmedText 200)
      let email := body.email.required (emailText lib)
      let isDefault := body.isDefault.withDefault some false
      let hourlyLimit := body.hourlyLimit.required (hourlyLimitField config)
      let minimumDelayMs := body.minimumDelayMs.required (minimumDelayField config)
      match displayName, email, isDefault, hourlyLimit, minimumDelayMs, body.hasUnknownKeys with
      | some displayName, some email, some isDefault, some hourlyLimit,
          some minimumDelayMs, false =>
          .ok ⟨displayName, email, isDefault, hourlyLimit, minimumDelayMs⟩
      | _, _, _, _, _, unknown =>
          .error (.invalidRequest (issue "displayName" displayName ++ issue "email" email ++
            issue "isDefault" isDefault ++ issue "hourlyLimit" hourlyLimit ++
            issue "minimumDelayMs" minimumDelayMs ++ if unknown then [""] else []))

/-- The body of `PATCH /senders/:senderId`. -/
structure UpdateSenderBody where
  displayName : Field String := .missing
  email : Field String := .missing
  isDefault : Field Bool := .missing
  isActive : Field Bool := .missing
  hourlyLimit : Field Int := .missing
  minimumDelayMs : Field Int := .missing
  hasUnknownKeys : Bool := false
deriving DecidableEq, Repr

structure UpdateSenderInput where
  displayName : Option String
  email : Option String
  isDefault : Option Bool
  isActive : Option Bool
  hourlyLimit : Option Int
  minimumDelayMs : Option Int
deriving DecidableEq, Repr

/-- `updateSenderSchema`. The check that some field is there runs last. -/
def updateSenderSchema : Option UpdateSenderBody → Except RequestError UpdateSenderInput
  | none => .error (.invalidRequest [""])
  | some body =>
      let displayName := body.displayName.optional (trimmedText 200)
      let email := body.email.optional (emailText lib)
      let isDefault := body.isDefault.optional some
      let isActive := body.isActive.optional some
      let hourlyLimit := body.hourlyLimit.optional (hourlyLimitField config)
      let minimumDelayMs := body.minimumDelayMs.optional (minimumDelayField config)
      match displayName, email, isDefault, isActive, hourlyLimit, minimumDelayMs,
        body.hasUnknownKeys with
      | some none, some none, some none, some none, some none, some none, false =>
          .error (.invalidRequest [""])
      | some displayName, some email, some isDefault, some isActive, some hourlyLimit,
          some minimumDelayMs, false =>
          .ok ⟨displayName, email, isDefault, isActive, hourlyLimit, minimumDelayMs⟩
      | _, _, _, _, _, _, unknown =>
          .error (.invalidRequest (issue "displayName" displayName ++ issue "email" email ++
            issue "isDefault" isDefault ++ issue "isActive" isActive ++
            issue "hourlyLimit" hourlyLimit ++ issue "minimumDelayMs" minimumDelayMs ++
            if unknown then [""] else []))

/-- A UUID in a path or a query; `z.uuid()`. -/
def uuidParameter (parameter : Option Uuid) : Except RequestError Uuid :=
  match parameter with
  | some id => .ok id
  | none => .error (.invalidRequest [""])

/-- The address after `normalizeEmail`. -/
def normalizedSenderEmail (email : String) : Except RequestError ParsedLead :=
  match normalizeEmail lib email with
  | some normalized => .ok normalized
  | none => .error (httpError 400 "VALIDATION_ERROR" "The sender email is invalid")

/-! ## Handlers -/

/-- The `catch` of both handlers. -/
def senderAlreadyExists : RequestError → RequestError
  | .prisma "P2002" => httpError 409 "SENDER_ALREADY_EXISTS" "That sender already exists"
  | error => error

variable (user : Uuid)

/-- The senders of a user, but for one. -/
def isOtherSender (id : Uuid) (s : StoredSender) : Bool :=
  decide (s.userId = user) && decide (s.id ≠ id)

/-- The row of `POST /senders`. -/
def createdSender (input : CreateSenderInput) (normalized : ParsedLead) (id : Uuid) (now : Int) :
    StoredSender where
  id := id
  userId := user
  displayName := input.displayName
  email := normalized.email
  normalizedEmail := normalized.normalizedEmail
  isDefault := input.isDefault
  isActive := true
  hourlyLimit := input.hourlyLimit
  minimumDelayMs := input.minimumDelayMs
  createdAt := now
  updatedAt := now

/-- `POST /senders`. -/
def postSenders (body : Option CreateSenderBody) (id : Uuid) (now : Int) :
    Statement StoredSender := do
  let input ← .ofExcept (createSenderSchema config lib body)
  let normalized ← .ofExcept (normalizedSenderEmail lib input.email)
  Action.mapError senderAlreadyExists <| .transaction do
    Action.when input.isDefault <|
      updateSenders (fun s => decide (s.userId = user)) { isDefault := some false } now
    insertSender (createdSender user input normalized id now)

/-- The checks of `PATCH /senders/:senderId` on the row it finds. -/
def checkUpdate (current : StoredSender) (input : UpdateSenderInput) : Except RequestError Unit :=
  if current.isDefault ∧ input.isActive = some false then
    .error (httpError 409 "DEFAULT_SENDER_REQUIRED"
      "Choose another default sender before deactivating this sender")
  else if current.isDefault ∧ input.isDefault = some false then
    .error (httpError 409 "DEFAULT_SENDER_REQUIRED"
      "Choose another default sender before removing this default")
  else if input.isDefault = some true ∧ input.isActive = some false then
    .error (httpError 400 "VALIDATION_ERROR" "An inactive sender cannot be default")
  else .ok ()

/-- `data`, before a new default is made active. -/
def updateData (input : UpdateSenderInput) : Except RequestError SenderData :=
  let data : SenderData :=
    { displayName := input.displayName
      isActive := input.isActive
      hourlyLimit := input.hourlyLimit
      minimumDelayMs := input.minimumDelayMs
      isDefault := input.isDefault }
  match input.email with
  | none => .ok data
  | some email => do
      let normalized ← normalizedSenderEmail lib email
      return { data with
        email := some normalized.email
        normalizedEmail := some normalized.normalizedEmail }

/-- A new default is active. -/
def withActive (input : UpdateSenderInput) (data : SenderData) : SenderData :=
  if input.isDefault = some true then { data with isActive := some true } else data

/-- `emailSender.findFirst({ where: { id, userId } })`. -/
def findOwnSender (senderId : Uuid) (t : Tables) : Option StoredSender :=
  t.senders.find? fun s => decide (s.id = senderId) && decide (s.userId = user)

/-- The transaction of `PATCH /senders/:senderId`. -/
def patchTransaction (senderId : Uuid) (input : UpdateSenderInput) (now : Int) :
    Statement StoredSender := do
  let found ← .read (findOwnSender user senderId)
  match found with
  | none => .throw (httpError 404 "SENDER_NOT_FOUND" "The sender was not found")
  | some current => do
      .ofExcept (checkUpdate current input)
      let data ← .ofExcept (updateData lib input)
      Action.when (decide (input.isDefault = some true)) <|
        updateSenders (isOtherSender user senderId) { isDefault := some false } now
      updateSender current (withActive input data) now

/-- `PATCH /senders/:senderId`. -/
def patchSender (senderId : Option Uuid) (body : Option UpdateSenderBody) (now : Int) :
    Statement StoredSender := do
  let senderId ← .ofExcept (uuidParameter senderId)
  let input ← .ofExcept (updateSenderSchema config lib body)
  Action.mapError senderAlreadyExists <| .transaction (patchTransaction lib user senderId input now)

/-- The order of `GET /senders`: default senders first, then by age. -/
def senderBefore (a b : StoredSender) : Bool :=
  (a.isDefault && !b.isDefault) ||
    (a.isDefault == b.isDefault && decide (a.createdAt ≤ b.createdAt))

/-- `GET /senders`. -/
def getSenders (t : Tables) : List StoredSender :=
  (t.senders.filter fun s => decide (s.userId = user)).insertionSort fun a b => senderBefore a b

/-! ## What a handler that returns has done -/

variable {config lib user}

/-- The table after the default flag is taken from some senders, or not. -/
def undefault (c : Bool) (p : StoredSender → Bool) (now : Int) (senders : List StoredSender) :
    List StoredSender :=
  if c then updateMany p (SenderData.apply { isDefault := some false } now) senders else senders

section Undefault

variable {c : Bool} {p : StoredSender → Bool} {now : Int} {senders : List StoredSender}

theorem mem_undefault {r : StoredSender} : r ∈ undefault c p now senders ↔
    ∃ s ∈ senders, (if c && p s then SenderData.apply { isDefault := some false } now s else s) =
      r := by
  unfold undefault
  cases c with
  | false => simp
  | true => simp [mem_updateMany]

theorem primaryKey_undefault (h : PrimaryKey (fun s : StoredSender => s.id) senders) :
    PrimaryKey (fun s : StoredSender => s.id) (undefault c p now senders) := by
  unfold undefault
  split
  · exact h.updateMany fun _ => rfl
  · exact h

/-- The flag is taken away and never given. -/
theorem exists_of_mem_undefault {r : StoredSender} (h : r ∈ undefault c p now senders) :
    ∃ s ∈ senders, r.id = s.id ∧ r.userId = s.userId ∧ r.isActive = s.isActive ∧
      (r.isDefault = true → r = s ∧ (c && p s) = false) := by
  obtain ⟨s, hs, rfl⟩ := mem_undefault.1 h
  refine ⟨s, hs, ?_⟩
  cases hp : c && p s with
  | true => simp [SenderData.apply]
  | false => simp

/-- A row that does not meet the condition stays. -/
theorem mem_undefault_of_not {s : StoredSender} (hs : s ∈ senders) (hp : (c && p s) = false) :
    s ∈ undefault c p now senders :=
  mem_undefault.2 ⟨s, hs, by simp [hp]⟩

/-- Taking the flag away keeps the ids, so a row that fits the rows after it has a new id. -/
theorem id_ne_of_undefault {sender : StoredSender}
    (h : ∀ s ∈ undefault c p now senders, senderConflict sender s = false) :
    ∀ s ∈ senders, s.id ≠ sender.id := by
  intro s hs heq
  obtain ⟨r, hr, hid⟩ : ∃ r ∈ undefault c p now senders, r.id = s.id := by
    unfold undefault
    split
    · exact ⟨_, mem_updateMany.2 ⟨s, hs, rfl⟩, by split <;> rfl⟩
    · exact ⟨s, hs, rfl⟩
  exact id_ne_of_senderConflict (h r hr) (hid.trans heq).symm

end Undefault

theorem when_updateSenders_eq_ok {c : Bool} {p : StoredSender → Bool} {now : Int} {t t' : Tables}
    {u : Unit} (h : Action.when c (updateSenders p { isDefault := some false } now) t =
      (.ok u, t')) :
    t' = { t with senders := undefault c p now t.senders } := by
  unfold undefault
  cases c with
  | false =>
      cases h
      rfl
  | true =>
      cases h
      rfl

/-- **A sender that `POST /senders` returns** is the last row; it is the only default sender of its
user if it is one. -/
theorem postSenders_eq_ok {body : Option CreateSenderBody} {id : Uuid} {now : Int}
    {sender : StoredSender} {t t' : Tables}
    (h : postSenders config lib user body id now t = (.ok sender, t')) :
    ∃ input normalized, createSenderSchema config lib body = .ok input ∧
      sender = createdSender user input normalized id now ∧
      (∀ s ∈ undefault input.isDefault (fun s => decide (s.userId = user)) now t.senders,
        senderConflict sender s = false) ∧
      t' = { t with
        senders := undefault input.isDefault (fun s => decide (s.userId = user)) now t.senders ++
          [sender] } := by
  obtain ⟨input, t₁, hschema, hrest⟩ := Action.bind_eq_ok h
  obtain ⟨hinput, rfl⟩ := Action.ofExcept_eq_ok hschema
  obtain ⟨normalized, t₂, hemail, htransaction⟩ := Action.bind_eq_ok hrest
  obtain ⟨-, rfl⟩ := Action.ofExcept_eq_ok hemail
  have hbody := Action.transaction_eq_ok (Action.mapError_eq_ok htransaction)
  obtain ⟨_, t₃, hwhen, hinsert⟩ := Action.bind_eq_ok hbody
  have hundefault := when_updateSenders_eq_ok hwhen
  obtain ⟨rfl, -, hnew, rfl⟩ := insertSender_eq_ok hinsert
  rw [hundefault] at hnew ⊢
  exact ⟨input, normalized, hinput, rfl, hnew, rfl⟩

/-- A sender that is found is the user's own. -/
theorem findOwnSender_eq_some {senderId : Uuid} {t : Tables} {s : StoredSender}
    (h : findOwnSender user senderId t = some s) :
    s ∈ t.senders ∧ s.id = senderId ∧ s.userId = user := by
  have hown := List.find?_some h
  simp only [Bool.and_eq_true, decide_eq_true_eq] at hown
  exact ⟨List.mem_of_find?_eq_some h, hown.1, hown.2⟩

/-- **A sender that `PATCH /senders/:senderId` returns** was the user's own and passed the checks.
If it becomes the default, no other sender of the user is. -/
theorem patchSender_eq_ok {senderId : Option Uuid} {body : Option UpdateSenderBody} {now : Int}
    {sender : StoredSender} {t t' : Tables}
    (h : patchSender config lib user senderId body now t = (.ok sender, t')) :
    ∃ input current data, updateSenderSchema config lib body = .ok input ∧
      current ∈ t.senders ∧ current.userId = user ∧ senderId = some current.id ∧
      checkUpdate current input = .ok () ∧ updateData lib input = .ok data ∧
      sender = (withActive input data).apply now current ∧
      t' = { t with
        senders := updateMany (fun s => decide (s.id = current.id))
          ((withActive input data).apply now)
          (undefault (decide (input.isDefault = some true)) (isOtherSender user current.id) now
            t.senders) } := by
  obtain ⟨id, t₁, hid, hrest⟩ := Action.bind_eq_ok h
  obtain ⟨hid, rfl⟩ := Action.ofExcept_eq_ok hid
  obtain ⟨input, t₂, hschema, htransaction⟩ := Action.bind_eq_ok hrest
  obtain ⟨hinput, rfl⟩ := Action.ofExcept_eq_ok hschema
  have hbody := Action.transaction_eq_ok (Action.mapError_eq_ok htransaction)
  obtain ⟨found, t₃, hread, hfoundCase⟩ := Action.bind_eq_ok hbody
  obtain ⟨hfound, rfl⟩ := Action.read_eq_ok hread
  cases found with
  | none => cases hfoundCase
  | some current =>
      obtain ⟨_, t₄, hcheck, hdata⟩ := Action.bind_eq_ok hfoundCase
      obtain ⟨hpassed, rfl⟩ := Action.ofExcept_eq_ok hcheck
      obtain ⟨data, t₅, hdata, hwrites⟩ := Action.bind_eq_ok hdata
      obtain ⟨hbuilt, rfl⟩ := Action.ofExcept_eq_ok hdata
      obtain ⟨_, t₆, hwhen, hupdate⟩ := Action.bind_eq_ok hwrites
      have hundefault := when_updateSenders_eq_ok hwhen
      obtain ⟨rfl, -, rfl⟩ := updateSender_eq_ok hupdate
      -- The bare id of the update is that of the row that was read with the user's id.
      obtain ⟨hcurrent, rfl, rfl⟩ := findOwnSender_eq_some hfound
      have hparameter : senderId = some current.id := by
        cases senderId with
        | none => cases hid
        | some x =>
            cases hid
            rfl
      rw [hundefault]
      exact ⟨input, current, data, hinput, hcurrent, rfl, hparameter, hpassed, hbuilt, rfl, rfl⟩

/-! ## Requests that are rejected -/

/-- A rejected `POST /senders` changes nothing, even if the conflict comes after other senders lost
their default flag. -/
theorem rollsBack_postSenders (body : Option CreateSenderBody) (id : Uuid) (now : Int) :
    (postSenders config lib user body id now).RollsBack := by
  apply Action.RollsBack.bind (Action.readOnly_ofExcept _)
  intro input
  apply Action.RollsBack.bind (Action.readOnly_ofExcept _)
  intro normalized
  exact (Action.RollsBack.transaction _).mapError _

/-- A rejected `PATCH /senders/:senderId` changes nothing. -/
theorem rollsBack_patchSender (senderId : Option Uuid) (body : Option UpdateSenderBody)
    (now : Int) :
    (patchSender config lib user senderId body now).RollsBack := by
  apply Action.RollsBack.bind (Action.readOnly_ofExcept _)
  intro id
  apply Action.RollsBack.bind (Action.readOnly_ofExcept _)
  intro input
  exact (Action.RollsBack.transaction _).mapError _

end EmailScheduler
