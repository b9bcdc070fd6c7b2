import EmailScheduler.Api.Batches

/-!
# Email lists

The routes `GET /emails/scheduled` and `GET /emails/sent` of `email/router.ts`. They list the emails
of the user's batches by a time and the id, one ascending and the other descending, and go on after
a cursor. `EmailList` is what they differ in.

A cursor is given as `decodeCursor` reads it: the time and the id, or a text that it does not
accept (`cursorParameter` reads the texts). UUIDs are ordered as PostgreSQL orders them.
-/

set_option autoImplicit false

namespace EmailScheduler

open Foundation

/-- The position of a row in a list. -/
structure Cursor where
  sortAt : Int
  id : Uuid
deriving DecidableEq, Repr

/-- The `cursor` of a query. -/
inductive CursorParameter where
  | missing
  /-- Empty, or given more than once. -/
  | invalid
  /-- A text that `cursorSchema` does not accept. -/
  | undecodable
  | text (cursor : Cursor)
deriving DecidableEq, Repr

/-- The query of both routes. -/
structure ListQuery where
  cursor : CursorParameter := .missing
  limit : Field Int := .missing
  senderId : Field Uuid := .missing
deriving DecidableEq, Repr

structure ListInput where
  cursor : Option Cursor
  limit : Nat
  senderId : Option Uuid
deriving DecidableEq, Repr

variable (config : AppConfig) (user : Uuid)

/-- `decodeCursor`. -/
def decodeCursor : CursorParameter → Except RequestError (Option Cursor)
  | .missing | .invalid => .ok none
  | .undecodable => .error (httpError 400 "INVALID_CURSOR" "The pagination cursor is invalid")
  | .text cursor => .ok (some cursor)

/-- `listQuerySchema`, and then `decodeCursor`. -/
def listInput (query : ListQuery) : Except RequestError ListInput :=
  let limit := query.limit.withDefault (integerWithin 1 config.apiMaxPageSize) config.apiPageSize
  let senderId := query.senderId.optional some
  match query.cursor, limit, senderId with
  | .invalid, limit, senderId =>
      .error (.invalidRequest ("cursor" :: issue "limit" limit ++ issue "senderId" senderId))
  | cursor, some limit, some senderId => do
      let cursor ← decodeCursor cursor
      return ⟨cursor, limit.toNat, senderId⟩
  | _, limit, senderId =>
      .error (.invalidRequest (issue "limit" limit ++ issue "senderId" senderId))

/-- `batch: { userId }`: the row belongs to a batch of the user. -/
def ownsEmail (t : Tables) (e : StoredEmail) : Bool :=
  t.batches.any fun b => decide (b.id = e.batchId) && decide (b.userId = user)

/-- `scheduledDashboardStatuses`. -/
def scheduledDashboardStatuses : List ScheduledEmailStatus :=
  [.scheduled, .rateLimited, .processing, .retryable]

/-- `sentDashboardStatuses`. -/
def sentDashboardStatuses : List ScheduledEmailStatus := [.sent, .failed, .deliveryUnknown]

/-- By time and then by id: the `OR` of the filters. -/
def isAfter (a b : Cursor) : Bool :=
  decide (a.sortAt < b.sortAt) || (decide (b.sortAt = a.sortAt) && decide (a.id < b.id))

/-- What the two lists differ in. -/
structure EmailList where
  statuses : List ScheduledEmailStatus
  sortAt : StoredEmail → Int
  /-- The second position comes after the first. -/
  follows : Cursor → Cursor → Bool

/-- The list of `GET /emails/scheduled`. -/
def scheduledList : EmailList where
  statuses := scheduledDashboardStatuses
  sortAt e := e.nextAttemptAt
  follows a b := isAfter a b

/-- The list of `GET /emails/sent`. -/
def sentList : EmailList where
  statuses := sentDashboardStatuses
  sortAt e := e.updatedAt
  follows a b := isAfter b a

namespace EmailList

variable (list : EmailList)

/-- The position of a row. -/
def position (e : StoredEmail) : Cursor := ⟨list.sortAt e, e.id⟩

/-- `where`, but for the owner. -/
def selects (input : ListInput) (e : StoredEmail) : Bool :=
  list.statuses.contains e.status &&
    (match input.senderId with
      | none => true
      | some senderId => decide (e.senderId = senderId)) &&
    match input.cursor with
      | none => true
      | some cursor => list.follows cursor (list.position e)

/-- `scheduledEmail.findMany`, with one row more than the page. -/
def rows (input : ListInput) (t : Tables) : List StoredEmail :=
  (((t.emails.filter fun e => ownsEmail user t e && list.selects input e).insertionSort
    fun a b => !list.follows (list.position b) (list.position a)) : List StoredEmail).take
      (input.limit + 1)

/-- The page, and the cursor of its last row if there are more. -/
def page (input : ListInput) (t : Tables) : List StoredEmail × Option Cursor :=
  let rows := list.rows user input t
  let page := rows.take input.limit
  (page, if rows.length > input.limit then page.getLast?.map list.position else none)

end EmailList

/-- `select: { displayName, email }` of the sender. -/
structure SenderName where
  displayName : String
  email : String
deriving DecidableEq, Repr

def senderName (s : StoredSender) : SenderName := ⟨s.displayName, s.email⟩

/-- The subject of the batch of a row. -/
def subjectOf (batchId : Uuid) (t : Tables) : Option String :=
  (t.batches.find? fun b => decide (b.id = batchId)).map fun b => b.subject

structure ScheduledItem where
  id : Uuid
  recipientEmail : String
  subject : Option String
  scheduledAt : Int
  nextAttemptAt : Int
  status : ScheduledEmailStatus
  sender : Option SenderName
deriving DecidableEq, Repr

structure SentItem where
  id : Uuid
  recipientEmail : String
  subject : Option String
  sentAt : Option Int
  completedAt : Int
  status : ScheduledEmailStatus
  etherealPreviewUrl : Option String
  error : Option String
  sender : Option SenderName
deriving DecidableEq, Repr

/-- A page of a list. -/
structure EmailPage (α : Type) where
  items : List α
  nextCursor : Option Cursor
deriving DecidableEq, Repr

def scheduledItem (t : Tables) (e : StoredEmail) : ScheduledItem where
  id := e.id
  recipientEmail := e.recipientEmail
  subject := subjectOf e.batchId t
  scheduledAt := e.scheduledAt
  nextAttemptAt := e.nextAttemptAt
  status := e.status
  sender := (senderOf e.senderId t).map senderName

def sentItem (t : Tables) (e : StoredEmail) : SentItem where
  id := e.id
  recipientEmail := e.recipientEmail
  subject := subjectOf e.batchId t
  sentAt := e.sentAt
  completedAt := e.updatedAt
  status := e.status
  etherealPreviewUrl := e.etherealPreviewUrl
  error := e.lastErrorMessage
  sender := (senderOf e.senderId t).map senderName

/-- The response of a list route. -/
def emailPage {α : Type} (list : EmailList) (item : Tables → StoredEmail → α) (input : ListInput)
    (t : Tables) : EmailPage α :=
  ⟨(list.page user input t).1.map (item t), (list.page user input t).2⟩

/-- `GET /emails/scheduled`. -/
def getScheduled (query : ListQuery) : Statement (EmailPage ScheduledItem) := do
  let input ← .ofExcept (listInput config query)
  .read (emailPage user scheduledList scheduledItem input)

/-- `GET /emails/sent`. -/
def getSent (query : ListQuery) : Statement (EmailPage SentItem) := do
  let input ← .ofExcept (listInput config query)
  .read (emailPage user sentList sentItem input)

variable {config user}

theorem readOnly_getScheduled (query : ListQuery) : (getScheduled config user query).ReadOnly :=
  .bind (Action.readOnly_ofExcept _) fun _ => Action.readOnly_read _

theorem readOnly_getSent (query : ListQuery) : (getSent config user query).ReadOnly :=
  .bind (Action.readOnly_ofExcept _) fun _ => Action.readOnly_read _

/-! ## Pages -/

theorem mem_rows {list : EmailList} {input : ListInput} {t : Tables} {e : StoredEmail}
    (h : e ∈ list.rows user input t) :
    e ∈ t.emails ∧ ownsEmail user t e = true ∧ list.selects input e = true := by
  have hmem := List.mem_of_mem_take h
  rw [List.mem_insertionSort, List.mem_filter, Bool.and_eq_true] at hmem
  exact hmem

/-- **A page holds the user's own rows.** -/
theorem mem_page {list : EmailList} {input : ListInput} {t : Tables} {e : StoredEmail}
    (h : e ∈ (list.page user input t).1) :
    e ∈ t.emails ∧ ownsEmail user t e = true ∧ list.selects input e = true :=
  mem_rows (List.mem_of_mem_take h)

end EmailScheduler
