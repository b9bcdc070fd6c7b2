import Mathlib.Data.Prod.Lex
import EmailScheduler.Foundation.Keyset
import EmailScheduler.Api.CursorCodec

/-!
# Following the cursors of a list

A client reads a list page after page: it sends the `nextCursor` of one response as the `cursor` of
the next request, up to the response whose `nextCursor` is null (`followCursors`). Between two
requests the tables change in any way.

A list is keyset pagination by time and id (`keysetPage_matching`), so the rules of
`Foundation.followPages` hold for it, and a cursor survives its way through the client
(`cursorParameter_encodeCursor`). `pagination_exact` puts both together for the two routes.
-/

set_option autoImplicit false

namespace EmailScheduler

open Foundation

/-! ## Reading a whole list -/

section Follow

variable {α : Type} (schema : CursorSchema) (route : ListQuery → Statement (EmailPage α))
  (limit : Field Int) (senderId : Field Uuid)

/-- The items of all pages from a cursor on, each read from the next of the tables. There is no
result if a request fails, if the last page has a next cursor or if an earlier one has none. -/
def followCursors : Field String → List Tables → Option (List α)
  | _, [] => none
  | cursor, t :: later =>
      match (route ⟨cursorParameter schema cursor, limit, senderId⟩ t).1 with
      | .error _ => none
      | .ok page =>
          match page.nextCursor with
          | none => if later.isEmpty then some page.items else none
          | some next =>
              (followCursors (.value (encodeCursor next)) later).map (page.items ++ ·)

end Follow

/-- The ids of the table are UUIDs, and its times have four-digit years. -/
structure ReadablePositions (t : Tables) : Prop where
  rfcUuid : ∀ e ∈ t.emails, IsRfcUuid e.id
  nextAttemptAt : ∀ e ∈ t.emails, FourDigitYear e.nextAttemptAt
  updatedAt : ∀ e ∈ t.emails, FourDigitYear e.updatedAt

/-- Besides that, the ids do not repeat. -/
structure Pageable (t : Tables) : Prop extends ReadablePositions t where
  ids : PrimaryKey (fun e : StoredEmail => e.id) t.emails

namespace EmailList

/-- The condition of a list on a row, without a cursor. -/
def matching (list : EmailList) (user : Uuid) (senderId : Option Uuid) (t : Tables)
    (e : StoredEmail) : Bool :=
  ownsEmail user t e && (list.statuses.contains e.status &&
    match senderId with
    | none => true
    | some senderId => decide (e.senderId = senderId))

/-- The keys of a list: an order of positions in which one comes after another as its filter
says. -/
structure KeyedBy {κ : Type} [LinearOrder κ] (list : EmailList) (key : Cursor → κ) : Prop where
  injective : Function.Injective key
  follows_iff : ∀ a b, list.follows a b = true ↔ key a < key b

end EmailList

/-- The key of the scheduled list: by time and id. -/
def scheduledKey (c : Cursor) : ℤ ×ₗ ℕ := toLex (c.sortAt, c.id)

/-- The key of the sent list, which descends. -/
def sentKey (c : Cursor) : (ℤ ×ₗ ℕ)ᵒᵈ := OrderDual.toDual (scheduledKey c)

theorem scheduledKey_injective : Function.Injective scheduledKey := by
  intro a b h
  obtain ⟨hsortAt, hid⟩ := Prod.mk.inj (toLex.injective h)
  rcases a with ⟨sortAt, id⟩
  rcases b with ⟨sortAt', id'⟩
  dsimp only at hsortAt hid
  rw [hsortAt, hid]

theorem isAfter_iff (a b : Cursor) : isAfter a b = true ↔ scheduledKey a < scheduledKey b := by
  rw [isAfter, scheduledKey, scheduledKey, Prod.Lex.toLex_lt_toLex, Bool.or_eq_true,
    Bool.and_eq_true, decide_eq_true_eq, decide_eq_true_eq, decide_eq_true_eq,
    eq_comm (a := b.sortAt)]

theorem keyedBy_scheduledList : scheduledList.KeyedBy scheduledKey where
  injective := scheduledKey_injective
  follows_iff := isAfter_iff

theorem keyedBy_sentList : sentList.KeyedBy sentKey where
  injective _ _ h := scheduledKey_injective (OrderDual.toDual.injective h)
  follows_iff a b := isAfter_iff b a

/-! ## A page of a list -/

section Page

variable {κ : Type} [LinearOrder κ] {list : EmailList} {key : Cursor → κ} {user : Uuid}
  {t : Tables}

/-- The filter of a query is the condition of the list and, after a cursor, the order of the key. -/
theorem filter_selects (hkey : list.KeyedBy key) (input : ListInput) :
    (t.emails.filter fun e => ownsEmail user t e && list.selects input e) =
      (t.emails.filter (list.matching user input.senderId t)).filter fun e =>
        (input.cursor.map key).all fun c => decide (c < key (list.position e)) := by
  rw [List.filter_filter]
  refine List.filter_congr fun e _ => ?_
  unfold EmailList.selects EmailList.matching
  cases input.cursor with
  | none =>
      have hmissing : ∀ owned listed sent : Bool,
          (owned && (listed && sent && true)) = (true && (owned && (listed && sent))) := by decide
      exact hmissing _ _ _
  | some c =>
      have hfollows : list.follows c (list.position e) =
        decide (key c < key (list.position e)) := by
        rw [Bool.eq_iff_iff, decide_eq_true_iff]
        exact hkey.follows_iff _ _
      rw [Option.map_some, Option.all_some, ← hfollows, Bool.and_comm (list.follows c _)]
      exact (Bool.and_assoc _ _ _).symm

/-- A query sorts by the key. -/
theorem insertionSort_follows (hkey : list.KeyedBy key) (rows : List StoredEmail) :
    (rows.insertionSort fun a b => !list.follows (list.position b) (list.position a)) =
      rows.insertionSort fun a b => key (list.position a) ≤ key (list.position b) := by
  have horder : (fun a b : StoredEmail =>
      (!list.follows (list.position b) (list.position a)) = true) =
        fun a b => key (list.position a) ≤ key (list.position b) := by
    funext a b
    rw [Bool.not_eq_true', ← Bool.not_eq_true, hkey.follows_iff, not_lt]
  congr!

/-- **A page of a list is a page of keyset pagination.** -/
theorem keysetPage_matching (hkey : list.KeyedBy key) (input : ListInput) :
    keysetPage (fun e => key (list.position e)) input.limit (input.cursor.map key)
        (t.emails.filter (list.matching user input.senderId t)) =
      ((list.page user input t).1, (list.page user input t).2.map key) := by
  have hrows : (rowsAfter (fun e => key (list.position e)) (input.cursor.map key)
      (t.emails.filter (list.matching user input.senderId t))).take (input.limit + 1) =
        list.rows user input t := by
    unfold EmailList.rows rowsAfter
    rw [filter_selects hkey, insertionSort_follows hkey]
  unfold keysetPage EmailList.page
  dsimp only
  rw [hrows]
  split
  · rw [Option.map_map]
    rfl
  · rfl

end Page

/-! ## A request -/

section Request

variable {α κ : Type} [LinearOrder κ]

/-- What both routes do. -/
def listRoute (config : AppConfig) (user : Uuid) (list : EmailList)
    (item : Tables → StoredEmail → α) (query : ListQuery) : Statement (EmailPage α) := do
  let input ← .ofExcept (listInput config query)
  .read (emailPage user list item input)

/-- The cursor of a request that continues after a position. -/
def cursorAt : Option Cursor → CursorParameter
  | none => .missing
  | some cursor => .text cursor

variable {config : AppConfig} {limit : Field Int} {senderId : Field Uuid} {input : ListInput}

/-- What an accepted request has been read as. -/
theorem listInput_eq_ok {query : ListQuery} (h : listInput config query = .ok input) :
    ∃ n, query.limit.withDefault
    (integerWithin 1 config.apiMaxPageSize) config.apiPageSize = some n ∧
      query.senderId.optional some = some input.senderId ∧ input.limit = n.toNat := by
  rcases query with ⟨cursor, limit, senderId⟩
  unfold listInput at h
  dsimp only at h ⊢
  generalize limit.withDefault (integerWithin 1 config.apiMaxPageSize) config.apiPageSize = l at h ⊢
  generalize senderId.optional some = s at h ⊢
  cases cursor with
  | invalid => cases h
  | missing =>
      cases l <;> cases s <;> cases h
      exact ⟨_, rfl, rfl, rfl⟩
  | undecodable =>
      cases l <;> cases s <;> cases h
  | text cursor =>
      cases l <;> cases s <;> cases h
      exact ⟨_, rfl, rfl, rfl⟩

/-- The limit and the sender of a request are read the same with any cursor. -/
theorem listInput_cursorAt (h : listInput config ⟨.missing, limit, senderId⟩ = .ok input)
    (cursor : Option Cursor) :
    listInput config ⟨cursorAt cursor, limit, senderId⟩ =
      .ok ⟨cursor, input.limit, input.senderId⟩ := by
  obtain ⟨n, hlimit, hsender, hn⟩ := listInput_eq_ok h
  unfold listInput
  dsimp only at hlimit hsender ⊢
  rw [hlimit, hsender, hn]
  cases cursor with
  | none => rfl
  | some cursor => rfl

/-- A page has room for a row. -/
theorem one_le_limit {query : ListQuery} (h : listInput config query = .ok input) :
    1 ≤ input.limit := by
  obtain ⟨n, hlimit, -, hn⟩ := listInput_eq_ok h
  have hpos : 1 ≤ n := by
    cases hfield : query.limit with
    | missing =>
        rw [hfield] at hlimit
        cases hlimit
        exact config.one_le_apiPageSize
    | invalid =>
        rw [hfield] at hlimit
        cases hlimit
    | value m =>
        rw [hfield] at hlimit
        obtain ⟨rfl, hlow, -⟩ := integerWithin_eq_some hlimit
        exact hlow
  omega

/-- The response to a request. -/
theorem listRoute_fst {query : ListQuery} (h : listInput config query = .ok input) (user : Uuid)
    (list : EmailList) (item : Tables → StoredEmail → α) (t : Tables) :
    (listRoute config user list item query t).1 = .ok (emailPage user list item input t) := by
  unfold listRoute
  rw [h]
  rfl

/-- The request of a response. -/
theorem listRoute_eq_ok {list : EmailList} {item : Tables → StoredEmail → α} {user : Uuid}
    {query : ListQuery} {t : Tables} {page : EmailPage α}
    (h : (listRoute config user list item query t).1 = .ok page) :
    ∃ input, listInput config query = .ok input ∧ page = emailPage user list item input t := by
  cases hinput : listInput config query with
  | error e =>
      unfold listRoute at h
      rw [hinput] at h
      cases h
  | ok input =>
      rw [listRoute_fst hinput user list item] at h
      exact ⟨input, rfl, (Except.ok.inj h).symm⟩

end Request

/-! ## The two lists -/

/-- What the proofs use of a list and its items: the key, the position that an item shows, and that
its times have four-digit years. -/
structure PagedList {α κ : Type} [LinearOrder κ] (list : EmailList)
    (item : Tables → StoredEmail → α) (position : α → Cursor) (key : Cursor → κ) : Prop where
  keyed : list.KeyedBy key
  position_item : ∀ t e, position (item t e) = list.position e
  fourDigitYear : ∀ t, Pageable t → ∀ e ∈ t.emails, FourDigitYear (list.sortAt e)

/-- The position that an item of `GET /emails/scheduled` shows. -/
def ScheduledItem.position (i : ScheduledItem) : Cursor := ⟨i.nextAttemptAt, i.id⟩

/-- The position that an item of `GET /emails/sent` shows. -/
def SentItem.position (i : SentItem) : Cursor := ⟨i.completedAt, i.id⟩

theorem pagedList_scheduledList :
    PagedList scheduledList scheduledItem ScheduledItem.position scheduledKey where
  keyed := keyedBy_scheduledList
  position_item _ _ := rfl
  fourDigitYear _ h := h.nextAttemptAt

theorem pagedList_sentList : PagedList sentList sentItem SentItem.position sentKey where
  keyed := keyedBy_sentList
  position_item _ _ := rfl
  fourDigitYear _ h := h.updatedAt

section Traversal

variable {α κ : Type} [LinearOrder κ] {list : EmailList} {item : Tables → StoredEmail → α}
  {position : α → Cursor} {key : Cursor → κ} {schema : CursorSchema} {config : AppConfig}
  {user : Uuid} {limit : Field Int} {senderId : Field Uuid} {input : ListInput} {t : Tables}

/-- The items of the rows that match. -/
def shownItems (list : EmailList) (item : Tables → StoredEmail → α) (user : Uuid)
    (senderId : Option Uuid) (t : Tables) : List α :=
  (t.emails.filter (list.matching user senderId t)).map (item t)

/-- A response is a page of the shown items. -/
theorem keysetPage_shownItems (hlist : PagedList list item position key) (user : Uuid)
    (input : ListInput) (t : Tables) :
    keysetPage (fun i => key (position i)) input.limit (input.cursor.map key)
        (shownItems list item user input.senderId t) =
      ((emailPage user list item input t).items,
        (emailPage user list item input t).nextCursor.map key) := by
  have hkey : (fun e => key (position (item t e))) = fun e => key (list.position e) := by
    funext e
    rw [hlist.position_item]
  rw [shownItems, keysetPage_map, hkey, keysetPage_matching hlist.keyed]
  rfl

/-- A shown item is that of a matching row, and shows its position. -/
theorem mem_shownItems (hlist : PagedList list item position key) {senderId : Option Uuid} {i : α}
    (h : i ∈ shownItems list item user senderId t) :
    ∃ e ∈ t.emails, list.matching user senderId t e = true ∧ item t e = i ∧
      position i = list.position e := by
  obtain ⟨e, he, rfl⟩ := List.mem_map.1 h
  obtain ⟨hmem, hmatching⟩ := List.mem_filter.1 he
  exact ⟨e, hmem, hmatching, rfl, hlist.position_item t e⟩

/-- The next cursor of a response is the position of its last item, which is that of a row. -/
theorem nextCursor_spec (hlist : PagedList list item position key) {next : Cursor}
    (h : (emailPage user list item input t).nextCursor = some next) :
    ∃ last, (emailPage user list item input t).items.getLast? = some last ∧ position last = next ∧
      ∃ e ∈ t.emails, list.position e = next := by
  have hpage := keysetPage_shownItems hlist user input t
  have hnext : (keysetPage (fun i => key (position i)) input.limit (input.cursor.map key)
      (shownItems list item user input.senderId t)).2 = some (key next) := by
    rw [hpage, h]
    rfl
  obtain ⟨last, hlast, heq⟩ := exists_last_of_next hnext
  have hposition : position last = next := hlist.keyed.injective heq
  obtain ⟨e, he, -, -, hshown⟩ :=
    mem_shownItems hlist (mem_keysetPage (List.mem_of_getLast? hlast)).1
  rw [hpage] at hlast
  exact ⟨last, hlast, hposition, e, he, hshown.symm.trans hposition⟩

/-- **A cursor that the server sends comes back as the position it was made from.** -/
theorem cursorParameter_nextCursor (hschema : StandardTexts schema)
    (hlist : PagedList list item position key) (ht : Pageable t) {next : Cursor}
    (h : (emailPage user list item input t).nextCursor = some next) :
    cursorParameter schema (.value (encodeCursor next)) = .text next := by
  obtain ⟨-, -, -, e, he, rfl⟩ := nextCursor_spec hlist h
  exact cursorParameter_encodeCursor hschema (hlist.fourDigitYear t ht e he) (ht.rfcUuid e he)

/-- **Following the cursors of a list is reading keyset pages**, by induction on the tables. -/
theorem followCursors_eq (hschema : StandardTexts schema) (hlist : PagedList list item position key)
    (hinput : listInput config ⟨.missing, limit, senderId⟩ = .ok input) (states : List Tables)
    (hstates : ∀ t ∈ states, Pageable t) :
    ∀ (sent : Field String) (cursor : Option Cursor), cursorParameter schema sent =
      cursorAt cursor →
      followCursors schema (listRoute config user list item) limit senderId sent states =
        followPages (fun i => key (position i)) input.limit (cursor.map key)
          (states.map (shownItems list item user input.senderId)) := by
  induction states with
  | nil => exact fun sent cursor _ => rfl
  | cons t later ih =>
      intro sent cursor hsent
      have hresponse := listRoute_fst (listInput_cursorAt hinput cursor) user list item t
      have hpage := keysetPage_shownItems hlist user ⟨cursor, input.limit, input.senderId⟩ t
      rw [followCursors, hsent, hresponse, List.map_cons, followPages]
      dsimp only at hpage ⊢
      rw [hpage]
      cases hnext : (emailPage user list item
        ⟨cursor, input.limit, input.senderId⟩ t).nextCursor with
      | none =>
          dsimp only [Option.map_none]
          rw [List.isEmpty_map]
      | some next =>
          have hback := cursorParameter_nextCursor hschema hlist
            (hstates t List.mem_cons_self) hnext
          dsimp only [Option.map_some]
          rw [ih (fun t h => hstates t (List.mem_cons_of_mem _ h)) _ (some next) hback]
          rfl

/-- An accepted first request. -/
theorem exists_listInput {states : List Tables} {items : List α}
    (h : followCursors schema (listRoute config user list item) limit senderId .missing states =
      some items) : ∃ input, listInput config ⟨.missing, limit, senderId⟩ = .ok input := by
  cases states with
  | nil => cases h
  | cons t later =>
      rw [followCursors] at h
      split at h
      next => cases h
      next page hpage =>
        obtain ⟨input, hinput, -⟩ := listRoute_eq_ok hpage
        exact ⟨input, hinput⟩

/-- Shown items have different positions. -/
theorem primaryKey_shownItems (hlist : PagedList list item position key) (ht : Pageable t)
    (senderId : Option Uuid) :
    PrimaryKey (fun i => key (position i)) (shownItems list item user senderId t) := by
  unfold PrimaryKey shownItems
  rw [List.map_map, List.Nodup, List.pairwise_map]
  refine ((List.pairwise_map.1 ht.ids).filter _).imp fun {e e'} hid heq => hid ?_
  have hposition : list.position e = list.position e' := by
    rw [← hlist.position_item t e, ← hlist.position_item t e']
    exact hlist.keyed.injective heq
  exact congrArg Cursor.id hposition

/-- The row with this id matches and has this time. -/
def Keeps (list : EmailList) (user : Uuid) (senderId : Option Uuid) (id : Uuid) (sortAt : Int)
    (t : Tables) : Prop :=
  ∃ e ∈ t.emails, e.id = id ∧ list.sortAt e = sortAt ∧ list.matching user senderId t e = true

/-- What a client has read from a list while its tables changed: rows that matched when they were
read, in the order of the list without repeats, and among them once each row that matched all the
time and kept its time. -/
structure ExactItems (list : EmailList) (item : Tables → StoredEmail → α) (position : α → Cursor)
    (user : Uuid) (senderId : Option Uuid) (states : List Tables) (items : List α) : Prop where
  matched : ∀ i ∈ items, ∃ t ∈ states, ∃ e ∈ t.emails,
    list.matching user senderId t e = true ∧ item t e = i
  monotone : items.Pairwise fun a b => list.follows (position a) (position b) = true
  complete : ∀ id sortAt, (∀ t ∈ states, Keeps list user senderId id sortAt t) →
    ∃ i, items.filter (fun i => decide ((position i).id = id)) = [i] ∧ position i = ⟨sortAt, id⟩

/-- A row that keeps its time is shown at the same position whenever it is shown. -/
theorem position_of_keeps (hlist : PagedList list item position key) (ht : Pageable t)
    {sender : Option Uuid} {id : Uuid} {sortAt : Int} (h : Keeps list user sender id sortAt t) :
    (∃ i ∈ shownItems list item user sender t, key (position i) = key ⟨sortAt, id⟩) ∧
      ∀ i ∈ shownItems list item user sender t, (position i).id = id →
        position i = ⟨sortAt, id⟩ := by
  obtain ⟨e, he, rfl, rfl, hmatching⟩ := h
  constructor
  · refine ⟨item t e, List.mem_map_of_mem (List.mem_filter.2 ⟨he, hmatching⟩), ?_⟩
    rw [hlist.position_item]
    rfl
  · intro i hi hid
    obtain ⟨e', he', -, -, hshown⟩ := mem_shownItems hlist hi
    rw [hshown] at hid ⊢
    rw [ht.ids.eq_of_key_eq he' he hid]
    rfl

/-- **What a client reads**, for both lists at once. -/
theorem exactItems (hschema : StandardTexts schema) (hlist : PagedList list item position key)
    {states : List Tables} (hstates : ∀ t ∈ states, Pageable t) {items : List α}
    (hinput : listInput config ⟨.missing, limit, senderId⟩ = .ok input)
    (h : followCursors schema (listRoute config user list item) limit senderId .missing states =
      some items) : ExactItems list item position user input.senderId states items := by
  rw [followCursors_eq hschema hlist hinput states hstates .missing none rfl] at h
  have hkeys : ∀ rows ∈ states.map (shownItems list item user input.senderId),
      PrimaryKey (fun i => key (position i)) rows := by
    intro rows hrows
    obtain ⟨t, ht, rfl⟩ := List.mem_map.1 hrows
    exact primaryKey_shownItems hlist (hstates t ht) _
  have hshown : ∀ i ∈ items, ∃ t ∈ states, i ∈ shownItems list item user input.senderId t := by
    intro i hi
    obtain ⟨⟨rows, hrows, hmem⟩, -⟩ := mem_followPages h hi
    obtain ⟨t, ht, rfl⟩ := List.mem_map.1 hrows
    exact ⟨t, ht, hmem⟩
  have hincreasing := pairwise_followPages hkeys h
  refine ⟨?_, ?_, ?_⟩
  · intro i hi
    obtain ⟨t, ht, hmem⟩ := hshown i hi
    obtain ⟨e, he, hmatching, heq, -⟩ := mem_shownItems hlist hmem
    exact ⟨t, ht, e, he, hmatching, heq⟩
  · exact hincreasing.imp fun hlt => (hlist.keyed.follows_iff _ _).2 hlt
  · intro id sortAt hkeeps
    -- The row is read, and each item with its id shows the same position.
    have hthere : ∀ rows ∈ states.map (shownItems list item user input.senderId),
        ∃ i ∈ rows, key (position i) = key ⟨sortAt, id⟩ := by
      intro rows hrows
      obtain ⟨t, ht, rfl⟩ := List.mem_map.1 hrows
      exact (position_of_keeps hlist (hstates t ht) (hkeeps t ht)).1
    obtain ⟨i, hi, hikey⟩ :=
      exists_mem_followPages (one_le_limit hinput) hkeys h hthere fun c hc => nomatch hc
    have hposition := hlist.keyed.injective hikey
    refine ⟨i, filter_eq_singleton hincreasing hi ?_ ?_, hposition⟩
    · rw [hposition]
      exact decide_eq_true rfl
    · intro j hj hid
      obtain ⟨t, ht, hmem⟩ := hshown j hj
      rw [(position_of_keeps hlist (hstates t ht) (hkeeps t ht)).2 j hmem (of_decide_eq_true hid),
        hposition]

/-- **A client comes to the end of a list** whose rows take finitely many positions over time. -/
theorem exists_followCursors (hschema : StandardTexts schema)
    (hlist : PagedList list item position key)
    (hinput : listInput config ⟨.missing, limit, senderId⟩ = .ok input) {states : Nat → Tables}
    (hstates : ∀ n, Pageable (states n)) {positions : Finset Cursor}
    (hpositions : ∀ n, ∀ e ∈ (states n).emails, list.position e ∈ positions) :
    ∃ n items, followCursors schema (listRoute config user list item) limit senderId .missing
      ((List.range n).map states) = some items := by
  have hkeys : ∀ n, ∀ i ∈ shownItems list item user input.senderId (states n),
      key (position i) ∈ positions.image key := by
    intro n i hi
    obtain ⟨e, he, -, -, hshown⟩ := mem_shownItems hlist hi
    rw [hshown]
    exact Finset.mem_image_of_mem key (hpositions n e he)
  obtain ⟨n, items, hitems⟩ := exists_followPages input.limit _ none _ hkeys
  refine ⟨n, items, ?_⟩
  have hpageable : ∀ t ∈ (List.range n).map states, Pageable t := by
    intro t ht
    obtain ⟨m, -, rfl⟩ := List.mem_map.1 ht
    exact hstates m
  rw [followCursors_eq hschema hlist hinput _ hpageable .missing none rfl, List.map_map]
  exact hitems

end Traversal

/-! ## The routes -/

/-- The pagination of a route is exact: a client that follows the cursors through changing tables
reads what `ExactItems` says, it comes to an end, and a cursor in a response is read back as the
position of the last item. -/
structure ExactPagination {α : Type} (schema : CursorSchema) (config : AppConfig) (user : Uuid)
    (list : EmailList) (item : Tables → StoredEmail → α) (position : α → Cursor)
    (route : ListQuery → Statement (EmailPage α)) : Prop where
  items : ∀ (limit : Field Int) (senderId : Field Uuid) (states : List Tables) (items : List α),
    (∀ t ∈ states, Pageable t) →
      followCursors schema route limit senderId .missing states = some items →
        ∃ sender, senderId.optional some = some sender ∧
          ExactItems list item position user sender states items
  ends : ∀ (limit : Field Int) (senderId : Field Uuid) (input : ListInput),
    listInput config ⟨.missing, limit, senderId⟩ = .ok input →
      ∀ (states : Nat → Tables) (positions : Finset Cursor), (∀ n, Pageable (states n)) →
        (∀ n, ∀ e ∈ (states n).emails, list.position e ∈ positions) →
          ∃ n items, followCursors schema route limit senderId .missing
            ((List.range n).map states) = some items
  cursor : ∀ (query : ListQuery) (t : Tables) (page : EmailPage α) (next : Cursor), Pageable t →
    (route query t).1 = .ok page → page.nextCursor = some next →
      (∃ last, page.items.getLast? = some last ∧ position last = next) ∧
        decodeCursor (cursorParameter schema (.value (encodeCursor next))) = .ok (some next)

/-- The same for any list with a key. -/
theorem exactPagination {α κ : Type} [LinearOrder κ] {list : EmailList}
    {item : Tables → StoredEmail → α} {position : α → Cursor} {key : Cursor → κ}
    {schema : CursorSchema} (hschema : StandardTexts schema)
    (hlist : PagedList list item position key) (config : AppConfig) (user : Uuid) :
    ExactPagination schema config user list item position (listRoute config user list item) where
  items limit senderId states items hstates h := by
    obtain ⟨input, hinput⟩ := exists_listInput h
    obtain ⟨-, -, hsender, -⟩ := listInput_eq_ok hinput
    exact ⟨input.senderId, hsender, exactItems hschema hlist hstates hinput h⟩
  ends limit senderId input hinput states positions hstates hpositions :=
    exists_followCursors hschema hlist hinput hstates hpositions
  cursor query t page next ht hpage hnext := by
    obtain ⟨input, -, rfl⟩ := listRoute_eq_ok hpage
    obtain ⟨last, hlast, hposition, -⟩ := nextCursor_spec hlist hnext
    refine ⟨⟨last, hlast, hposition⟩, ?_⟩
    rw [cursorParameter_nextCursor hschema hlist ht hnext]
    rfl

/-- **Pagination is exact**, for both lists, every user, limit and sender. -/
theorem pagination_exact (schema : CursorSchema) (hschema : StandardTexts schema)
    (config : AppConfig) (user : Uuid) :
    ExactPagination schema config user scheduledList scheduledItem ScheduledItem.position
        (getScheduled config user) ∧
      ExactPagination schema config user sentList sentItem SentItem.position
      (getSent config user) :=
  ⟨exactPagination hschema pagedList_scheduledList config user,
    exactPagination hschema pagedList_sentList config user⟩

/-! ## Three rows at one time -/

/-- A schema that accepts what can be read. -/
def plainCursors : CursorSchema where
  isDatetime text := (readDate text).isSome
  isUuid text := (readUuid text).any fun id => decide (IsRfcUuid id)

theorem standardTexts_plainCursors : StandardTexts plainCursors where
  datetime d hvalid hyear := by
    dsimp only [plainCursors]
    rw [DateTime.readDate_text hvalid hyear]
    rfl
  uuid id hid := by
    dsimp only [plainCursors]
    rw [readUuid_uuidText hid.1]
    exact decide_eq_true hid

/-- A row whose id ends in this number, all at one time. -/
def tiedEmail (n : Nat) : StoredEmail where
  id := 0x40008000000000000000 + n
  batchId := 10
  senderId := 5
  recipientEmail := "ada@example.test"
  normalizedRecipientEmail := "ada@example.test"
  sequenceNumber := n
  scheduledAt := 1767225600000
  nextAttemptAt := 1767225600000
  bullJobId := createBullJobId n
  idempotencyKey := createRecipientIdempotencyKey n "ada@example.test"
  updatedAt := 1767225600000

/-- The tables of a user with these rows. -/
def tiedTables (ns : List Nat) : Tables where
  batches := [{
    id := 10
    userId := 1
    senderId := 5
    idempotencyKey := "key"
    subject := "Hello"
    bodyText := "Hello"
    startAt := 1767225600000
    requestedHourlyLimit := 10
    requestedMinimumDelayMs := 1000
    sourceFilename := "leads.csv"
    totalRows := 3
    validRecipientCount := 3
    invalidRecipientCount := 0
    duplicateRecipientCount := 0
    status := .scheduled
    createdAt := 1767225600000 }]
  emails := ns.map tiedEmail

/-- A row is inserted after the first of three pages with one row each. -/
theorem pagination_exact_of_tied :
    (∃ items, followCursors plainCursors (getScheduled validConfig 1) (.value 1) .missing .missing
        [tiedTables [2, 1], tiedTables [3, 2, 1], tiedTables [3, 2, 1]] = some items ∧
      items.map (fun i => i.id % 16) = [1, 2, 3]) ∧
    ExactPagination plainCursors validConfig 1 scheduledList scheduledItem ScheduledItem.position
        (getScheduled validConfig 1) ∧
      ExactPagination plainCursors validConfig 1 sentList sentItem SentItem.position
        (getSent validConfig 1) := by
  refine ⟨?_, pagination_exact plainCursors standardTexts_plainCursors validConfig 1⟩
  have hpageable : ∀ t ∈ [tiedTables [2, 1], tiedTables [3, 2, 1], tiedTables [3, 2, 1]],
      Pageable t := by
    intro t ht
    simp only [List.mem_cons, List.not_mem_nil, or_false] at ht
    rcases ht with rfl | rfl | rfl
    · exact ⟨⟨by decide +kernel, by decide +kernel, by decide +kernel⟩, by decide⟩
    · exact ⟨⟨by decide +kernel, by decide +kernel, by decide +kernel⟩, by decide⟩
    · exact ⟨⟨by decide +kernel, by decide +kernel, by decide +kernel⟩, by decide⟩
  have hinput : listInput validConfig ⟨.missing, .value 1, .missing⟩ = .ok ⟨none, 1, none⟩ := by
    decide +kernel
  have hfollow : followCursors plainCursors (getScheduled validConfig 1)
    (.value 1) .missing .missing
      [tiedTables [2, 1], tiedTables [3, 2, 1], tiedTables [3, 2, 1]] = _ :=
    followCursors_eq standardTexts_plainCursors pagedList_scheduledList hinput _ hpageable
      .missing none
      rfl
  rw [hfollow]
  exact Option.map_eq_some_iff.1 (by decide +kernel)

end EmailScheduler
