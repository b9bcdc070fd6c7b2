import EmailScheduler.Api.ScheduleLayout
import EmailScheduler.Client.ApiClient

/-!
# The dashboard

`DashboardPage.tsx` with the table of `EmailTable.tsx`, against the server: the two tabs, the stacks
of cursors that the buttons of the table move along, and the queries whose responses come back at
any later time, from whatever tables the server has then.

A cursor that the dashboard sends is one that the server has made, so no list request of the
dashboard is refused, and each stack goes strictly forward through the list
(`navigable_of_reachable`).

A query is known by its tab and its cursor. Data of a query may be dropped at any time, and it is
asked again at any time.
-/

set_option autoImplicit false

namespace EmailScheduler

open Foundation

namespace Client

/-! ## The page -/

inductive Tab where
  | scheduled
  | sent
deriving DecidableEq, Repr

/-- The function of a query. -/
def Tab.call : Tab → Option String → ApiCall
  | .scheduled, cursor => .scheduled cursor
  | .sent, cursor => .sent cursor

/-- `data.nextCursor`. -/
def ApiData.nextCursor : ApiData → Option String
  | .scheduled page => page.nextCursor
  | .sent page => page.nextCursor
  | _ => none

/-- `data.items.length`. -/
def ApiData.itemCount : ApiData → Nat
  | .scheduled page => page.items.length
  | .sent page => page.items.length
  | _ => 0

/-- A query: its tab and its cursor. -/
structure Query where
  tab : Tab
  cursor : Option String
deriving DecidableEq, Repr

structure DashboardPage where
  activeTab : Tab := .scheduled
  scheduledCursors : List (Option String) := [none]
  sentCursors : List (Option String) := [none]
  /-- The last data of each query. -/
  data : Query → Option ApiData := fun _ => none
  /-- The last response of the query was an error. -/
  failed : Query → Bool := fun _ => false
  /-- The queries that wait for a response. -/
  fetching : List Query := []

namespace DashboardPage

variable (page : DashboardPage)

def cursorsOf : Tab → List (Option String)
  | .scheduled => page.scheduledCursors
  | .sent => page.sentCursors

def withCursors (tab : Tab) (cursors : List (Option String)) : DashboardPage :=
  match tab with
  | .scheduled => { page with scheduledCursors := cursors }
  | .sent => { page with sentCursors := cursors }

def cursors : List (Option String) := page.cursorsOf page.activeTab

/-- The query of the active tab: `cursors.at(-1)`, which is `undefined` on an empty list too. -/
def currentQuery : Query := ⟨page.activeTab, page.cursors.getLast?.join⟩

/-- The table shows items, and its two buttons: there is data, no error, and some item. -/
def showsTable : Bool :=
  !page.failed page.currentQuery &&
    match page.data page.currentQuery with
    | none => false
    | some data => decide (0 < data.itemCount)

def nextPage : DashboardPage :=
  match (page.data page.currentQuery).bind ApiData.nextCursor with
  | none => page
  | some next => page.withCursors page.activeTab (page.cursors ++ [some next])

def previousPage : DashboardPage := page.withCursors page.activeTab page.cursors.dropLast

/-- The response of a query. -/
def receive (query : Query) (outcome : Outcome ApiData) : DashboardPage :=
  match outcome with
  | .data data => { page with
      data := fun q => if q = query then some data else page.data q
      failed := fun q => if q = query then false else page.failed q }
  | _ => { page with failed := fun q => if q = query then true else page.failed q }

/-- `scheduled`: a batch was created. -/
def scheduled : DashboardPage := { page with activeTab := .scheduled, scheduledCursors := [none] }

end DashboardPage

/-! ## The page and the server -/

structure Dashboard where
  tables : Tables
  page : DashboardPage

inductive DashboardEvent where
  /-- A login, a request or a write of the worker. -/
  | server (event : ApiEvent)
  /-- The current query is sent. -/
  | fetch
  /-- The server answers a query that waits. -/
  | answer (query : Query) (ctx : RequestContext)
  /-- A response gets lost. -/
  | lost (query : Query)
  | next
  | previous
  | switchTab (tab : Tab)
  | scheduled
  /-- The data of a query is dropped. -/
  | drop (query : Query)

section Run

variable (config : AppConfig) (lib : Libraries) (schema : CursorSchema)
  (issues : List String → List (String × String)) (user : Uuid)

/-- The end of a list request of the user. -/
def listOutcome (query : Query) (ctx : RequestContext) (t : Tables) : Outcome ApiData :=
  apiRequest (query.tab.call query.cursor).schema
    ((serve config lib user ctx ((query.tab.call query.cursor).request schema) t).response.http issues)

namespace Dashboard

/-- One step. The buttons work while the table shows them, and not where they are disabled. -/
def step : DashboardEvent → Dashboard → Option Dashboard
  | .server event, s =>
      ((apiSystem config lib).step event s.tables).map fun t => { s with tables := t }
  | .fetch, s => some { s with
      page := { s.page with fetching := s.page.fetching ++ [s.page.currentQuery] } }
  | .answer query ctx, s =>
      if query ∈ s.page.fetching then some { s with
        page := { s.page.receive query
          (listOutcome config lib schema issues user query ctx s.tables)
          with fetching := s.page.fetching.erase query } }
      else none
  | .lost query, s =>
      if query ∈ s.page.fetching then some { s with
        page := { s.page.receive query .unreadable with fetching := s.page.fetching.erase query } }
      else none
  | .next, s => if s.page.showsTable then some { s with page := s.page.nextPage } else none
  | .previous, s =>
      if s.page.showsTable && decide (1 < s.page.cursors.length) then
        some { s with page := s.page.previousPage }
      else none
  | .switchTab tab, s => some { s with page := { s.page with activeTab := tab } }
  | .scheduled, s => some { s with page := s.page.scheduled }
  | .drop query, s => some { s with
      page := { s.page with data := fun q => if q = query then none else s.page.data q } }

/-- A page that a user has just opened, in any state of the server that knows the user. -/
def system : TransitionSystem Dashboard DashboardEvent where
  init s := (apiSystem config lib).Reachable TransitionSystem.anyStep s.tables ∧
    (∃ v ∈ s.tables.users, v.id = user) ∧ s.page = {}
  step := step config lib schema issues user

/-- The rows that the server answers with have the ids of UUIDs and times of four-digit years. -/
def AnswersPageable (s : Dashboard) : DashboardEvent → Prop
  | .answer _ _ => Pageable s.tables
  | _ => True

end Dashboard

end Run

/-! ## Cursors -/

/-- The list that a tab shows. -/
def Tab.list : Tab → EmailList
  | .scheduled => scheduledList
  | .sent => sentList

/-- The server reads the cursor of a query as this position. -/
def ReadAs (schema : CursorSchema) (cursor : Option String) (position : Option Cursor) : Prop :=
  (listQuery schema cursor).cursor = cursorAt position

section Lists

variable {config : AppConfig} {lib : Libraries} {schema : CursorSchema}
  {issues : List String → List (String × String)} {user : Uuid} {ctx : RequestContext} {t : Tables}
  {cursor : Option String} {position p : Option Cursor}

theorem ReadAs.unique (h : ReadAs schema cursor position) (h' : ReadAs schema cursor p) :
    position = p := by
  have hsame : cursorAt position = cursorAt p := h.symm.trans h'
  cases position <;> cases p <;> cases hsame <;> rfl

theorem readAs_text {text : String} {c : Cursor}
    (h : cursorParameter schema (.value text) = .text c) : ReadAs schema (some text) (some c) := by
  unfold ReadAs listQuery cursorAt
  exact h

/-- A list request without a limit and a sender. -/
theorem listInput_listQuery (h : ReadAs schema cursor position) :
    listInput config (listQuery schema cursor) =
      .ok ⟨position, config.apiPageSize.toNat, none⟩ := by
  unfold ReadAs at h
  unfold listInput
  rw [h]
  cases position <;> rfl

/-- The next cursor of a page comes after the cursor of the request. -/
theorem follows_nextCursor {α κ : Type} [LinearOrder κ] {list : EmailList}
    {item : Tables → StoredEmail → α} {show' : α → Cursor} {key : Cursor → κ} {input : ListInput}
    (hlist : PagedList list item show' key) {next : Cursor}
    (h : (emailPage user list item input t).nextCursor = some next) :
    ∀ c ∈ input.cursor, list.follows c next = true := by
  intro c hc
  have hpage := keysetPage_shownItems hlist user input t
  have hnext := congrArg Prod.snd hpage
  rw [h] at hnext
  exact (hlist.keyed.follows_iff c next).2 (lt_next hnext (key c) (Option.mem_map_of_mem key hc))

/-- What the data of a query say about the next page. -/
def Continues (schema : CursorSchema) (query : Query) (data : ApiData) : Prop :=
  ∀ position, ReadAs schema query.cursor position → ∀ text, data.nextCursor = some text →
    ∃ c, ReadAs schema (some text) (some c) ∧ ∀ p ∈ position, query.tab.list.follows p c = true

/-- A page of a list and what the client makes of it. -/
theorem continues_of_page {α κ : Type} [LinearOrder κ] {item : Tables → StoredEmail → α}
    {show' : α → Cursor} {key : Cursor → κ} {query : Query} {input : ListInput} {data : ApiData}
    (hschema : StandardTexts schema) (hlist : PagedList query.tab.list item show' key)
    (ht : Pageable t) (hread : ReadAs schema query.cursor input.cursor)
    (hdata : data.nextCursor =
      (emailPage user query.tab.list item input t).nextCursor.map encodeCursor) :
    Continues schema query data := by
  intro position hposition text htext
  rw [hdata] at htext
  obtain ⟨next, hnext, rfl⟩ := Option.map_eq_some_iff.1 htext
  refine ⟨next, readAs_text (cursorParameter_nextCursor hschema hlist ht hnext), ?_⟩
  rw [hposition.unique hread]
  exact follows_nextCursor hlist hnext

/-- **The server answers a list request of the dashboard** with data that go on after its cursor. -/
theorem listOutcome_of_readAs (h : TenantInv t) (huser : ∃ v ∈ t.users, v.id = user) {query : Query}
    (hread : ReadAs schema query.cursor position) :
    ∃ data, listOutcome config lib schema issues user query ctx t = .data data ∧
      (StandardTexts schema → Pageable t → Continues schema query data) := by
  obtain ⟨tab, cursor⟩ := query
  have hinput : listInput config (listQuery schema cursor) =
      .ok ⟨position, config.apiPageSize.toNat, none⟩ := listInput_listQuery hread
  cases tab with
  | scheduled =>
      have hserved : (serve config lib user ctx
        (.getScheduled (listQuery schema cursor)) t).response =
          .scheduledEmails (emailPage user scheduledList scheduledItem
            ⟨position, config.apiPageSize.toNat, none⟩ t) := by
        rw [serve_of_user huser]
        exact response_onTables (listRoute_fst hinput user scheduledList scheduledItem t)
      have hanswer : Answers (.scheduled cursor) (.scheduledEmails (emailPage user scheduledList
          scheduledItem ⟨position, config.apiPageSize.toNat, none⟩ t))
            (listOutcome config lib schema issues user ⟨.scheduled, cursor⟩ ctx t) := by
        unfold listOutcome Tab.call ApiCall.request
        dsimp only
        rw [hserved]
        exact answered_scheduled h cursor _
      generalize listOutcome config lib schema issues user ⟨.scheduled, cursor⟩ ctx t = outcome
        at hanswer ⊢
      cases hanswer with
      | scheduled _ hshown =>
          refine ⟨_, rfl, fun hschema ht => ?_⟩
          have hlist : PagedList (Tab.list .scheduled) scheduledItem ScheduledItem.position
            scheduledKey := pagedList_scheduledList
          exact continues_of_page hschema hlist ht hread hshown.nextCursor
  | sent =>
      have hserved : (serve config lib user ctx (.getSent (listQuery schema cursor)) t).response =
          .sentEmails (emailPage user sentList sentItem
            ⟨position, config.apiPageSize.toNat, none⟩ t) := by
        rw [serve_of_user huser]
        exact response_onTables (listRoute_fst hinput user sentList sentItem t)
      have hanswer : Answers (.sent cursor) (.sentEmails (emailPage user sentList sentItem
          ⟨position, config.apiPageSize.toNat, none⟩ t))
            (listOutcome config lib schema issues user ⟨.sent, cursor⟩ ctx t) := by
        unfold listOutcome Tab.call ApiCall.request
        dsimp only
        rw [hserved]
        exact answered_sent h cursor _
      generalize listOutcome config lib schema issues user ⟨.sent, cursor⟩ ctx t =
        outcome at hanswer ⊢
      cases hanswer with
      | sent _ hshown =>
          refine ⟨_, rfl, fun hschema ht => ?_⟩
          have hlist : PagedList (Tab.list .sent) sentItem SentItem.position sentKey :=
            pagedList_sentList
          exact continues_of_page hschema hlist ht hread hshown.nextCursor

end Lists

/-! ## Stacks -/

/-- A stack of cursors, and the positions of those after the first page: each comes after the one
before. -/
inductive Stack (schema : CursorSchema) (list : EmailList) :
    List (Option String) → List Cursor → Prop where
  | first : Stack schema list [none] []
  | push {cursors : List (Option String)} {positions : List Cursor} {text : String} {c : Cursor} :
      Stack schema list cursors positions → ReadAs schema (some text) (some c) →
        (∀ p ∈ positions.getLast?, list.follows p c = true) →
          Stack schema list (cursors ++ [some text]) (positions ++ [c])

namespace Stack

variable {schema : CursorSchema} {list : EmailList} {cursors : List (Option String)}
  {positions : List Cursor}

/-- The cursor of the current page. -/
theorem top (h : Stack schema list cursors positions) :
    ReadAs schema cursors.getLast?.join positions.getLast? := by
  cases h with
  | first => rfl
  | push _ hread _ =>
      rw [List.getLast?_concat, List.getLast?_concat]
      exact hread

/-- Going back. -/
theorem pop (h : Stack schema list cursors positions) (hmore : 1 < cursors.length) :
    ∃ positions', Stack schema list cursors.dropLast positions' := by
  cases h with
  | first => exact absurd hmore (by decide)
  | push hstack _ _ =>
      rw [List.dropLast_concat]
      exact ⟨_, hstack⟩

/-- The order of a list is transitive. -/
theorem follows_trans {κ : Type} [LinearOrder κ] {key : Cursor → κ} (hkey : list.KeyedBy key)
    {a b c : Cursor} (hab : list.follows a b = true) (hbc : list.follows b c = true) :
    list.follows a c = true :=
  (hkey.follows_iff a c).2 (((hkey.follows_iff a b).1 hab).trans ((hkey.follows_iff b c).1 hbc))

/-- **A stack goes strictly forward**, by induction on the pushes. -/
theorem forward {κ : Type} [LinearOrder κ] {key : Cursor → κ} (hkey : list.KeyedBy key)
    (h : Stack schema list cursors positions) :
    (∃ texts, cursors = none :: texts.map some ∧
      List.Forall₂ (fun text c => ReadAs schema (some text) (some c)) texts positions) ∧
    positions.Pairwise fun a b => list.follows a b = true := by
  induction h with
  | first => exact ⟨⟨[], rfl, .nil⟩, .nil⟩
  | @push cursors positions text c _ hread hfollows ih =>
      obtain ⟨⟨texts, rfl, htexts⟩, hpairwise⟩ := ih
      refine ⟨⟨texts ++ [text], by simp, List.rel_append htexts (.cons hread .nil)⟩, ?_⟩
      rw [List.pairwise_append]
      refine ⟨hpairwise, List.pairwise_singleton _ _, fun a ha b hb => ?_⟩
      rw [List.mem_singleton.1 hb]
      -- All positions come before the last one, which comes before the new one.
      obtain ⟨front, last, rfl⟩ := List.eq_nil_or_concat' positions |>.resolve_left
        (List.ne_nil_of_mem ha)
      have hlast : list.follows last c = true := hfollows last (by rw [List.getLast?_concat]; rfl)
      rcases List.mem_append.1 ha with ha | ha
      · have hbefore := (List.pairwise_append.1 hpairwise).2.2 a ha last (List.mem_singleton_self _)
        exact follows_trans hkey hbefore hlast
      · rw [List.mem_singleton.1 ha]
        exact hlast

end Stack

namespace Dashboard

variable {config : AppConfig} {lib : Libraries} {schema : CursorSchema}
  {issues : List String → List (String × String)} {user : Uuid} {s t : Dashboard}

/-- What holds between the page and the server. -/
structure PageInv (config : AppConfig) (lib : Libraries) (schema : CursorSchema) (user : Uuid)
    (s : Dashboard) : Prop where
  reachable : (apiSystem config lib).Reachable TransitionSystem.anyStep s.tables
  user : ∃ v ∈ s.tables.users, v.id = user
  stack : ∀ tab : Tab, ∃ positions, Stack schema tab.list (s.page.cursorsOf tab) positions
  data : ∀ query data, s.page.data query = some data → Continues schema query data
  fetching : ∀ query ∈ s.page.fetching, ∃ position, ReadAs schema query.cursor position

theorem PageInv.current (h : PageInv config lib schema user s) :
    ∃ position, ReadAs schema s.page.currentQuery.cursor position := by
  obtain ⟨positions, hstack⟩ := h.stack s.page.activeTab
  exact ⟨_, hstack.top⟩

theorem pageInv_init (h : (system config lib schema issues user).init s) :
    PageInv config lib schema user s := by
  obtain ⟨hreachable, huser, hpage⟩ := h
  refine ⟨hreachable, huser, ?_, ?_, ?_⟩
  · intro tab
    rw [hpage]
    cases tab <;> exact ⟨_, .first⟩
  · intro query data hdata
    rw [hpage] at hdata
    cases hdata
  · intro query hquery
    rw [hpage] at hquery
    cases hquery

/-- The page changes one stack. -/
theorem PageInv.withCursors (h : PageInv config lib schema user s) {tab : Tab}
    {cursors : List (Option String)} {positions : List Cursor}
    (hstack : Stack schema tab.list cursors positions) :
    PageInv config lib schema user { s with page := s.page.withCursors tab cursors } := by
  refine ⟨h.reachable, h.user, fun tab' => ?_, fun query data hdata => ?_, fun query hquery => ?_⟩
  · cases tab <;> cases tab'
    · exact ⟨_, hstack⟩
    · exact h.stack .sent
    · exact h.stack .scheduled
    · exact ⟨_, hstack⟩
  · cases tab <;> exact h.data query data hdata
  · cases tab <;> exact h.fetching query hquery

/-- A response comes in. -/
theorem PageInv.receive (h : PageInv config lib schema user s) {query : Query}
    {outcome : Outcome ApiData}
    (houtcome : ∀ data, outcome = .data data → Continues schema query data) :
    PageInv config lib schema user { s with
      page := { s.page.receive query outcome with fetching := s.page.fetching.erase query } } := by
  have hfetching : ∀ q ∈ s.page.fetching.erase query, ∃ position, ReadAs schema q.cursor position :=
    fun q hq => h.fetching q (List.mem_of_mem_erase hq)
  cases outcome with
  | data data =>
      refine ⟨h.reachable, h.user, fun tab => ?_, fun q d hd => ?_, hfetching⟩
      · cases tab <;> exact h.stack _
      · dsimp only [DashboardPage.receive] at hd
        split_ifs at hd with hq
        · cases hd
          rw [hq]
          exact houtcome _ rfl
        · exact h.data q d hd
  | apiError status code message =>
      refine ⟨h.reachable, h.user, fun tab => ?_, h.data, hfetching⟩
      cases tab <;> exact h.stack _
  | unreadable =>
      refine ⟨h.reachable, h.user, fun tab => ?_, h.data, hfetching⟩
      cases tab <;> exact h.stack _

/-- **One step.** -/
theorem PageInv.step (hschema : StandardTexts schema) (h : PageInv config lib schema user s)
    {event : DashboardEvent} (hallowed : AnswersPageable s event)
    (hstep : (system config lib schema issues user).step event s = some t) :
    PageInv config lib schema user t := by
  cases event with
  | server event =>
      obtain ⟨tables, htables, rfl⟩ := Option.map_eq_some_iff.1 hstep
      exact ⟨h.reachable.trans (.single trivial htables), user_of_step htables h.user,
        h.stack, h.data,
        h.fetching⟩
  | fetch =>
      cases hstep
      refine ⟨h.reachable, h.user, fun tab => ?_, h.data, fun query hquery => ?_⟩
      · cases tab <;> exact h.stack _
      · rcases List.mem_append.1 hquery with hquery | hquery
        · exact h.fetching query hquery
        · rw [List.mem_singleton.1 hquery]
          exact h.current
  | answer query ctx =>
      simp only [system, Dashboard.step] at hstep
      split_ifs at hstep with hquery
      cases hstep
      refine h.receive fun data hdata => ?_
      -- The query was asked under a cursor that the server reads, whenever it is answered.
      obtain ⟨position, hread⟩ := h.fetching query hquery
      obtain ⟨data', hdata', hcontinues⟩ :=
        listOutcome_of_readAs (tenantInv_of_reachable h.reachable)
        h.user hread
      rw [hdata'] at hdata
      cases hdata
      exact hcontinues hschema hallowed
  | lost query =>
      simp only [system, Dashboard.step] at hstep
      split_ifs at hstep with hquery
      cases hstep
      refine h.receive fun data hdata => ?_
      cases hdata
  | next =>
      simp only [system, Dashboard.step] at hstep
      split_ifs at hstep with hshown
      cases hstep
      unfold DashboardPage.nextPage
      cases hnext : (s.page.data s.page.currentQuery).bind ApiData.nextCursor with
      | none => exact h
      | some text =>
          obtain ⟨data, hdata, htext⟩ := Option.bind_eq_some_iff.1 hnext
          -- The cursor that is pushed comes with the data shown, which go on after the top of the
          -- stack.
          obtain ⟨positions, hstack⟩ := h.stack s.page.activeTab
          obtain ⟨c, hread, hfollows⟩ := h.data _ data hdata _ hstack.top text htext
          exact h.withCursors (.push hstack hread hfollows)
  | previous =>
      simp only [system, Dashboard.step, Bool.and_eq_true, decide_eq_true_eq] at hstep
      split_ifs at hstep with hshown
      cases hstep
      obtain ⟨positions, hstack⟩ := h.stack s.page.activeTab
      obtain ⟨positions', hpop⟩ := hstack.pop hshown.2
      exact h.withCursors hpop
  | switchTab tab =>
      cases hstep
      refine ⟨h.reachable, h.user, fun tab' => ?_, h.data, h.fetching⟩
      cases tab' <;> exact h.stack _
  | scheduled =>
      cases hstep
      refine ⟨h.reachable, h.user, fun tab => ?_, h.data, h.fetching⟩
      -- Only the tab of the scheduled emails goes back to its first page.
      cases tab with
      | scheduled => exact ⟨_, .first⟩
      | sent => exact h.stack .sent
  | drop query =>
      cases hstep
      refine ⟨h.reachable, h.user, fun tab => ?_, fun q d hd => ?_, h.fetching⟩
      · cases tab <;> exact h.stack _
      · dsimp only at hd
        split_ifs at hd
        exact h.data q d hd

theorem pageInv_of_reachable (hschema : StandardTexts schema)
    (h : (system config lib schema issues user).Reachable AnswersPageable s) :
    PageInv config lib schema user s := by
  apply h.invariant
  · intro s hs
    exact pageInv_init hs
  · intro s event t hallowed hstep hinv
    exact hinv.step hschema hallowed hstep

/-- **The dashboard finds its way.** Whatever the user does on the page, and whatever logins,
requests and the worker do meanwhile: the stack of a tab is the first page and then cursors that the
server reads as positions further and further on in the list; and every list request of the page,
for the page shown or one that waits, is answered with data and not refused. -/
theorem navigable_of_reachable (hschema : StandardTexts schema)
    (h : (system config lib schema issues user).Reachable AnswersPageable s) :
    (∀ tab : Tab, ∃ texts positions, s.page.cursorsOf tab = none :: texts.map some ∧
      List.Forall₂ (fun text c => ReadAs schema (some text) (some c)) texts positions ∧
      positions.Pairwise fun a b => tab.list.follows a b = true) ∧
    ∀ query ctx, query = s.page.currentQuery ∨ query ∈ s.page.fetching →
      ∃ data, listOutcome config lib schema issues user query ctx s.tables = .data data := by
  have hinv := pageInv_of_reachable hschema h
  refine ⟨fun tab => ?_, fun query ctx hquery => ?_⟩
  · obtain ⟨positions, hstack⟩ := hinv.stack tab
    cases tab with
    | scheduled =>
        obtain ⟨⟨texts, hcursors, htexts⟩, hforward⟩ := hstack.forward keyedBy_scheduledList
        exact ⟨texts, positions, hcursors, htexts, hforward⟩
    | sent =>
        obtain ⟨⟨texts, hcursors, htexts⟩, hforward⟩ := hstack.forward keyedBy_sentList
        exact ⟨texts, positions, hcursors, htexts, hforward⟩
  · have hread : ∃ position, ReadAs schema query.cursor position := by
      rcases hquery with rfl | hquery
      · exact hinv.current
      · exact hinv.fetching query hquery
    obtain ⟨position, hread⟩ := hread
    obtain ⟨data, hdata, -⟩ :=
      listOutcome_of_readAs (tenantInv_of_reachable hinv.reachable) hinv.user
      hread
    exact ⟨data, hdata⟩

theorem step_answer {query : Query} (h : query ∈ s.page.fetching) (ctx : RequestContext) :
    (system config lib schema issues user).step (.answer query ctx) s = some { s with
      page := { s.page.receive query (listOutcome config lib schema issues user query ctx s.tables)
        with fetching := s.page.fetching.erase query } } :=
  if_pos h

/-- A user with two emails that wait. -/
def twoScheduled : Option Tables :=
  (apiSystem validConfig testLibraries).run TransitionSystem.anyStep
    [.login ⟨"subject", "first@test.invalid", "User", none⟩ ⟨1, 10, 0⟩,
      .request 1 (.postEmailBatches (.ok threeLines) (some "first-batch"))
        ⟨0, 0, 20, fun i => 0x40008000000000000000 + i, true⟩] {}

/-- The first tab is read; the second one waits for its response. -/
theorem navigable_of_bothTabs : ∃ t, twoScheduled = some t ∧ (ownEmails 1 t).length = 2 ∧
    ∃ s, (system validConfig testLibraries plainCursors (fun _ => []) 1).Reachable
      AnswersPageable s ∧
      s.page.fetching = [⟨.sent, none⟩] ∧
      (∀ tab : Tab, ∃ texts positions, s.page.cursorsOf tab = none :: texts.map some ∧
        List.Forall₂ (fun text c => ReadAs plainCursors (some text) (some c)) texts positions ∧
        positions.Pairwise fun a b => tab.list.follows a b = true) ∧
      ∀ query ctx, query = s.page.currentQuery ∨ query ∈ s.page.fetching →
        ∃ data, listOutcome validConfig testLibraries plainCursors
        (fun _ => []) 1 query ctx s.tables =
          .data data := by
  have hrun : twoScheduled.any (fun t =>
      decide ((ownEmails 1 t).length = 2 ∧ (∃ v ∈ t.users, v.id = 1) ∧
        PrimaryKey (fun e : StoredEmail => e.id) t.emails ∧ (∀ e ∈ t.emails, IsRfcUuid e.id) ∧
        (∀ e ∈ t.emails, FourDigitYear e.nextAttemptAt) ∧
        ∀ e ∈ t.emails, FourDigitYear e.updatedAt)) = true := by
    decide +kernel
  obtain ⟨t, ht, hcheck⟩ := (Option.any_eq_true _ _).1 hrun
  obtain ⟨hlength, huser, hids, hrfc, hnext, hupdated⟩ := of_decide_eq_true hcheck
  have hpageable : Pageable t := ⟨⟨hrfc, hnext, hupdated⟩, hids⟩
  -- The page is opened, and both tabs are asked for.
  have hopened : (system validConfig testLibraries plainCursors (fun _ => []) 1).Reachable
      AnswersPageable ⟨t, {}⟩ :=
    ⟨⟨t, {}⟩, ⟨TransitionSystem.reachable_of_run _ rfl ht, huser, rfl⟩, .refl⟩
  have hasked := hopened.trans (.single (l := .fetch) trivial rfl)
  have hswitched := hasked.trans (.single (l := .switchTab .sent) trivial rfl)
  have hwaiting := hswitched.trans (.single (l := .fetch) trivial rfl)
  -- The first one is answered.
  have hanswered :=
    hwaiting.trans (.single (l := .answer ⟨.scheduled, none⟩ (contextOf 30)) hpageable
    (step_answer (List.mem_cons_self ..) (contextOf 30)))
  have hnavigable := navigable_of_reachable standardTexts_plainCursors hanswered
  exact ⟨t, ht, hlength, _, hanswered, rfl, hnavigable⟩

end Dashboard

end Client

end EmailScheduler
