import EmailScheduler.Application
import EmailScheduler.Api.TenantIsolation
import EmailScheduler.Foundation.Latest

/-!
# Accounts

`auth/google-profile.ts` and the callbacks of `auth/passport.ts`. A sign-in turns the profile that
Google returns into an identity and saves it (`verify`); the session keeps the id of the account
(`serializeUser`), and a later request loads the account by it (`deserializeUser`).

In every run of sign-ins, requests and steps of the worker, two sign-ins get the same account
exactly if they are of the same Google user, whatever addresses and names the profiles have; and an
id of a session loads the account as the last sign-in of its Google user left it (`accounts`).
-/

set_option autoImplicit false

namespace EmailScheduler

open Foundation

/-! ## Profiles -/

/-- An entry of `emails`. -/
structure ProfileEmail where
  value : String
  verified : Option Bool
deriving DecidableEq, Repr

/-- What the source reads of a `Profile`; `photos` are their values. -/
structure GoogleProfile where
  id : String
  displayName : String
  emails : Option (List ProfileEmail)
  photos : Option (List String)
deriving DecidableEq, Repr

/-- The first operand of `||` that is not empty. -/
def orElseText (text alternative : String) : String := if text = "" then alternative else text

/-- `email.split("@")[0]`. -/
def localPart (email : String) : String := .ofList (email.toList.takeWhile (· != '@'))

/-- `toLowerCase` is that of all of Unicode, and nothing below depends on what it returns. -/
def normalizeGoogleProfile (toLowerCase : String → String) (profile : GoogleProfile) :
    Except String GoogleIdentity :=
  let emailEntry := (profile.emails.getD []).find? fun entry => entry.verified != some false
  let email := emailEntry.map fun entry => toLowerCase (trim entry.value)
  match email with
  | none => .error "Google did not provide a verified identity and email"
  | some email =>
      if trim profile.id = "" ∨ email = "" then
        .error "Google did not provide a verified identity and email"
      else
        .ok {
          googleSubject := profile.id
          email
          name := orElseText (orElseText (trim profile.displayName) (localPart email)) email
          avatarUrl := (profile.photos.getD []).head? }

section Callbacks

variable (config : AppConfig) (toLowerCase : String → String) (profile : GoogleProfile)
  (ctx : LoginContext)

/-- The callback of the Google strategy. -/
def verify : Statement AuthenticatedUser := do
  let identity ← .ofExcept
    ((normalizeGoogleProfile toLowerCase profile).mapError fun _ => RequestError.other)
  upsertGoogleUser config identity ctx

def serializeUser (user : AuthenticatedUser) : Uuid := user.id

/-- `none` is the `false` of an id that is no account's. -/
def deserializeUser (userId : Uuid) : Statement (Option AuthenticatedUser) :=
  .read (findAuthenticatedUser userId)

variable {config toLowerCase profile ctx}

/-- The subject of an identity is the id of the profile. -/
theorem googleSubject_of_normalize {identity : GoogleIdentity}
    (h : normalizeGoogleProfile toLowerCase profile = .ok identity) :
    identity.googleSubject = profile.id := by
  unfold normalizeGoogleProfile at h
  dsimp only at h
  split at h
  · cases h
  · split_ifs at h
    cases h
    rfl

/-- A sign-in that returns has saved the identity of the profile. -/
theorem verify_eq_ok {user : AuthenticatedUser} {t t' : Tables}
    (h : verify config toLowerCase profile ctx t = (.ok user, t')) :
    ∃ identity, normalizeGoogleProfile toLowerCase profile = .ok identity ∧
      upsertGoogleUser config identity ctx t = (.ok user, t') := by
  obtain ⟨identity, t₁, hidentity, hupsert⟩ := Action.bind_eq_ok h
  obtain ⟨hidentity, rfl⟩ := Action.ofExcept_eq_ok hidentity
  cases hnormal : normalizeGoogleProfile toLowerCase profile with
  | error message =>
      rw [hnormal] at hidentity
      cases hidentity
  | ok normal =>
      rw [hnormal] at hidentity
      cases hidentity
      exact ⟨identity, rfl, hupsert⟩

/-- One that fails changes nothing. -/
theorem rollsBack_verify (config : AppConfig) (toLowerCase : String → String)
    (profile : GoogleProfile) (ctx : LoginContext) :
    (verify config toLowerCase profile ctx).RollsBack := by
  apply Action.RollsBack.bind
  · apply Action.readOnly_ofExcept
  · intro identity
    exact rollsBack_upsertGoogleUser config identity ctx

end Callbacks

/-! ## Sign-ins, requests and the worker -/

/-- A sign-in with Google, or another event of the application. -/
inductive AccountEvent where
  | signIn (profile : GoogleProfile) (ctx : LoginContext)
  | request (user : Uuid) (request : EmailRequest) (ctx : RequestContext)
  | work (event : DeliveryEvent) (tables : Tables)

/-- A sign-in that returned: the profile, and the account that its session is for. -/
structure SignIn where
  profile : GoogleProfile
  user : AuthenticatedUser
deriving DecidableEq, Repr

/-- The Google user. -/
def SignIn.subject (x : SignIn) : String := x.profile.id

namespace Accounts

variable (config : AppConfig) (lib : Libraries) (toLowerCase : String → String)

def step : AccountEvent → Application → Option Application
  | .signIn profile ctx, s => some (s.write (verify config toLowerCase profile ctx s.tables).2)
  | .request user request ctx, s => Application.step config lib (.request user request ctx) s
  | .work event tables, s => Application.step config lib (.work event tables) s

/-- Runs start with an empty database. -/
def system : TransitionSystem Application AccountEvent where
  init := (Application.system config lib).init
  step := step config lib toLowerCase

/-- The sign-in that an event is, if it returns. -/
def signedIn : AccountEvent → Application → List SignIn
  | .signIn profile ctx, s =>
      match (verify config toLowerCase profile ctx s.tables).1 with
      | .ok user => [⟨profile, user⟩]
      | .error _ => []
  | .request _ _ _, _ | .work _ _, _ => []

/-- The sign-ins of a run, the oldest first. -/
def signIns : List AccountEvent → Application → List SignIn
  | [], _ => []
  | event :: events, s =>
      signedIn config toLowerCase event s ++
        ((step config lib toLowerCase event s).map (signIns events)).getD []

variable {config lib toLowerCase} {s t : Application} {event : AccountEvent} {past : List SignIn}
  {users : List User} {x y : SignIn}

/-! ## One row for each Google user -/

/-- The users are the accounts of the past sign-ins, each as the last one of its Google user left
it. -/
structure AccountsInv (toLowerCase : String → String) (past : List SignIn) (users : List User) :
    Prop where
  ids : PrimaryKey User.id users
  subjects : PrimaryKey User.googleSubject users
  /-- A row is what the last sign-in of its subject returned. -/
  latest : ∀ v ∈ users, ∃ x, Latest SignIn.subject past x ∧ x.subject = v.googleSubject ∧
    x.user = toAuthenticatedUser v
  row : ∀ x ∈ past, ∃ v ∈ users, v.googleSubject = x.subject ∧ v.id = x.user.id
  normal : ∀ x ∈ past, normalizeGoogleProfile toLowerCase x.profile =
    .ok ⟨x.subject, x.user.email, x.user.name, x.user.avatarUrl⟩

namespace AccountsInv

theorem empty : AccountsInv toLowerCase [] [] where
  ids := List.nodup_nil
  subjects := List.nodup_nil
  latest := by simp
  row := by simp
  normal := by simp

/-- Two sign-ins have the same row exactly if they are of the same subject. -/
theorem id_eq_iff (h : AccountsInv toLowerCase past users) (hx : x ∈ past) (hy : y ∈ past) :
    x.user.id = y.user.id ↔ x.subject = y.subject := by
  obtain ⟨v, hv, hsubject, hid⟩ := h.row x hx
  obtain ⟨w, hw, hsubject', hid'⟩ := h.row y hy
  rw [← hid, ← hid', ← hsubject, ← hsubject']
  constructor
  · intro hsame
    rw [h.ids.eq_of_key_eq hv hw hsame]
  · intro hsame
    rw [h.subjects.eq_of_key_eq hv hw hsame]

/-- **A first sign-in** adds a row. -/
theorem create (h : AccountsInv toLowerCase past users) {v : User}
    (hnew : ∀ w ∈ users, userConflict v w = false) (hsubject : x.subject = v.googleSubject)
    (huser : x.user = toAuthenticatedUser v)
    (hnormal : normalizeGoogleProfile toLowerCase x.profile =
      .ok ⟨x.subject, x.user.email, x.user.name, x.user.avatarUrl⟩) :
    AccountsInv toLowerCase (past ++ [x]) (users ++ [v]) where
  ids := by
    apply h.ids.append (.singleton _ _)
    intro w hw q hq heq
    rw [List.mem_singleton.1 hq] at heq
    exact id_ne_of_userConflict (hnew w hw) heq.symm
  subjects := by
    apply h.subjects.append (.singleton _ _)
    intro w hw q hq heq
    rw [List.mem_singleton.1 hq] at heq
    have hconflict := hnew w hw
    simp [userConflict, heq] at hconflict
  latest w hw := by
    rcases List.mem_append.1 hw with hw | hw
    · obtain ⟨y, hy, hysubject, hyuser⟩ := h.latest w hw
      refine ⟨y, latest_concat.2 (Or.inr ⟨?_, hy⟩), hysubject, hyuser⟩
      -- The subject of the new row is not that of an old one.
      intro heq
      have hconflict := hnew w hw
      simp [userConflict, ← hsubject, heq, hysubject] at hconflict
    · rw [List.mem_singleton.1 hw]
      exact ⟨x, latest_concat.2 (Or.inl rfl), hsubject, huser⟩
  row y hy := by
    rcases List.mem_append.1 hy with hy | hy
    · obtain ⟨w, hw, hkeys⟩ := h.row y hy
      exact ⟨w, List.mem_append_left _ hw, hkeys⟩
    · rw [List.mem_singleton.1 hy]
      exact ⟨v, by simp, hsubject.symm, by rw [huser]; rfl⟩
  normal y hy := by
    rcases List.mem_append.1 hy with hy | hy
    · exact h.normal y hy
    · rw [List.mem_singleton.1 hy]
      exact hnormal

/-- **A later sign-in** overwrites the row of its subject, which keeps its id. -/
theorem update (h : AccountsInv toLowerCase past users) {old : User} (hold : old ∈ users)
    {columns : User → User} (hids : ∀ v, (columns v).id = v.id)
    (hsubjects : ∀ v, (columns v).googleSubject = v.googleSubject)
    (hsubject : x.subject = old.googleSubject) (huser : x.user = toAuthenticatedUser (columns old))
    (hnormal : normalizeGoogleProfile toLowerCase x.profile =
      .ok ⟨x.subject, x.user.email, x.user.name, x.user.avatarUrl⟩) :
    AccountsInv toLowerCase (past ++ [x])
      (updateMany (fun v => decide (v.id = old.id)) columns users) where
  ids := h.ids.updateMany hids
  subjects := h.subjects.updateMany hsubjects
  latest w hw := by
    obtain ⟨v, hv, rfl⟩ := mem_updateMany.1 hw
    by_cases hid : v.id = old.id
    · obtain rfl := h.ids.eq_of_key_eq hv hold hid
      -- The row shows the new sign-in, and no other row has its subject.
      rw [if_pos (by simp)]
      exact ⟨x, latest_concat.2 (Or.inl rfl), hsubject.trans (hsubjects v).symm, huser⟩
    · rw [if_neg (by simpa using hid)]
      obtain ⟨y, hy, hysubject, hyuser⟩ := h.latest v hv
      refine ⟨y, latest_concat.2 (Or.inr ⟨?_, hy⟩), hysubject, hyuser⟩
      intro heq
      apply hid
      rw [h.subjects.eq_of_key_eq hv hold]
      rw [← hysubject, ← heq, hsubject]
  row y hy := by
    have hkept : ∀ v ∈ users, v.googleSubject = y.subject → v.id = y.user.id →
        ∃ w ∈ updateMany (fun v => decide (v.id = old.id)) columns users,
          w.googleSubject = y.subject ∧ w.id = y.user.id := by
      intro v hv hvsubject hvid
      refine ⟨_, mem_updateMany.2 ⟨v, hv, rfl⟩, ?_⟩
      split
      · exact ⟨(hsubjects v).trans hvsubject, (hids v).trans hvid⟩
      · exact ⟨hvsubject, hvid⟩
    rcases List.mem_append.1 hy with hy | hy
    · obtain ⟨v, hv, hvsubject, hvid⟩ := h.row y hy
      exact hkept v hv hvsubject hvid
    · rw [List.mem_singleton.1 hy] at hkept ⊢
      apply hkept old hold hsubject.symm
      rw [huser]
      exact (hids old).symm
  normal y hy := by
    rcases List.mem_append.1 hy with hy | hy
    · exact h.normal y hy
    · rw [List.mem_singleton.1 hy]
      exact hnormal

/-- **A sign-in that returns.** -/
theorem signIn (h : AccountsInv toLowerCase past t.tables.users) {profile : GoogleProfile}
    {ctx : LoginContext} {user : AuthenticatedUser} {t' : Tables}
    (hok : verify config toLowerCase profile ctx t.tables = (.ok user, t')) :
    AccountsInv toLowerCase (past ++ [⟨profile, user⟩]) t'.users := by
  obtain ⟨identity, hnormal, hupsert⟩ := verify_eq_ok hok
  have hsubject := googleSubject_of_normalize hnormal
  obtain ⟨saved, rfl, hsaves, -⟩ := upsertGoogleUser_eq_ok hupsert
  rcases hsaves with ⟨rfl, hnew, husers⟩ | ⟨old, hold, rfl, -, -, husers⟩
  · rw [husers]
    refine h.create hnew hsubject.symm rfl ?_
    rw [hnormal, SignIn.subject, ← hsubject]
    rfl
  · rw [husers]
    have hfound : old.googleSubject = identity.googleSubject := by
      simpa using List.find?_some hold
    refine h.update (List.mem_of_find?_eq_some hold) (fun _ => rfl) (fun _ => rfl)
      (hsubject.symm.trans hfound.symm) rfl ?_
    rw [hnormal, SignIn.subject, ← hsubject]
    rfl

/-- **One event.** -/
theorem step (h : AccountsInv toLowerCase past s.tables.users)
    (hstep : (system config lib toLowerCase).step event s = some t) :
    AccountsInv toLowerCase (past ++ signedIn config toLowerCase event s) t.tables.users := by
  cases event with
  | signIn profile ctx =>
      cases hstep
      rw [signedIn]
      cases hverify : verify config toLowerCase profile ctx s.tables with
      | mk result t' =>
          cases result with
          | ok user => exact h.signIn hverify
          | error e =>
              dsimp only
              rw [rollsBack_verify config toLowerCase profile ctx _ _ _ hverify, List.append_nil]
              exact h
  | request user request ctx =>
      cases hstep
      rw [signedIn, List.append_nil]
      have hwrite : TenantWrite user s.tables (serve config lib user ctx request s.tables).tables :=
        (confined_serve s.tables request).1
      -- No write of a request is to the users.
      have husers : (serve config lib user ctx request s.tables).tables.users = s.tables.users := by
        generalize (serve config lib user ctx request s.tables).tables = t at hwrite ⊢
        cases hwrite <;> rfl
      exact husers ▸ h
  | work event tables =>
      obtain ⟨-, hstep⟩ := Option.ite_none_left_eq_some.1 hstep
      obtain ⟨d, -, hkept⟩ := Option.bind_eq_some_iff.1 hstep
      split_ifs at hkept with hguard
      cases hkept
      rw [signedIn, List.append_nil, hguard.1]
      exact h

/-- **A run.** -/
theorem run (h : AccountsInv toLowerCase past s.tables.users) {events : List AccountEvent}
    (hrun : (system config lib toLowerCase).run TransitionSystem.anyStep events s = some t) :
    AccountsInv toLowerCase (past ++ signIns config lib toLowerCase events s) t.tables.users := by
  induction events generalizing past s with
  | nil =>
      cases hrun
      rw [signIns, List.append_nil]
      exact h
  | cons event events ih =>
      rw [TransitionSystem.run_anyStep_cons] at hrun
      obtain ⟨r, hstep, hrun⟩ := Option.bind_eq_some_iff.1 hrun
      have hsteps : Accounts.step config lib toLowerCase event s = some r := hstep
      rw [signIns, hsteps, ← List.append_assoc]
      exact ih (h.step hstep) hrun

/-- Loading an account. -/
theorem findAuthenticatedUser_eq (h : AccountsInv toLowerCase past users) {t : Tables}
    (ht : t.users = users) {userId : Uuid} {user : AuthenticatedUser} :
    findAuthenticatedUser userId t = some user ↔
      user.id = userId ∧ ∃ x, Latest SignIn.subject past x ∧ x.user = user := by
  subst ht
  unfold findAuthenticatedUser
  rw [Option.map_eq_some_iff]
  constructor
  · rintro ⟨v, hv, rfl⟩
    obtain ⟨x, hx, -, huser⟩ := h.latest v (List.mem_of_find?_eq_some hv)
    have hid : v.id = userId := by
      simpa using List.find?_some hv
    exact ⟨hid, x, hx, huser⟩
  · rintro ⟨rfl, x, hx, rfl⟩
    obtain ⟨v, hv, hsubject, hid⟩ := h.row x hx.mem
    obtain ⟨y, hy, hysubject, huser⟩ := h.latest v hv
    obtain rfl := hx.eq hy (hsubject.symm.trans hysubject.symm)
    exact ⟨v, h.ids.find?_eq hv hid, huser.symm⟩

end AccountsInv

/-! ## Accounts -/

/-- **Accounts.** In a run from an empty database, two sign-ins get the same account exactly if they
are of the same Google user; the id of a session loads what the last sign-in of its Google user
returned, and it always loads an account; no other id does; and what a sign-in returned is what its
profile says. -/
theorem accounts {events : List AccountEvent} (hinit : (system config lib toLowerCase).init s)
    (hrun : (system config lib toLowerCase).run TransitionSystem.anyStep events s = some t) :
    (∀ x ∈ signIns config lib toLowerCase events s, ∀ y ∈ signIns config lib toLowerCase events s,
      serializeUser x.user = serializeUser y.user ↔ x.subject = y.subject) ∧
    (∀ userId user, deserializeUser userId t.tables = (.ok (some user), t.tables) ↔
      serializeUser user = userId ∧
        ∃ x, Latest SignIn.subject (signIns config lib toLowerCase events s) x ∧ x.user = user) ∧
    (∀ x ∈ signIns config lib toLowerCase events s, ∃ user,
      deserializeUser (serializeUser x.user) t.tables = (.ok (some user), t.tables)) ∧
    ∀ x ∈ signIns config lib toLowerCase events s, normalizeGoogleProfile toLowerCase x.profile =
      .ok ⟨x.subject, x.user.email, x.user.name, x.user.avatarUrl⟩ := by
  have hstart : AccountsInv toLowerCase [] s.tables.users := by
    rw [hinit.1]
    exact .empty
  have hinv := hstart.run hrun
  rw [List.nil_append] at hinv
  have hload : ∀ userId user, deserializeUser userId t.tables = (.ok (some user), t.tables) ↔
      serializeUser user = userId ∧
        ∃ x, Latest SignIn.subject (signIns config lib toLowerCase events s) x ∧ x.user = user := by
    intro userId user
    refine Iff.trans ?_ (hinv.findAuthenticatedUser_eq rfl)
    simp [deserializeUser, Action.read]
  refine ⟨fun x hx y hy => hinv.id_eq_iff hx hy, hload, ?_, hinv.normal⟩
  intro x hx
  obtain ⟨y, hy, hsubject⟩ : ∃ y, Latest SignIn.subject _ y ∧ y.subject = x.subject :=
    exists_latest hx
  exact ⟨y.user, (hload _ _).2 ⟨(hinv.id_eq_iff hy.mem hx).2 hsubject, y, hy, rfl⟩⟩

/-- A Google user signs in, another one does, and the first again with a new name and address; its
unverified address is passed over. -/
def twoUsers : List AccountEvent :=
  [.signIn ⟨"1", " First User ", some [⟨" First@Test.invalid", some true⟩], none⟩ ⟨1, 10, 0⟩,
    .signIn ⟨"2", "", some [⟨"second@test.invalid", none⟩], some ["photo"]⟩ ⟨2, 20, 0⟩,
    .signIn ⟨"1", "Renamed",
      some [⟨"spam@test.invalid", some false⟩, ⟨"new@test.invalid", some true⟩],
      none⟩ ⟨3, 30, 5⟩]

theorem accounts_of_twoUsers : ∃ t : Application,
    (system validConfig testLibraries EmailScheduler.toLowerCase).run
      TransitionSystem.anyStep twoUsers
        .start = some t ∧
      (signIns validConfig testLibraries EmailScheduler.toLowerCase twoUsers .start).map
        SignIn.user =
        [⟨1, "first@test.invalid", "First User", none⟩,
          ⟨2, "second@test.invalid", "second", some "photo"⟩,
          ⟨1, "new@test.invalid", "Renamed", none⟩] ∧
      ∀ userId user, deserializeUser userId t.tables = (.ok (some user), t.tables) ↔
        serializeUser user = userId ∧ ∃ x, Latest SignIn.subject
          (signIns validConfig testLibraries EmailScheduler.toLowerCase twoUsers .start) x ∧
            x.user = user := by
  have hsome : ((system validConfig testLibraries EmailScheduler.toLowerCase).run
      TransitionSystem.anyStep twoUsers .start).isSome = true := by decide +kernel
  obtain ⟨t, ht⟩ := Option.isSome_iff_exists.1 hsome
  have hinit : (Application.system validConfig testLibraries).init .start := Application.start_init
  exact ⟨t, ht, by decide +kernel, (accounts hinit ht).2.1⟩

end Accounts

end EmailScheduler
