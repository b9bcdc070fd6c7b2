import EmailScheduler.Api.DefaultSender

/-!
# At most one default sender

Both routes that can make a sender the default take the flag from the user's other senders in the
same transaction. A login that creates a sender does not. It creates one whenever the user has no
sender under the Google email, so a known user, who has a default sender already, gets a second one
(`CreatesSecondDefault`): when Google reports another email for the subject, or after the address of
the sender was changed.
-/

set_option autoImplicit false

namespace EmailScheduler

open Foundation

/-- Every user has at most one default sender. -/
def AtMostOneDefault (t : Tables) : Prop :=
  ∀ user, (t.senders.countP fun s => decide (s.userId = user) && s.isDefault) ≤ 1

/-- A login of a known user that is not rejected and creates a sender. -/
def CreatesSecondDefault (config : AppConfig) (t : Tables) (identity : GoogleIdentity)
    (ctx : LoginContext) : Prop :=
  ∃ old, knownUser identity t = some old ∧
    findByKey old.id identity.email t = none ∧
    checkIdentity identity = .ok () ∧ (∀ v ∈ t.users, v.id ≠ old.id → v.email ≠ identity.email) ∧
    checkSender (loginSender config identity ctx old).toEmailSender = .ok () ∧
    ∀ s ∈ t.senders, s.id ≠ ctx.senderId

/-- The call is no login that creates a sender for a known user. -/
def KeepsOneDefault (config : AppConfig) (t : Tables) : SenderCall → Prop
  | .login identity ctx => ¬ CreatesSecondDefault config t identity ctx
  | _ => True

instance (config : AppConfig) (t : Tables) (identity : GoogleIdentity) (ctx : LoginContext) :
    Decidable (CreatesSecondDefault config t identity ctx) :=
  match h : knownUser identity t with
  | none => .isFalse fun ⟨_, hold, _⟩ => by rw [h] at hold; cases hold
  | some old =>
      decidable_of_iff (findByKey old.id identity.email t = none ∧
        checkIdentity identity = .ok () ∧
        (∀ v ∈ t.users, v.id ≠ old.id → v.email ≠ identity.email) ∧
        checkSender (loginSender config identity ctx old).toEmailSender = .ok () ∧
        ∀ s ∈ t.senders, s.id ≠ ctx.senderId)
        ⟨fun hcreates => ⟨old, h, hcreates⟩, fun ⟨old', hold, hcreates⟩ => by
          rw [h] at hold
          cases hold
          exact hcreates⟩

instance (config : AppConfig) (t : Tables) : (call : SenderCall) →
    Decidable (KeepsOneDefault config t call)
  | .login identity ctx =>
      inferInstanceAs (Decidable (¬ CreatesSecondDefault config t identity ctx))
  | .create _ _ _ _ => .isTrue trivial
  | .update _ _ _ _ => .isTrue trivial

variable {config : AppConfig} {lib : Libraries} {t t' : Tables}

/-- Two default senders of one user are one sender. -/
def SingleDefault (senders : List StoredSender) : Prop :=
  ∀ a ∈ senders, ∀ b ∈ senders, a.userId = b.userId → a.isDefault = true → b.isDefault = true →
    a.id = b.id

theorem atMostOneDefault_iff (hkey : PrimaryKey (fun s : StoredSender => s.id) t.senders) :
    AtMostOneDefault t ↔ SingleDefault t.senders := by
  constructor
  · intro h a ha b hb howner hdefault hdefault'
    have hsame := eq_of_countP_le_one (h b.userId) ha hb (by simp [howner, hdefault])
      (by simp [hdefault'])
    rw [hsame]
  · intro h user
    apply hkey.countP_le_one
    intro a ha b hb hpa hpb
    rw [Bool.and_eq_true, decide_eq_true_eq] at hpa hpb
    exact h a ha b hb (hpa.1.trans hpb.1.symm) hpa.2 hpb.2

/-! ## The routes -/

/-- A created default sender is the only one of its user. -/
theorem SingleDefault.create {user : Uuid} {now : Int} (h : SingleDefault t.senders)
    (hcreate : CreatesSender user now t t') : SingleDefault t'.senders := by
  obtain ⟨sender, howner, -, -, -, hsenders⟩ := hcreate
  rw [hsenders]
  -- A row that is still a default sender next to a new one is another user's.
  have hother : ∀ r ∈ undefault sender.isDefault (fun s => decide (s.userId = user)) now t.senders,
      r.isDefault = true → r ∈ t.senders ∧
        (sender.isDefault = true → r.userId ≠ sender.userId) := by
    intro r hr hdefault
    obtain ⟨s, hs, -, -, -, hsame⟩ := exists_of_mem_undefault hr
    obtain ⟨rfl, hnot⟩ := hsame hdefault
    refine ⟨hs, fun hnew huser => ?_⟩
    simp [hnew, huser, howner] at hnot
  intro a ha b hb huser hdefault hdefault'
  rcases List.mem_append.1 ha with ha | ha <;> rcases List.mem_append.1 hb with hb | hb
  · exact h a (hother a ha hdefault).1 b (hother b hb hdefault').1 huser hdefault hdefault'
  · rw [List.mem_singleton] at hb
    subst hb
    exact absurd huser ((hother a ha hdefault).2 hdefault')
  · rw [List.mem_singleton] at ha
    subst ha
    exact absurd huser.symm ((hother b hb hdefault').2 hdefault)
  · rw [List.mem_singleton] at ha hb
    rw [ha, hb]

/-- An updated sender that becomes the default is the only one of its user. -/
theorem SingleDefault.update {user : Uuid} {now : Int} (h : SingleDefault t.senders)
    (hkey : PrimaryKey (fun s : StoredSender => s.id) t.senders)
    (hupdate : UpdatesSender user now t t') : SingleDefault t'.senders := by
  obtain ⟨current, data, hcurrent, howner, hkeep, -, -, hsenders⟩ := hupdate
  -- A default sender after the update was one before, unless it has just become the only one.
  have hbefore : ∀ r ∈ t'.senders, r.isDefault = true → ∃ s ∈ t.senders, r.id = s.id ∧
      r.userId = s.userId ∧ (data.isDefault ≠ some true → s.isDefault = true) ∧
      (data.isDefault = some true → s.userId = user → s.id = current.id) ∧
      (s.userId ≠ user → s.isDefault = true) := by
    intro r hr hdefault
    rw [hsenders] at hr
    obtain ⟨q, hq, rfl⟩ := mem_updateMany.1 hr
    obtain ⟨s, hs, hid, howner', -, hsame⟩ := exists_of_mem_undefault hq
    by_cases hwritten : q.id = current.id
    · have hrow : s = current := hkey.eq_of_key_eq hs hcurrent (hid.symm.trans hwritten)
      simp only [hwritten, decide_true, if_true, SenderData.apply_id, SenderData.apply_userId,
        SenderData.apply_isDefault] at hdefault ⊢
      refine ⟨s, hs, by rw [hrow], howner', ?_, fun _ _ => by rw [hrow], ?_⟩
      · intro hnotTrue
        cases hflag : data.isDefault with
        | none =>
            rw [hflag] at hdefault
            rw [← (hsame hdefault).1]
            exact hdefault
        | some flag =>
            rw [hflag] at hdefault hnotTrue
            exact absurd (congrArg some hdefault) hnotTrue
      · intro hforeign
        rw [hrow] at hforeign
        exact absurd howner hforeign
    · simp only [hwritten, decide_false, Bool.false_eq_true, if_false] at hdefault ⊢
      obtain ⟨hrow, hnot⟩ := hsame hdefault
      rw [hrow] at hdefault hwritten
      refine ⟨s, hs, hid, howner', fun _ => hdefault, ?_, fun _ => hdefault⟩
      intro hset huser
      simp [hset, isOtherSender, huser, hwritten] at hnot
  intro a ha b hb huser hdefault hdefault'
  obtain ⟨s, hs, hid, howner₁, hwas, honly, hforeign⟩ := hbefore a ha hdefault
  obtain ⟨r, hr, hid', howner₂, hwas', honly', hforeign'⟩ := hbefore b hb hdefault'
  have hsame : s.userId = r.userId := howner₁.symm.trans (huser.trans howner₂)
  rw [hid, hid']
  by_cases hset : data.isDefault = some true
  · by_cases hmine : s.userId = user
    · rw [honly hset hmine, honly' hset (hsame.symm.trans hmine)]
    · have hmine' : r.userId ≠ user := by
        rw [← hsame]
        exact hmine
      exact h s hs r hr hsame (hforeign hmine) (hforeign' hmine')
  · exact h s hs r hr hsame (hwas hset) (hwas' hset)

/-! ## Logins -/

/-- A login that creates a sender without a second default serves a user who has no sender. -/
theorem userId_ne_of_created {identity : GoogleIdentity} {ctx : LoginContext} {user : User}
    (hinv : DefaultInv t) (hkeeps : ¬ CreatesSecondDefault config t identity ctx)
    (huser : SavesUser identity ctx t t' user)
    (hfits : checkSender (loginSender config identity ctx user).toEmailSender = .ok ())
    (hnew : ∀ s ∈ t.senders, senderConflict (loginSender config identity ctx user) s = false) :
    ∀ s ∈ t.senders, s.userId ≠ user.id := by
  intro s hs howner
  rcases huser with ⟨-, hnewUser, -⟩ | ⟨old, hknown, rfl, hidentity, hemail, -⟩
  · obtain ⟨w, hw, hid⟩ := hinv.owner s hs
    exact id_ne_of_userConflict (hnewUser w hw) (hid.trans howner).symm
  · apply hkeeps
    refine ⟨old, hknown, ?_, hidentity, hemail, hfits, ?_⟩
    · rw [findByKey, List.find?_eq_none]
      intro s hs hkey
      obtain ⟨howner, hemail⟩ := hasKey_iff.1 hkey
      have hconflict :
        senderConflict (loginSender config identity ctx (updatedUser identity ctx old))
          s = true := senderConflict_iff.2 (Or.inr ⟨howner.symm, hemail.symm⟩)
      rw [hnew s hs] at hconflict
      cases hconflict
    · intro s hs hid
      exact id_ne_of_senderConflict (hnew s hs) hid.symm

theorem SingleDefault.login {identity : GoogleIdentity} {ctx : LoginContext} (hinv : DefaultInv t)
    (h : SingleDefault t.senders) (hkeeps : ¬ CreatesSecondDefault config t identity ctx)
    (hlogin : LogsIn config identity ctx t t') : SingleDefault t'.senders := by
  obtain ⟨user, huser, hsender⟩ := hlogin
  rcases hsender with ⟨hfits, hnew, hsenders⟩ | ⟨sender, -, -, -, hsenders⟩
  · -- A sender is only created for a user who had none.
    have hnone := userId_ne_of_created hinv hkeeps huser hfits hnew
    rw [hsenders]
    intro a ha b hb hsame hdefault hdefault'
    rcases List.mem_append.1 ha with ha | ha <;> rcases List.mem_append.1 hb with hb | hb
    · exact h a ha b hb hsame hdefault hdefault'
    · rw [List.mem_singleton] at hb
      subst hb
      exact absurd hsame (hnone a ha)
    · rw [List.mem_singleton] at ha
      subst ha
      exact absurd hsame.symm (hnone b hb)
    · rw [List.mem_singleton] at ha hb
      rw [ha, hb]
  · -- The sender that is found keeps its flag.
    have hbefore : ∀ r ∈ t'.senders, ∃ s ∈ t.senders, r.id = s.id ∧ r.userId = s.userId ∧
        r.isDefault = s.isDefault := by
      intro r hr
      rw [hsenders] at hr
      obtain ⟨s, hs, rfl⟩ := mem_updateMany.1 hr
      refine ⟨s, hs, ?_⟩
      split <;> exact ⟨rfl, rfl, rfl⟩
    intro a ha b hb hsame hdefault hdefault'
    obtain ⟨s, hs, hid, howner, hflag⟩ := hbefore a ha
    obtain ⟨r, hr, hid', howner', hflag'⟩ := hbefore b hb
    rw [hid, hid']
    exact h s hs r hr (howner.symm.trans (hsame.trans howner')) (hflag.symm.trans hdefault)
      (hflag'.symm.trans hdefault')

/-- **The second default sender.** A login that creates a sender for a known user returns, and
leaves the sender that it creates next to the senders before it. -/
theorem upsertGoogleUser_of_createsSecond {identity : GoogleIdentity} {ctx : LoginContext}
    (h : CreatesSecondDefault config t identity ctx) :
    ∃ old, knownUser identity t = some old ∧ (∀ s ∈ t.senders, s.id ≠ ctx.senderId) ∧
      (upsertGoogleUser config identity ctx t).2.senders =
        t.senders ++ [loginSender config identity ctx old] := by
  obtain ⟨old, hknown, hnone, hidentity, hemail, hfits, hfresh⟩ := h
  have hupdate : upsertUser identity ctx t = (.ok (updatedUser identity ctx old), { t with
      users := updateMany (fun v => decide (v.id = old.id))
        (updatedUser identity ctx) t.users }) := by
    unfold upsertUser
    rw [hidentity]
    apply Eq.trans (Action.bind_of_ok rfl)
    apply Eq.trans (Action.bind_of_ok (Action.read_of_eq hknown))
    exact Action.bind_of_ok (updateUser_of_fits hemail)
  have hinsert : ∀ users, upsertSender config identity ctx (updatedUser identity ctx old)
      { t with users := users } = (.ok (loginSender config identity ctx old), { t with
        users := users
        senders := t.senders ++ [loginSender config identity ctx old] }) := by
    intro users
    have hnone' : findByKey (updatedUser identity ctx old).id identity.email
        { t with users := users } = none := hnone
    unfold upsertSender
    apply Eq.trans (Action.bind_of_ok (Action.read_of_eq hnone'))
    apply insertSender_of_fits hfits
    intro s hs
    -- The row conflicts neither in its id nor in its key.
    have hkey := List.find?_eq_none.1 hnone s hs
    rw [Bool.eq_false_iff]
    intro hconflict
    rcases senderConflict_iff.1 hconflict with hid | ⟨howner, hemail⟩
    · exact hfresh s hs hid.symm
    · exact hkey (hasKey_iff.2 ⟨howner.symm, hemail.symm⟩)
  have hbody : saveGoogleUser config identity ctx t = (.ok (updatedUser identity ctx old), { t with
      users := updateMany (fun v => decide (v.id = old.id)) (updatedUser identity ctx) t.users
      senders := t.senders ++ [loginSender config identity ctx old] }) := by
    unfold saveGoogleUser
    apply Eq.trans (Action.bind_of_ok hupdate)
    exact Action.bind_of_ok (hinsert _)
  refine ⟨old, hknown, hfresh, ?_⟩
  unfold upsertGoogleUser
  rw [Action.bind_of_ok (Action.transaction_of_ok hbody)]
  rfl

/-- Next to the default sender that a known user has, the created one is a second. -/
theorem not_singleDefault_of_createsSecond {identity : GoogleIdentity} {ctx : LoginContext}
    (hinv : DefaultInv t) (h : CreatesSecondDefault config t identity ctx) :
    ¬ SingleDefault ((SenderCall.login identity ctx).run config lib t).2.senders := by
  obtain ⟨old, hknown, hfresh, hsenders⟩ := upsertGoogleUser_of_createsSecond h
  obtain ⟨s, hs, howner, hdefault⟩ := hinv.hasDefault old (List.mem_of_find?_eq_some hknown)
  have hrun : ((SenderCall.login identity ctx).run config lib t).2.senders =
      t.senders ++ [loginSender config identity ctx old] := by
    rw [← hsenders]
    exact congrArg Tables.senders (Action.snd_bind_pure _ SenderResult.user t)
  rw [hrun]
  intro hsingle
  apply hfresh s hs
  exact hsingle s (List.mem_append_left _ hs) (loginSender config identity ctx old)
    (List.mem_append_right _ (List.mem_singleton_self _)) howner hdefault rfl

/-! ## Runs -/

/-- One step: the next call keeps a single default sender, unless it is such a login. -/
theorem SingleDefault.run (hinv : DefaultInv t) (h : SingleDefault t.senders) (call : SenderCall)
    (hkeeps : KeepsOneDefault config t call) :
    SingleDefault (call.run config lib t).2.senders := by
  cases hrun : call.run config lib t with
  | mk result t' =>
      cases result with
      | error e =>
          rw [call.rollsBack t e t' hrun]
          exact h
      | ok result =>
          have heffect := SenderCall.eq_ok hrun
          cases call with
          | login identity ctx => exact h.login hinv hkeeps heffect
          | create user body id now => exact h.create heffect.2
          | update user senderId body now => exact h.update hinv.senderKey heffect.2

/-- **At most one default sender.** In a run without a login that creates a sender for a known user,
every user has at most one default sender in every state reached; and the next call keeps it so if
and only if it is no such login. -/
theorem atMostOneDefault_of_reachable
    (h : (senderSystem config lib).Reachable (KeepsOneDefault config) t) :
    AtMostOneDefault t ∧ ∀ call t', (senderSystem config lib).step call t = some t' →
      (AtMostOneDefault t' ↔ KeepsOneDefault config t call) := by
  have hinv : DefaultInv t := defaultInv_of_reachable (h.mono fun _ _ _ => trivial)
  have hsingle : SingleDefault t.senders := by
    apply TransitionSystem.Reachable.invariant_of_reachable
      (I := fun s => SingleDefault s.senders) h
    · intro s hs
      cases hs
      intro a ha
      cases ha
    · intro s call s' hs hkeeps hstep hbefore
      cases hstep
      exact hbefore.run (defaultInv_of_reachable (hs.mono fun _ _ _ => trivial)) call hkeeps
  refine ⟨(atMostOneDefault_iff hinv.senderKey).2 hsingle, ?_⟩
  intro call t' hstep
  cases hstep
  have hinv' : DefaultInv (call.run config lib t).2 := hinv.run call
  rw [atMostOneDefault_iff hinv'.senderKey]
  constructor
  · intro hafter
    cases call with
    | login identity ctx =>
        intro hcreates
        exact not_singleDefault_of_createsSecond hinv hcreates hafter
    | create user body id now => trivial
    | update user senderId body now => trivial
  · exact hsingle.run hinv call

/-- Another sender becomes the default, and the user logs in once more. -/
def sameEmailAgain : List SenderCall :=
  [firstLogin,
    .create 1 (some ⟨.value "Second", .value "second@test.invalid", .value true, .value 200,
      .value 2000, false⟩) 11 1,
    .login ⟨"subject", "first@test.invalid", "User", none⟩ ⟨2, 12, 2⟩,
    .update 1 (some 10) (some { isDefault := .value true }) 3]

theorem atMostOneDefault_after_sameEmailAgain :
    ∃ t, (senderSystem validConfig testLibraries).run (KeepsOneDefault validConfig) sameEmailAgain
        {} = some t ∧
      (t.senders.map fun s => (s.id, s.isDefault)) = [(10, true), (11, false)] ∧
      AtMostOneDefault t ∧
        ∀ call t', (senderSystem validConfig testLibraries).step call t = some t' →
          (AtMostOneDefault t' ↔ KeepsOneDefault validConfig t call) := by
  refine ⟨_, rfl, by decide, ?_⟩
  exact atMostOneDefault_of_reachable (TransitionSystem.reachable_of_run sameEmailAgain rfl rfl)

/-- The Google account of a known user has another email. -/
def changedEmail : List SenderCall :=
  [firstLogin, .login ⟨"subject", "second@test.invalid", "User", none⟩ ⟨2, 11, 1⟩]

/-- **Two default senders** after a login with another email. -/
theorem not_atMostOneDefault_after_changedEmail : ∃ t,
    (senderSystem validConfig testLibraries).Reachable TransitionSystem.anyStep t ∧
      (t.senders.map fun s => (s.userId, s.isDefault)) = [(1, true), (1, true)] ∧
      ¬ AtMostOneDefault t := by
  refine ⟨_, TransitionSystem.reachable_of_run changedEmail rfl rfl, by decide, ?_⟩
  intro hone
  have htwo := hone 1
  revert htwo
  decide

end EmailScheduler
