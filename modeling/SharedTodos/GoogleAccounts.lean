-- Whom the sign-in with Google lets in. The lookup of the account takes the
-- subject or the email, whichever matches. So an account that is linked to
-- another subject is opened by its email, and two matching accounts end the
-- callback in an error. Both are settled here with their exact conditions.
import SharedTodos.AccountDeeds

open keyed_table transactions
open shared_todos.models shared_todos.http shared_todos.http.handler
open shared_todos.sessions shared_todos.rate_limiter shared_todos.auth shared_todos.oauth
open shared_todos.app shared_todos.accounts

namespace shared_todos.google_accounts

variable (env : Env)

/-- The request is a callback that passes its checks with the identity. -/
def Verified (s : Step) (who : Identity) : Prop :=
  ∃ query, s.call = .oauth_google_callback query ∧
    check_callback env query s.request s.draws = .passed who

/-- The request opens a session for the user. -/
def Opens (s : Step) (w : World) (user_id : UUID) : Prop :=
  ∃ r ∈ (s.after env w).db.sessions.rows, r ∉ w.db.sessions.rows ∧ r.user_id = user_id

section
variable {env : Env} {s : Step} {w : World}

/-- A session is opened by a request that lets its user in. -/
theorem entrance_of_opens {u : UUID} (h : Opens env s w u) :
    ∃ r w₁, Entrance env s w u r w₁ ∧ (s.after env w).db.users = w₁.db.users := by
  obtain ⟨x, hx, hnew, rfl⟩ := h
  unfold Step.after at hx ⊢
  have hd := account_deed_of_step env s w
  revert hx hd
  generalize (s.handle env w).1 = r, (s.handle env w).2 = w'
  intro hx hd
  have hsame : ∀ {v : UUID} {r : Response} {w₁ : World}, Entrance env s w v r w₁ →
      w₁.db.sessions = w.db.sessions := by
    intro v r w₁ he
    cases he <;> rfl
  cases hd with
  | idle same quiet => rw [same.sessions] at hx; exact absurd hx hnew
  | entered entrance opened =>
    obtain ⟨-, hfree, -⟩ := insert_session_ok opened
    rcases (Table.mem_insert_of_free hfree x).mp hx with hx | rfl
    · rw [hsame entrance] at hx
      exact absurd hx hnew
    · exact ⟨_, _, entrance, rfl⟩
  | stopped entrance e failed =>
    rw [hsame entrance] at hx
    exact absurd hx hnew
  | logged_out token call cookie given => exact absurd (Table.mem_deleteWhere.mp hx).1 hnew
  | reset_requested body user call => exact absurd hx hnew
  | password_reset body prt user call => exact absurd (Table.mem_deleteWhere.mp hx).1 hnew

theorem callback_is_handled {query : CallbackQuery} (call : s.call = .oauth_google_callback query)
    (w : World) :
    s.handle env w =
      perform (oauth_google_callback env query s.request s.draws) s.draws.now w := by
  unfold Step.handle
  rw [call]
  rfl

theorem verified_effect {who : Identity} (hwho : Verified env s who) (w : World) :
    s.handle env w = perform (sign_in env who s.draws) s.draws.now w := by
  obtain ⟨query, call, checked⟩ := hwho
  rw [callback_is_handled call, oauth_google_callback_effect, checked]

/-! ## The account that the lookup finds -/

theorem mem_users_by_identity {who : Identity} {db : DB} {a : User} :
    a ∈ users_by_identity who db ↔
      a ∈ db.users.rows ∧ (a.google_sub = some who.google_sub ∨ a.email = who.email) := by
  unfold users_by_identity
  rw [Table.mem_select, decide_eq_true_eq]

/-- The session of a linked account that the lookup finds alone. -/
theorem handle_of_linked {who : Identity} (hwho : Verified env s who)
    (hfresh : FreshSession env s w.db) {a : User} (hfound : users_by_identity who w.db = [a])
    (hlinked : a.google_sub ≠ none) :
    s.handle env w = (signed_in env (s.draws.token_urlsafe 0) s.draws,
      w.commit [.insert_session (new_session env a.id (s.draws.token_urlsafe 0) s.draws.session_id
        (s.draws.now 0))]) := by
  have ha : a ∈ w.db.users.rows := (mem_users_by_identity.mp (by rw [hfound]; simp)).1
  have hfind : w.db.users.find a.id ≠ none := by rw [Table.find_of_mem ha]; simp
  rw [verified_effect hwho, sign_in_effect, hfound]
  change (if a.google_sub = none then _ else _) = _
  rw [if_neg hlinked, open_session_effect, attempt_ok (insert_fresh_session hfresh hfind _)]

/-- The new session row, under a free id. -/
theorem opens_of_handle {user_id : UUID} {r : Response} (hfresh : FreshSession env s w.db)
    (h : s.handle env w = (r, w.commit [.insert_session (new_session env user_id
      (s.draws.token_urlsafe 0) s.draws.session_id (s.draws.now 0))])) :
    Opens env s w user_id := by
  refine ⟨new_session env user_id (s.draws.token_urlsafe 0) s.draws.session_id (s.draws.now 0),
    ?_, ?_, rfl⟩
  · unfold Step.after
    rw [h]
    exact (Table.mem_insert_of_free hfresh.1 _).mpr (Or.inr rfl)
  · intro hmem
    exact hfresh.2 _ hmem rfl

/-! ## The subject of an account stays -/

theorem subject_of_entrance {u : UUID} {r : Response} {w₁ : World} (he : Entrance env s w u r w₁)
    {a : User} (ha : a ∈ w.db.users.rows) (hlinked : a.google_sub ≠ none) :
    ∃ b ∈ w₁.db.users.rows, b.id = a.id ∧ b.google_sub = a.google_sub := by
  cases he with
  | registered body call unknown inserted =>
    obtain ⟨-, -, hfree, -⟩ := insert_user_ok inserted
    exact ⟨a, (Table.mem_insert_of_free hfree a).mpr (Or.inl ha), rfl, rfl⟩
  | google_created query who call checked unknown inserted =>
    obtain ⟨-, -, hfree, -⟩ := insert_user_ok inserted
    exact ⟨a, (Table.mem_insert_of_free hfree a).mpr (Or.inl ha), rfl, rfl⟩
  | google_linked query who user call checked found unlinked linked =>
    have huser : user ∈ w.db.users.rows := (mem_users_by_identity.mp (by rw [found]; simp)).1
    have hid : a.id ≠ user.id := by
      intro hid
      rw [w.db.users.eq_of_key_eq ha huser hid] at hlinked
      exact hlinked unlinked
    refine ⟨a, ?_, rfl, rfl⟩
    simp only [World.commit, Prog.applyAll_cons, Prog.applyAll_nil, apply_eq, Change.apply,
      Table.mem_update]
    exact ⟨a, ha, by rw [if_neg hid]⟩
  | logged_in body user hash call => exact ⟨a, ha, rfl, rfl⟩
  | google_found query who user call => exact ⟨a, ha, rfl, rfl⟩

/-- No request changes the subject of a linked account. -/
theorem subject_after {a : User} (ha : a ∈ w.db.users.rows) (hlinked : a.google_sub ≠ none) :
    ∃ b ∈ (s.after env w).db.users.rows, b.id = a.id ∧ b.google_sub = a.google_sub := by
  unfold Step.after
  have hd := account_deed_of_step env s w
  revert hd
  generalize (s.handle env w).1 = r, (s.handle env w).2 = w'
  intro hd
  cases hd with
  | idle same quiet => rw [same.users]; exact ⟨a, ha, rfl, rfl⟩
  | entered entrance opened => exact subject_of_entrance entrance ha hlinked
  | stopped entrance e failed => exact subject_of_entrance entrance ha hlinked
  | logged_out token call cookie given => exact ⟨a, ha, rfl, rfl⟩
  | reset_requested body user call => exact ⟨a, ha, rfl, rfl⟩
  | password_reset body prt user call found user_found =>
    refine ⟨if a.id = user.id then { a with
      password_hash := some (hash_password env body.new_password s.draws.salt) } else a, ?_, ?_⟩
    · simp only [World.after_reset, World.commit, Prog.applyAll_cons, Prog.applyAll_nil, apply_eq,
        Change.apply, Table.mem_update]
      exact ⟨a, ha, rfl⟩
    · split <;> exact ⟨rfl, rfl⟩

end

theorem subject_stays {u : UUID} {sub : String} (steps : List Step) (w : World)
    (h : ∃ a ∈ w.db.users.rows, a.id = u ∧ a.google_sub = some sub) :
    ∃ a ∈ (run env steps w).db.users.rows, a.id = u ∧ a.google_sub = some sub := by
  induction steps generalizing w with
  | nil => exact h
  | cons s steps ih =>
    obtain ⟨a, ha, rfl, hsub⟩ := h
    have hlinked : a.google_sub ≠ none := by simp [hsub]
    obtain ⟨b, hb, hid, hbs⟩ : ∃ b ∈ (s.after env w).db.users.rows,
        b.id = a.id ∧ b.google_sub = a.google_sub := subject_after ha hlinked
    exact ih _ ⟨b, hb, hid, hbs.trans hsub⟩

/-! ## Whose account a subject opens -/

/-- A session that the callback opens is for an account of its subject. -/
def OpensOwn (s : Step) (w : World) (who : Identity) : Prop :=
  ∀ u, Opens env s w u →
    ∃ a, (s.after env w).db.users.find u = some a ∧ a.google_sub = some who.google_sub

/-- No account with the email is linked to another subject, or the subject has an
account. -/
def Unclaimed (who : Identity) (db : DB) : Prop :=
  (∀ a ∈ db.users.rows, a.email = who.email →
    a.google_sub = none ∨ a.google_sub = some who.google_sub) ∨
  ∃ b ∈ db.users.rows, b.google_sub = some who.google_sub

section
variable {env : Env} {s : Step} {w : World} {who : Identity}

theorem opens_own_of_unclaimed (hwho : Verified env s who) (h : Unclaimed who w.db) :
    OpensOwn env s w who := by
  intro u hopens
  obtain ⟨query, call, checked⟩ := hwho
  obtain ⟨r, w₁, he, hu⟩ := entrance_of_opens hopens
  rw [hu]
  cases he with
  | registered body hcall => rw [call] at hcall; cases hcall
  | logged_in body user hash hcall => rw [call] at hcall; cases hcall
  | google_created query' who' hcall hchecked unknown inserted =>
    rw [call] at hcall
    cases hcall
    rw [checked] at hchecked
    cases hchecked
    obtain ⟨-, -, hfree, -⟩ := insert_user_ok inserted
    refine ⟨google_user who s.draws, ?_, rfl⟩
    exact Table.find_of_mem ((Table.mem_insert_of_free hfree _).mpr (Or.inr rfl))
  | google_linked query' who' user hcall hchecked found unlinked linked =>
    rw [call] at hcall
    cases hcall
    rw [checked] at hchecked
    cases hchecked
    have huser : user ∈ w.db.users.rows := (mem_users_by_identity.mp (by rw [found]; simp)).1
    refine ⟨{ user with google_sub := some who.google_sub }, ?_, rfl⟩
    simp only [World.commit, Prog.applyAll_cons, Prog.applyAll_nil, apply_eq, Change.apply]
    rw [Table.find_update, if_pos rfl, Table.find_of_mem huser, Option.map_some]
  | google_found query' who' user hcall hchecked found linked =>
    rw [call] at hcall
    cases hcall
    rw [checked] at hchecked
    cases hchecked
    obtain ⟨huser, hmatch⟩ := mem_users_by_identity.mp (show user ∈ users_by_identity who w.db by
      rw [found]; simp)
    refine ⟨user, Table.find_of_mem huser, ?_⟩
    rcases h with h | ⟨b, hb, hsub⟩
    · rcases hmatch with hsub | hemail
      · exact hsub
      · exact (h user huser hemail).resolve_left linked
    · have hmem : b ∈ users_by_identity who w.db := mem_users_by_identity.mpr ⟨hb, Or.inl hsub⟩
      rw [found, List.mem_singleton] at hmem
      rw [← hmem]
      exact hsub

theorem unclaimed_of_opens_own (hwho : Verified env s who) (hv : Valid w.db)
    (hfresh : FreshSession env s w.db) (h : OpensOwn env s w who) : Unclaimed who w.db := by
  by_contra hclaimed
  unfold Unclaimed at hclaimed
  push Not at hclaimed
  obtain ⟨⟨a, ha, hemail, hlinked, hother⟩, hnone⟩ := hclaimed
  -- The lookup finds the account by its email, and nothing else.
  have hfound : users_by_identity who w.db = [a] := by
    apply Table.select_eq_singleton ha (by simp [hemail])
    intro x hx hp
    rw [decide_eq_true_eq] at hp
    rcases hp with hsub | hx'
    · exact absurd hsub (hnone x hx)
    · exact hv.unique_email x hx a ha (hx'.trans hemail.symm)
  have hhandle := handle_of_linked hwho hfresh hfound hlinked
  obtain ⟨b, hb, hsub⟩ := h a.id (opens_of_handle hfresh hhandle)
  unfold Step.after at hb
  rw [hhandle] at hb
  have hb : w.db.users.find a.id = some b := hb
  rw [Table.find_of_mem ha] at hb
  cases hb
  exact hother hsub

end

/-- A verified subject opens its own account only, if and only if no account of
another subject has its email while it has no account itself. In a run whose
callbacks meet this, two subjects never open one user. -/
theorem a_subject_opens_its_own_account_iff_unclaimed (env : Env) (past : List Step) :
    (∀ s who, Verified env s who → FreshSession env s (run env past .empty).db →
      (OpensOwn env s (run env past .empty) who ↔ Unclaimed who (run env past .empty).db)) ∧
    (∀ s who middle s' who' u, Verified env s who → Verified env s' who' →
      Unclaimed who (run env past .empty).db →
      Unclaimed who' (run env (past ++ s :: middle) .empty).db →
      Opens env s (run env past .empty) u → Opens env s' (run env (past ++ s :: middle) .empty) u →
      who.google_sub = who'.google_sub) := by
  have hv := valid_of_reachable env ⟨past, rfl⟩
  constructor
  · intro s who hwho hfresh
    exact ⟨unclaimed_of_opens_own hwho hv hfresh, opens_own_of_unclaimed hwho⟩
  · intro s who middle s' who' u hwho hwho' hun hun' hopens hopens'
    obtain ⟨a, ha, hsub⟩ := opens_own_of_unclaimed hwho hun u hopens
    obtain ⟨b, hb, hsub'⟩ := opens_own_of_unclaimed hwho' hun' u hopens'
    -- The subject that the first callback leaves is there after the second one.
    have hstay := subject_stays env (middle ++ [s']) _
      ⟨a, Table.mem_of_find ha, Table.key_of_find ha, hsub⟩
    obtain ⟨c, hc, hid, hsubc⟩ := hstay
    have hrun : run env (middle ++ [s']) (s.after env (run env past .empty)) =
        s'.after env (run env (past ++ s :: middle) .empty) := by
      rw [run_append, run_append]
      rfl
    rw [hrun] at hc
    have hcb := Table.find_of_mem hc
    rw [hid, hb] at hcb
    cases hcb
    exact Option.some.inj (hsubc.symm.trans hsub')

/-- A subject that comes back opens the account that it made. -/
theorem ann_opens_her_own_account :
    Opens .sample (google_calls_back "s1 ann@example.com" "b" 2)
        (run .sample [google_calls_back "s1 ann@example.com" "a" 1] .empty) 1 ∧
      OpensOwn .sample (google_calls_back "s1 ann@example.com" "b" 2)
        (run .sample [google_calls_back "s1 ann@example.com" "a" 1] .empty)
        ⟨"s1", "ann@example.com", "ann"⟩ := by
  have hverified : Verified .sample (google_calls_back "s1 ann@example.com" "b" 2)
      ⟨"s1", "ann@example.com", "ann"⟩ := ⟨_, rfl, by decide⟩
  have hfresh : FreshSession .sample (google_calls_back "s1 ann@example.com" "b" 2)
      (run .sample [google_calls_back "s1 ann@example.com" "a" 1] .empty).db :=
    ⟨by decide, by decide⟩
  have hunclaimed : Unclaimed ⟨"s1", "ann@example.com", "ann"⟩
      (run .sample [google_calls_back "s1 ann@example.com" "a" 1] .empty).db :=
    Or.inr ⟨⟨1, "ann@example.com", "ann", none, some "s1"⟩, by decide, rfl⟩
  refine ⟨⟨⟨2, 1, "b", days 30⟩, by decide, by decide, rfl⟩, ?_⟩
  exact ((a_subject_opens_its_own_account_iff_unclaimed .sample
    [google_calls_back "s1 ann@example.com" "a" 1]).1 _ _ hverified hfresh).mpr hunclaimed

/-- Another subject with the email of a linked account opens that account. -/
theorem another_subject_opens_a_linked_account :
    Verified .sample (google_calls_back "s2 ann@example.com" "b" 2)
        ⟨"s2", "ann@example.com", "ann"⟩ ∧
      ¬ OpensOwn .sample (google_calls_back "s2 ann@example.com" "b" 2)
        (run .sample [google_calls_back "s1 ann@example.com" "a" 1] .empty)
        ⟨"s2", "ann@example.com", "ann"⟩ := by
  constructor
  · exact ⟨_, rfl, by decide⟩
  · intro h
    obtain ⟨a, ha, hsub⟩ := h 1 ⟨⟨2, 1, "b", days 30⟩, by decide, by decide, rfl⟩
    have hfind : ((google_calls_back "s2 ann@example.com" "b" 2).after .sample
        (run .sample [google_calls_back "s1 ann@example.com" "a" 1] .empty)).db.users.find 1 =
        some ⟨1, "ann@example.com", "ann", none, some "s1"⟩ := by decide
    rw [hfind] at ha
    cases ha
    exact absurd hsub (by decide)

/-! ## Whether a returning user is found -/

/-- The callback answers with the redirect and the cookies of a sign-in, and opens
a session for the user. -/
def SignsIn (s : Step) (w : World) (user_id : UUID) : Prop :=
  (s.handle env w).1 = signed_in env (s.draws.token_urlsafe 0) s.draws ∧ Opens env s w user_id

theorem one_or_none_of_two {ρ : Type} {rows : List ρ} {a b : ρ} (ha : a ∈ rows) (hb : b ∈ rows)
    (hne : a ≠ b) : one_or_none rows = .error .multiple_results_found := by
  rcases rows with _ | ⟨x, _ | ⟨y, rest⟩⟩
  · cases ha
  · rw [List.mem_singleton] at ha hb
    exact absurd (ha.trans hb.symm) hne
  · rfl

/-- A verified subject that has an account is signed in to it, if and only if no
other account has the email of the claims. Otherwise the lookup finds two accounts
and the callback ends in an unhandled error. -/
theorem a_returning_user_is_found_iff_email_is_free (env : Env) (past : List Step) (s : Step)
    (who : Identity) (a : User) (hwho : Verified env s who)
    (hfresh : FreshSession env s (run env past .empty).db)
    (ha : a ∈ (run env past .empty).db.users.rows) (hsub : a.google_sub = some who.google_sub) :
    SignsIn env s (run env past .empty) a.id ↔
      ∀ b ∈ (run env past .empty).db.users.rows, b.email = who.email → b = a := by
  have hv := valid_of_reachable env ⟨past, rfl⟩
  generalize run env past .empty = w at *
  have hmem : a ∈ users_by_identity who w.db := mem_users_by_identity.mpr ⟨ha, Or.inl hsub⟩
  constructor
  · rintro ⟨hresponse, -⟩ b hb hemail
    by_contra hne
    have hb : b ∈ users_by_identity who w.db := mem_users_by_identity.mpr ⟨hb, Or.inr hemail⟩
    rw [verified_effect hwho, sign_in_effect, one_or_none_of_two hb hmem hne] at hresponse
    have hstatus := congrArg Response.status_code hresponse
    simp [Exn.response, json, signed_in, redirect] at hstatus
  · intro hfree
    have hfound : users_by_identity who w.db = [a] := by
      apply Table.select_eq_singleton ha (by simp [hsub])
      intro x hx hp
      rw [decide_eq_true_eq] at hp
      rcases hp with hx' | hemail
      · exact (hv.unique_google_sub a ha x hx (by simp [hsub]) (hsub.trans hx'.symm)).symm
      · exact hfree x hx hemail
    have hhandle := handle_of_linked hwho hfresh hfound (by simp [hsub])
    exact ⟨by rw [hhandle], opens_of_handle hfresh hhandle⟩

/-- Ann comes back with her subject and her email. -/
theorem ann_comes_back :
    SignsIn .sample (google_calls_back "s1 ann@example.com" "b" 2)
      (run .sample [google_calls_back "s1 ann@example.com" "a" 1] .empty) 1 := by
  have hwho : Verified .sample (google_calls_back "s1 ann@example.com" "b" 2)
      ⟨"s1", "ann@example.com", "ann"⟩ := ⟨_, rfl, by decide⟩
  exact (a_returning_user_is_found_iff_email_is_free .sample
    [google_calls_back "s1 ann@example.com" "a" 1] (google_calls_back "s1 ann@example.com" "b" 2)
    ⟨"s1", "ann@example.com", "ann"⟩ ⟨1, "ann@example.com", "ann", none, some "s1"⟩ hwho
    (by unfold FreshSession; decide) (by decide) rfl).mpr (by decide)

/-- Her subject comes back with an email that has been registered since. -/
theorem a_returning_user_with_a_registered_email_meets_an_error :
    Verified .sample (google_calls_back "s1 ann@example.com" "c" 3)
        ⟨"s1", "ann@example.com", "ann"⟩ ∧
      ⟨2, "old@example.com", "old", none, some "s1"⟩ ∈ (run .sample [ann_registers "a" 1,
        google_calls_back "s1 old@example.com" "b" 2] .empty).db.users.rows ∧
      ¬ SignsIn .sample (google_calls_back "s1 ann@example.com" "c" 3)
        (run .sample [ann_registers "a" 1, google_calls_back "s1 old@example.com" "b" 2] .empty) 2 ∧
      ((google_calls_back "s1 ann@example.com" "c" 3).handle .sample (run .sample
        [ann_registers "a" 1, google_calls_back "s1 old@example.com" "b" 2] .empty)).1 =
          json 500 .internal_server_error := by
  have hresponse : ((google_calls_back "s1 ann@example.com" "c" 3).handle .sample (run .sample
      [ann_registers "a" 1, google_calls_back "s1 old@example.com" "b" 2] .empty)).1 =
        json 500 .internal_server_error := by decide
  refine ⟨⟨_, rfl, by decide⟩, by decide, ?_, hresponse⟩
  rintro ⟨h, -⟩
  rw [hresponse] at h
  exact absurd (congrArg Response.status_code h) (by decide)

end shared_todos.google_accounts
