-- What the answers tell of the accounts. Two runs start from states that differ
-- in one account, which only the second state has. The logins and the requests
-- for a reset are answered alike in both, whatever is asked; a registration with
-- the email of the account is not.
import SharedTodos.LoginLimits

open keyed_table transactions
open shared_todos.models shared_todos.http shared_todos.http.handler
open shared_todos.sessions shared_todos.rate_limiter shared_todos.auth shared_todos.csrf
open shared_todos.app shared_todos.accounts shared_todos.password_history shared_todos.login_limits

namespace shared_todos.enumeration

variable (env : Env)

/-! ## What an observer sees -/

/-- A response without the values that the process has drawn for it: those of
the cookies, and the id of a new account. -/
def masked (r : Response) : Response :=
  { r with
    body :=
      match r.body with
      | .registered user message => .registered (user.map fun u => { u with id := 0 }) message
      | body => body
    cookies := r.cookies.map fun c => { c with value := "" } }

/-- The users of the two states are the same but for one account, which only the
second state has. -/
structure Differ (account : User) (w₁ w₂ : World) : Prop where
  store : w₁.store = w₂.store
  unknown : ∀ u ∈ w₁.db.users.rows, u.email ≠ account.email
  known : account ∈ w₂.db.users.rows
  others : ∀ u, u.email ≠ account.email → (u ∈ w₁.db.users.rows ↔ u ∈ w₂.db.users.rows)

/-- What the lookup of an email gives in the two states. -/
inductive Lookups (account : User) (email : String) (rows₁ rows₂ : List User) : Prop where
  | of_nobody (first : rows₁ = []) (second : rows₂ = [])
  | of_the_same (user : User) (first : rows₁ = [user]) (second : rows₂ = [user])
  | of_the_account (email : email = account.email) (first : rows₁ = []) (second : rows₂ = [account])

section
variable {account : User} {w₁ w₂ : World}

theorem no_users_by_email {db : DB} {email : String} (h : ∀ u ∈ db.users.rows, u.email ≠ email) :
    users_by_email email db = [] := by
  unfold users_by_email
  rw [Table.select_eq_nil_iff]
  intro u hu
  simpa using h u hu

theorem lookups (h : Differ account w₁ w₂) (hv₁ : Valid w₁.db) (hv₂ : Valid w₂.db) (email : String) :
    Lookups account email (users_by_email email w₁.db) (users_by_email email w₂.db) := by
  by_cases he : email = account.email
  · refine .of_the_account he ?_ ?_
    · rw [he]
      exact no_users_by_email h.unknown
    · rw [he]
      exact users_by_email_eq hv₂ h.known
  by_cases hex : ∃ u ∈ w₁.db.users.rows, u.email = email
  · obtain ⟨u, hu, rfl⟩ := hex
    exact .of_the_same u (users_by_email_eq hv₁ hu) (users_by_email_eq hv₂ ((h.others u he).mp hu))
  · refine .of_nobody (no_users_by_email fun u hu hue => hex ⟨u, hu, hue⟩)
      (no_users_by_email fun u hu hue => hex ⟨u, ?_, hue⟩)
    exact (h.others u (by rw [hue]; exact he)).mpr hu

/-- Only the users and the limiter matter. -/
theorem Differ.congr (h : Differ account w₁ w₂) {w₁' w₂' : World}
    (hu₁ : w₁'.db.users = w₁.db.users) (hu₂ : w₂'.db.users = w₂.db.users)
    (hstore : w₁'.store = w₂'.store) : Differ account w₁' w₂' where
  store := hstore
  unknown := by rw [hu₁]; exact h.unknown
  known := by rw [hu₂]; exact h.known
  others := by rw [hu₁, hu₂]; exact h.others

end

/-! ## The calls of the two runs -/

/-- The same call at the same times, with draws of their own: the tokens and the
ids differ, and a mail may fail in one run and not in the other. -/
structure Alike (s₁ s₂ : Step) : Prop where
  call : s₁.call = s₂.call
  request : s₁.request = s₂.request
  now : s₁.draws.now = s₂.draws.now

/-- A login, but none of the account with its password, or a request for a reset. -/
def Asks (account : User) (password : String) (s : Step) : Prop :=
  (∃ body, s.call = .login body ∧ (body.email.val = account.email → body.password ≠ password)) ∨
    ∃ body, s.call = .password_reset_request body

/-- The draws meet nothing that is there. -/
def FreshDraws (s : Step) (db : DB) : Prop :=
  FreshSession env s db ∧ db.password_reset_tokens.find s.draws.row_id = none ∧
    ∀ t ∈ db.password_reset_tokens.rows, t.token_hash ≠ hash_token env (s.draws.token_urlsafe 0)

/-- The answers look the same, and the states still differ in the account alone. -/
def StayAlike (account : User) (a₁ a₂ : Response × World) : Prop :=
  masked a₁.1 = masked a₂.1 ∧ Differ account a₁.2 a₂.2

section
variable {env} {account : User} {password : String} {s₁ s₂ : Step} {w₁ w₂ : World}

theorem insert_fresh_reset_token {s : Step} {db : DB} (hfresh : FreshDraws env s db)
    {user_id : UUID} (hu : db.users.find user_id ≠ none) (now : Time) :
    insert_reset_token
        (new_reset_token env user_id (s.draws.token_urlsafe 0) s.draws.row_id now) db =
      .ok [.insert_reset_token
        (new_reset_token env user_id (s.draws.token_urlsafe 0) s.draws.row_id now)] := by
  unfold insert_reset_token
  rw [if_neg, if_neg (show ¬ db.users.find (new_reset_token env user_id (s.draws.token_urlsafe 0)
    s.draws.row_id now).user_id = none from hu)]
  rintro (h | ⟨r, hr, hh⟩)
  · exact h hfresh.2.1
  · exact hfresh.2.2 r hr hh

theorem find_of_users_by_email {db : DB} {email : String} {user : User}
    (h : users_by_email email db = [user]) : db.users.find user.id ≠ none := by
  have hmem : user ∈ users_by_email email db := by rw [h]; simp
  rw [Table.find_of_mem ((Table.mem_select _ _ _).mp hmem).1]
  simp

/-- Both logins are rejected. -/
theorem rejected_alike (hd : Differ account w₁ w₂) (request : Request) (c : Nat → Time) :
    StayAlike account (perform (login_rejected env request) c w₁)
      (perform (login_rejected env request) c w₂) := by
  rw [login_rejected_effect, login_rejected_effect]
  refine ⟨rfl, hd.congr rfl rfl ?_⟩
  unfold World.failed_login
  rw [hd.store]

/-- A missing account and one without a password are verified against the same hash. -/
theorem dummy_alike (hverify : Verifier env) (body : LoginRequest) (request : Request) (d : Draws)
    (c : Nat → Time) (w : World) {user : Option User}
    (hnone : user.bind User.password_hash = none) :
    perform (login_found env body request d user) c w =
      perform (login_rejected env request) c w := by
  rw [login_found_effect]
  split
  · rename_i hash hsome
    rw [hnone] at hsome
    cases hsome
  · cases hv : env.ph_verify env.dummy_hash body.password with
    | error => exact absurd hv (hverify.dummy _)
    | verified => rfl
    | mismatch => rfl

/-- Both logins are accepted, each with a session of its own. -/
theorem accepted_alike (hd : Differ account w₁ w₂) (halike : Alike s₁ s₂) {user : User}
    (hfresh₁ : FreshDraws env s₁ w₁.db) (hfresh₂ : FreshDraws env s₂ w₂.db)
    (hu₁ : w₁.db.users.find user.id ≠ none) (hu₂ : w₂.db.users.find user.id ≠ none)
    (c : Nat → Time) :
    StayAlike account (perform (login_accepted env user s₁.request s₁.draws) c w₁)
      (perform (login_accepted env user s₂.request s₂.draws) c w₂) := by
  have h₁ : insert_session (new_session env user.id (s₁.draws.token_urlsafe 0) s₁.draws.session_id
      (c 1)) (World.reset_logins env s₁.request w₁).db = .ok _ :=
    insert_fresh_session hfresh₁.1 hu₁ (c 1)
  have h₂ : insert_session (new_session env user.id (s₂.draws.token_urlsafe 0) s₂.draws.session_id
      (c 1)) (World.reset_logins env s₂.request w₂).db = .ok _ :=
    insert_fresh_session hfresh₂.1 hu₂ (c 1)
  rw [login_accepted_effect, login_accepted_effect, attempt_ok h₁, attempt_ok h₂]
  refine ⟨rfl, hd.congr rfl rfl ?_⟩
  unfold World.commit World.reset_logins
  rw [hd.store, halike.request]

/-- A login of an account that both states have, or that none of them has. -/
theorem found_alike (hverify : Verifier env) (hd : Differ account w₁ w₂) (halike : Alike s₁ s₂)
    (hfresh₁ : FreshDraws env s₁ w₁.db) (hfresh₂ : FreshDraws env s₂ w₂.db) (body : LoginRequest)
    (user : Option User) (hu₁ : ∀ u, user = some u → w₁.db.users.find u.id ≠ none)
    (hu₂ : ∀ u, user = some u → w₂.db.users.find u.id ≠ none) (c : Nat → Time) :
    StayAlike account (perform (login_found env body s₁.request s₁.draws user) c w₁)
      (perform (login_found env body s₂.request s₂.draws user) c w₂) := by
  cases hp : user.bind User.password_hash with
  | none =>
    rw [dummy_alike hverify body s₁.request s₁.draws c w₁ hp,
      dummy_alike hverify body s₂.request s₂.draws c w₂ hp, halike.request]
    exact rejected_alike hd s₂.request c
  | some hash =>
    obtain ⟨user, rfl, hp⟩ := Option.bind_eq_some_iff.mp hp
    rw [login_found_effect, login_found_effect]
    simp only [hp]
    cases env.ph_verify hash body.password with
    | verified => exact accepted_alike hd halike hfresh₁ hfresh₂ (hu₁ user rfl) (hu₂ user rfl) c
    | mismatch =>
      rw [halike.request]
      exact rejected_alike hd s₂.request c
    | error => exact ⟨rfl, hd⟩

/-- A login with the email of the account and a wrong password is rejected. -/
theorem wrong_password_rejected (hverify : Verifier env)
    (hright : ∀ p salt q, env.ph_verify (env.ph_hash p salt) q = .verified → p = q)
    (hkind : ∀ h, account.password_hash = some h → ∃ salt, h = env.ph_hash password salt)
    (body : LoginRequest) (hwrong : body.password ≠ password) (request : Request) (d : Draws)
    (c : Nat → Time) (w : World) :
    perform (login_found env body request d (some account)) c w =
      perform (login_rejected env request) c w := by
  cases hp : account.password_hash with
  | none => exact dummy_alike hverify body request d c w hp
  | some hash =>
    obtain ⟨salt, rfl⟩ := hkind hash hp
    rw [login_found_effect]
    simp only [Option.bind_some, hp]
    cases hv : env.ph_verify (env.ph_hash password salt) body.password with
    | verified => exact absurd (hright _ _ _ hv).symm hwrong
    | mismatch => rfl
    | error => exact absurd hv (hverify.made _ _ _)

theorem login_alike (hverify : Verifier env)
    (hright : ∀ p salt q, env.ph_verify (env.ph_hash p salt) q = .verified → p = q)
    (hkind : ∀ h, account.password_hash = some h → ∃ salt, h = env.ph_hash password salt)
    (hd : Differ account w₁ w₂) (hv₁ : Valid w₁.db) (hv₂ : Valid w₂.db) (halike : Alike s₁ s₂)
    (hfresh₁ : FreshDraws env s₁ w₁.db) (hfresh₂ : FreshDraws env s₂ w₂.db) (body : LoginRequest)
    (hwrong : body.email.val = account.email → body.password ≠ password) :
    StayAlike account (perform (login env body s₁.request s₁.draws) s₁.draws.now w₁)
      (perform (login env body s₂.request s₂.draws) s₂.draws.now w₂) := by
  rw [login_effect, login_effect, halike.now, hd.store, halike.request]
  split
  · exact ⟨rfl, hd⟩
  have hfound := found_alike hverify hd halike hfresh₁ hfresh₂ body
  rw [halike.request] at hfound
  cases lookups hd hv₁ hv₂ body.email.val with
  | of_nobody first second =>
    rw [first, second]
    exact hfound none (by simp) (by simp) _
  | of_the_same user first second =>
    have hu₁ := find_of_users_by_email first
    have hu₂ := find_of_users_by_email second
    rw [first, second]
    exact hfound (some user) (by rintro u ⟨⟩; exact hu₁) (by rintro u ⟨⟩; exact hu₂) _
  | of_the_account email first second =>
    rw [first, second]
    change StayAlike account (perform (login_found env body s₂.request s₁.draws none) _ w₁)
      (perform (login_found env body s₂.request s₂.draws (some account)) _ w₂)
    rw [dummy_alike hverify body s₂.request s₁.draws _ w₁ rfl,
      wrong_password_rejected hverify hright hkind body (hwrong email) s₂.request s₂.draws]
    exact rejected_alike hd s₂.request _

/-- What a request for a reset does to a state that accepts its token. -/
theorem password_reset_request_quiet {s : Step} {w : World} (hfresh : FreshDraws env s w.db)
    (body : PasswordResetRequestBody) {user : Option User}
    (hrows : users_by_email body.email.val w.db = user.toList) :
    ∃ w', perform (password_reset_request env body s.draws) s.draws.now w = (reset_requested, w') ∧
      w'.db.users = w.db.users ∧ w'.store = w.store := by
  rw [password_reset_request_effect, hrows]
  cases user with
  | none => exact ⟨w, rfl, rfl, rfl⟩
  | some user =>
    simp only [Option.toList_some, one_or_none, proceed_ok, Option.bind_some]
    cases hp : user.password_hash with
    | none => exact ⟨w, rfl, rfl, rfl⟩
    | some hash =>
      dsimp only
      rw [attempt_ok (insert_fresh_reset_token hfresh (find_of_users_by_email hrows) _)]
      exact ⟨_, rfl, rfl, rfl⟩

theorem password_reset_request_alike (hd : Differ account w₁ w₂) (hv₁ : Valid w₁.db)
    (hv₂ : Valid w₂.db) (hfresh₁ : FreshDraws env s₁ w₁.db) (hfresh₂ : FreshDraws env s₂ w₂.db)
    (body : PasswordResetRequestBody) :
    StayAlike account (perform (password_reset_request env body s₁.draws) s₁.draws.now w₁)
      (perform (password_reset_request env body s₂.draws) s₂.draws.now w₂) := by
  have hquiet : ∀ user₁ user₂ : Option User,
      users_by_email body.email.val w₁.db = user₁.toList →
      users_by_email body.email.val w₂.db = user₂.toList →
      StayAlike account (perform (password_reset_request env body s₁.draws) s₁.draws.now w₁)
        (perform (password_reset_request env body s₂.draws) s₂.draws.now w₂) := by
    intro user₁ user₂ hrows₁ hrows₂
    obtain ⟨w₁', h₁, husers₁, hstore₁⟩ := password_reset_request_quiet hfresh₁ body hrows₁
    obtain ⟨w₂', h₂, husers₂, hstore₂⟩ := password_reset_request_quiet hfresh₂ body hrows₂
    rw [h₁, h₂]
    exact ⟨rfl, hd.congr husers₁ husers₂ (by rw [hstore₁, hstore₂, hd.store])⟩
  cases lookups hd hv₁ hv₂ body.email.val with
  | of_nobody first second => exact hquiet none none first second
  | of_the_same user first second => exact hquiet (some user) (some user) first second
  | of_the_account email first second => exact hquiet none (some account) first second

/-- One call keeps the two runs alike. -/
theorem stay_alike (hverify : Verifier env)
    (hright : ∀ p salt q, env.ph_verify (env.ph_hash p salt) q = .verified → p = q)
    (hkind : ∀ h, account.password_hash = some h → ∃ salt, h = env.ph_hash password salt)
    (hd : Differ account w₁ w₂) (hv₁ : Valid w₁.db) (hv₂ : Valid w₂.db) (halike : Alike s₁ s₂)
    (hasks : Asks account password s₁) (hfresh₁ : FreshDraws env s₁ w₁.db)
    (hfresh₂ : FreshDraws env s₂ w₂.db) :
    StayAlike account (s₁.handle env w₁) (s₂.handle env w₂) := by
  unfold Step.handle
  rw [← halike.call, ← halike.request]
  cases dispatch s₁.call.method s₁.call.path s₁.request with
  | error e => exact ⟨rfl, hd⟩
  | ok verdict =>
    cases verdict with
    | answer r => exact ⟨rfl, hd⟩
    | forward =>
      dsimp only
      rcases hasks with ⟨body, call, hwrong⟩ | ⟨body, call⟩
      · have h := login_alike hverify hright hkind hd hv₁ hv₂ halike hfresh₁ hfresh₂ body hwrong
        rw [call, halike.request]
        rwa [halike.request] at h
      · rw [call]
        exact password_reset_request_alike hd hv₁ hv₂ hfresh₁ hfresh₂ body

end

/-! ## The runs -/

/-- What an observer sees of a run: each answer, and the limiter after it. -/
def seen : List Step → World → List (Response × RateStore)
  | [], _ => []
  | s :: steps, w => (masked (s.handle env w).1, (s.after env w).store) :: seen steps (s.after env w)

/-- No draw of the run meets anything that is there. -/
def FreshRun : List Step → World → Prop
  | [], _ => True
  | s :: steps, w => FreshDraws env s w.db ∧ FreshRun steps (s.after env w)

/-- Two states with the same users but for one account, with a password or of
Google alone, and with the same limiter: every sequence of logins and requests
for a reset, without a login of the account with its password, is answered
alike in both, and leaves the limiter alike after each call. -/
theorem the_answers_tell_of_no_account (env : Env) (hverify : Verifier env)
    (hright : ∀ p salt q, env.ph_verify (env.ph_hash p salt) q = .verified → p = q)
    (account : User) (password : String)
    (hkind : ∀ h, account.password_hash = some h → ∃ salt, h = env.ph_hash password salt)
    (w₁ w₂ : World) (h₁ : Reachable env w₁) (h₂ : Reachable env w₂) (hd : Differ account w₁ w₂)
    (steps₁ steps₂ : List Step) (halike : List.Forall₂ Alike steps₁ steps₂)
    (hasks : ∀ s ∈ steps₁, Asks account password s) (hfresh₁ : FreshRun env steps₁ w₁)
    (hfresh₂ : FreshRun env steps₂ w₂) : seen env steps₁ w₁ = seen env steps₂ w₂ := by
  have hv₁ := valid_of_reachable env h₁
  have hv₂ := valid_of_reachable env h₂
  clear h₁ h₂
  induction halike generalizing w₁ w₂ with
  | nil => rfl
  | cons hs _ ih =>
    obtain ⟨hresponse, hdiffer⟩ := stay_alike hverify hright hkind hd hv₁ hv₂ hs
      (hasks _ (by simp)) hfresh₁.1 hfresh₂.1
    unfold seen
    rw [hresponse, ih (Step.after env _ w₁) (Step.after env _ w₂) hdiffer
      (fun s hs => hasks s (List.mem_cons_of_mem _ hs)) hfresh₁.2 hfresh₂.2
      (valid_after env hv₁ _) (valid_after env hv₂ _)]
    unfold Step.after
    rw [hdiffer.store]

/-! ### Ann's account, or none -/

def ann_registered : World := run .sample [ann_registers "ann" 1] .empty

/-- The account of Ann. -/
def ann_row : User := new_user .sample ann_registration (.sample "ann" 1)

def ann_asks_for_a_reset (name : String) (id : UUID) (mail_error : Option Exn) : Step where
  call := .password_reset_request ⟨ann⟩
  request := .sample
  draws := { Draws.sample name id with mail_error }

theorem differ_in_ann : Differ ann_row .empty ann_registered where
  store := by
    funext ip
    rfl
  unknown := by intro u hu; cases hu
  known := by decide
  others := by
    intro u hne
    constructor
    · intro hu
      cases hu
    · intro hu
      have hall : ∀ v ∈ ann_registered.db.users.rows, v.email = ann_row.email := by decide
      exact absurd (hall u hu) hne

/-- A guess and a request for a reset, where the mail fails if there is an account. -/
theorem nothing_tells_of_ann :
    seen .sample [ann_logs_in "wrong horse" "a" 2, ann_asks_for_a_reset "b" 3 none] .empty =
      seen .sample [ann_logs_in "wrong horse" "c" 4, ann_asks_for_a_reset "d" 5 (some .library)]
        ann_registered := by
  refine the_answers_tell_of_no_account .sample ?_ ?_ ann_row "correct horse" ?_ .empty
    ann_registered ⟨[], rfl⟩ ⟨_, rfl⟩ differ_in_ann _ _ ?_ ?_ ?_ ?_
  · exact verifier_of_limited 5 (by decide)
  · intro p salt q
    simp [Env.sample]
  · rintro h ⟨⟩
    exact ⟨"salt", rfl⟩
  · exact .cons ⟨rfl, rfl, rfl⟩ (.cons ⟨rfl, rfl, rfl⟩ .nil)
  · intro s hs
    simp only [List.mem_cons, List.not_mem_nil, or_false] at hs
    rcases hs with rfl | rfl
    · exact Or.inl ⟨_, rfl, fun _ => by decide⟩
    · exact Or.inr ⟨_, rfl⟩
  · unfold FreshRun FreshRun FreshRun FreshDraws FreshSession
    decide
  · unfold FreshRun FreshRun FreshRun FreshDraws FreshSession
    decide

/-! ## The registration -/

/-- A registration with the email of the account is never answered alike: the
body names a user in one state and none in the other. -/
theorem a_registration_tells_of_the_account (env : Env) (body : RegisterRequest) (account : User)
    (hemail : account.email = body.email.val) (w₁ w₂ : World) (h₂ : Reachable env w₂)
    (hd : Differ account w₁ w₂) (s₁ s₂ : Step) (call₁ : s₁.call = .register body)
    (call₂ : s₂.call = .register body) :
    masked (s₁.handle env w₁).1 ≠ masked (s₂.handle env w₂).1 := by
  have hrows₁ : users_by_email body.email.val w₁.db = [] :=
    no_users_by_email (hemail ▸ hd.unknown)
  have hrows₂ : users_by_email body.email.val w₂.db = [account] := by
    rw [← hemail]
    exact users_by_email_eq (valid_of_reachable env h₂) hd.known
  have hhandle : ∀ (s : Step) (w : World), s.call = .register body →
      s.handle env w = perform (register env body s.draws) s.draws.now w := by
    intro s w call
    unfold Step.handle
    rw [call]
    rfl
  have hsecond : (s₂.handle env w₂).1 = register_existing env s₂.draws := by
    rw [hhandle s₂ w₂ call₂, register_effect, hrows₂]
    rfl
  rw [hsecond, hhandle s₁ w₁ call₁, register_effect, hrows₁]
  change masked (perform (register_new env body s₁.draws) s₁.draws.now w₁).1 ≠ _
  rw [register_new_effect]
  have herror : ∀ e, masked (Exn.db e).response ≠ masked (register_existing env s₂.draws) := by
    intro e h
    have := congrArg Response.status_code h
    simp [masked, Exn.response, json, register_existing] at this
  cases hi : insert_user (new_user env body s₁.draws) w₁.db with
  | error e =>
    rw [attempt_error hi]
    exact herror e
  | ok cs =>
    rw [attempt_ok hi]
    cases hs : insert_session (new_session env s₁.draws.row_id (s₁.draws.token_urlsafe 0)
        s₁.draws.session_id (s₁.draws.now 0)) (w₁.commit cs).db with
    | error e =>
      rw [attempt_error hs]
      exact herror e
    | ok ds =>
      rw [attempt_ok hs]
      intro h
      have := congrArg Response.body h
      simp [masked, registered, register_existing] at this

/-- The registration of Ann, in a state without her and in one with her. -/
theorem a_registration_tells_of_ann :
    masked ((ann_registers "a" 2).handle .sample .empty).1 ≠
      masked ((ann_registers "b" 3).handle .sample ann_registered).1 :=
  a_registration_tells_of_the_account .sample ann_registration ann_row rfl .empty ann_registered
    ⟨_, rfl⟩ differ_in_ann _ _ rfl rfl

theorem registrations_are_not_alike :
    ¬ ∀ (account : User) (w₁ w₂ : World), Reachable .sample w₁ → Reachable .sample w₂ →
      account.email = ann_registration.email.val → Differ account w₁ w₂ →
      ∀ s₁ s₂ : Step, s₁.call = .register ann_registration → s₂.call = .register ann_registration →
        FreshDraws .sample s₁ w₁.db → FreshDraws .sample s₂ w₂.db →
        masked (s₁.handle .sample w₁).1 = masked (s₂.handle .sample w₂).1 := by
  intro h
  have halike := h ann_row .empty ann_registered ⟨[], rfl⟩ ⟨_, rfl⟩ rfl differ_in_ann
    (ann_registers "a" 2) (ann_registers "b" 3) rfl rfl
    (by unfold FreshDraws FreshSession; decide) (by unfold FreshDraws FreshSession; decide)
  revert halike
  decide

end shared_todos.enumeration
