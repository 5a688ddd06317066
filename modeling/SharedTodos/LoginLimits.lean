-- The limiter over the logins of one address, one after the other. A login that
-- succeeds makes the limiter forget the failures of its address, whichever
-- account they were against. As long as no login succeeds less than a window
-- after a failure against an account, the account meets no more failures in a
-- window than the limit allows; the first one that does opens the way to more.
import SharedTodos.PasswordHistory
import SharedTodos.Library.Window
import Mathlib.Data.List.Induction

open keyed_table transactions sliding_window
open shared_todos.models shared_todos.http shared_todos.http.handler
open shared_todos.sessions shared_todos.rate_limiter shared_todos.auth shared_todos.app
open shared_todos.accounts shared_todos.password_history

namespace shared_todos.login_limits

variable (env : Env)

abbrev limit : Nat := env.settings.rate_limit_login_attempts

abbrev window : Time := seconds env.settings.rate_limit_login_window_seconds

/-! ## What a login comes to -/

/-- What argon2 promises of its own hashes: it can tell whether a password is
the one of the hash. -/
structure Verifier : Prop where
  made : ∀ p salt q, env.ph_verify (env.ph_hash p salt) q ≠ .error
  dummy : ∀ q, env.ph_verify env.dummy_hash q ≠ .error

/-- An account with the email has the password. -/
def accepts (body : LoginRequest) (db : DB) : Bool :=
  (users_by_email body.email.val db).any fun user =>
    user.password_hash.any fun hash => decide (env.ph_verify hash body.password = .verified)

section
variable {env}

/-- In a state with the hashes of argon2 the lookup of a login finds an account
with the password, or the login is rejected. -/
theorem found_or_rejected (hverify : Verifier env) {log : List (UUID × String)} {db : DB}
    (hv : Valid db) (hstep : InStep env log db) (body : LoginRequest) (request : Request)
    (d : Draws) :
    (∃ user hash, users_by_email body.email.val db = [user] ∧ user.password_hash = some hash ∧
        env.ph_verify hash body.password = .verified ∧ accepts env body db = true) ∨
      accepts env body db = false ∧
        (scalar_one_or_none (users_by_email body.email.val db) >>= fun user =>
          login_found env body request d user) = login_rejected env request := by
  have hdummy : ∀ user : Option User, user.bind User.password_hash = none →
      login_found env body request d user = login_rejected env request := by
    intro user hnone
    unfold login_found verify_password make_dummy_hash
    have hne := hverify.dummy body.password
    split
    · rename_i hash hsome
      rw [hnone] at hsome
      cases hsome
    · cases hd : env.ph_verify env.dummy_hash body.password with
      | error => exact absurd hd hne
      | verified => rfl
      | mismatch => rfl
  by_cases hex : ∃ user ∈ db.users.rows, user.email = body.email.val
  · obtain ⟨user, huser, hemail⟩ := hex
    have hrows : users_by_email body.email.val db = [user] := by
      rw [← hemail]
      exact users_by_email_eq hv huser
    cases hp : user.password_hash with
    | none =>
      refine Or.inr ⟨by simp [accepts, hrows, hp], ?_⟩
      rw [hrows]
      exact hdummy (some user) (by simp [hp])
    | some hash =>
      obtain ⟨p, salt, rfl, -⟩ := hstep.sound user huser _ hp
      cases hver : env.ph_verify (env.ph_hash p salt) body.password with
      | error => exact absurd hver (hverify.made p salt body.password)
      | verified => exact Or.inl ⟨user, _, hrows, hp, hver, by simp [accepts, hrows, hp, hver]⟩
      | mismatch =>
        refine Or.inr ⟨by simp [accepts, hrows, hp, hver], ?_⟩
        rw [hrows]
        change login_found env body request d (some user) = _
        unfold login_found
        simp only [Option.bind_some, hp]
        unfold verify_password
        rw [hver]
        rfl
  · have hrows : users_by_email body.email.val db = [] := by
      unfold users_by_email
      rw [Table.select_eq_nil_iff]
      intro user huser
      simp only [decide_eq_false_iff_not]
      exact fun he => hex ⟨user, huser, he⟩
    refine Or.inr ⟨by simp [accepts, hrows], ?_⟩
    rw [hrows]
    exact hdummy none rfl

end

/-- What the limiter and the verification make of a login. -/
inductive Outcome (s : Step) (body : LoginRequest) (w : World) (r : Response) (w' : World) :
    Prop where
  | refused (locked : Locked env s.request (s.draws.now 0) w.store)
      (answer : r = (too_many_attempts env).response) (world : w' = w)
  | rejected (unlocked : ¬ Locked env s.request (s.draws.now 0) w.store)
      (wrong : accepts env body w.db = false) (answer : r.status_code = 401)
      (world : w' = World.failed_login env s.request w (s.draws.now 1))
  | accepted (unlocked : ¬ Locked env s.request (s.draws.now 0) w.store)
      (right : accepts env body w.db = true) (answer : r.status_code = 200 ∨ r.status_code = 500)
      (store : w'.store = Function.update w.store (client_ip env s.request) [])
      (users : w'.db.users = w.db.users)

section
variable {env}

theorem outcome_of_login (hverify : Verifier env) {s : Step} {body : LoginRequest}
    (call : s.call = .login body) {log : List (UUID × String)} {w : World} (hv : Valid w.db)
    (hstep : InStep env log w.db) :
    Outcome env s body w (s.handle env w).1 (s.handle env w).2 := by
  rw [login_is_handled env call, login_effect]
  by_cases hl : Locked env s.request (s.draws.now 0) w.store
  · rw [if_pos hl]
    exact .refused hl rfl rfl
  rw [if_neg hl, ← perform_scalar_one_or_none]
  rcases found_or_rejected hverify hv hstep body s.request s.draws with
    ⟨user, hash, hrows, hp, hver, hright⟩ | ⟨hwrong, hrest⟩
  · rw [hrows]
    change Outcome env s body w (perform (login_found env body s.request s.draws (some user)) _ w).1
      (perform (login_found env body s.request s.draws (some user)) _ w).2
    rw [login_found_effect]
    simp only [Option.bind_some, hp, hver]
    rw [login_accepted_effect]
    cases hs : insert_session (new_session env user.id (s.draws.token_urlsafe 0)
        s.draws.session_id (s.draws.now (1 + 1))) (World.reset_logins env s.request w).db with
    | error e =>
      rw [attempt_error hs]
      exact .accepted hl hright (Or.inr rfl) rfl rfl
    | ok cs =>
      obtain ⟨rfl, -⟩ := insert_session_ok hs
      rw [attempt_ok hs]
      exact .accepted hl hright (Or.inl rfl) rfl rfl
  · rw [hrest, login_rejected_effect]
    exact .rejected hl hwrong rfl rfl

end

/-! ## The runs of one address -/

/-- The readings of the clock of each login: at the check, and at the record. -/
def readings (steps : List Step) : List Time :=
  steps.flatMap fun s => [s.draws.now 0, s.draws.now 1]

/-- Logins from one address, by a clock that does not go back. -/
structure LoginRun (ip : String) (steps : List Step) : Prop where
  logins : ∀ s ∈ steps, ∃ body, s.call = .login body
  address : ∀ s ∈ steps, client_ip env s.request = ip
  clock : (readings steps).Pairwise (· ≤ ·)

/-- A login for the email gets to the verification and fails. -/
def fails (email : String) (s : Step) (w : World) : Bool :=
  match s.call with
  | .login body => decide (body.email.val = email ∧ (s.handle env w).1.status_code = 401)
  | _ => false

/-- When the failed attempts against an email were verified. -/
def failures (email : String) : List Step → World → List Time
  | [], _ => []
  | s :: steps, w =>
    (if fails env email s w then [s.draws.now 1] else []) ++ failures email steps (s.after env w)

/-- A login gets to the verification with the right password. -/
def succeeds (s : Step) (w : World) : Bool :=
  match s.call with
  | .login body => !decide (Locked env s.request (s.draws.now 0) w.store) && accepts env body w.db
  | _ => false

/-- The failures of the window are on record, and no window has more than the limit. -/
structure OnRecord (ip : String) (clock fs : List Time) (store : RateStore) : Prop where
  on_record : ∀ now, (∀ t ∈ clock, t ≤ now) →
    (within (window env) now fs).Sublist (recent env now (store ip))
  bounded : Bounded (limit env) (window env) fs

/-- No login succeeds less than a window after a failed attempt against the email. -/
def Spared (email : String) (steps : List Step) (w : World) : Prop :=
  ∀ past s future, steps = past ++ s :: future → succeeds env s (run env past w) = true →
    ∀ t ∈ failures env email past w, window env ≤ s.draws.now 1 - t

section
variable {env} {ip email : String} {steps more : List Step} {s : Step} {w : World}

theorem readings_append (a b : List Step) : readings (a ++ b) = readings a ++ readings b :=
  List.flatMap_append

theorem failures_append (a b : List Step) (w : World) :
    failures env email (a ++ b) w = failures env email a w ++ failures env email b (run env a w) := by
  induction a generalizing w with
  | nil => rfl
  | cons s a ih =>
    simp only [List.cons_append, failures, ih, List.append_assoc]
    rfl

/-- A failure happens at a reading of the clock. -/
theorem failures_subset (steps : List Step) (w : World) :
    ∀ t ∈ failures env email steps w, t ∈ readings steps := by
  induction steps generalizing w with
  | nil => intro t ht; cases ht
  | cons s steps ih =>
    intro t ht
    unfold readings
    rw [List.flatMap_cons, List.mem_append]
    rcases List.mem_append.mp ht with ht | ht
    · refine Or.inl ?_
      split at ht
      · simp_all
      · cases ht
    · exact Or.inr (ih _ t ht)

theorem LoginRun.past (h : LoginRun env ip (steps ++ more)) : LoginRun env ip steps where
  logins s hs := h.logins s (List.mem_append_left _ hs)
  address s hs := h.address s (List.mem_append_left _ hs)
  clock := by
    have hclock := h.clock
    rw [readings_append] at hclock
    exact (List.pairwise_append.mp hclock).1

/-- The readings of the next login are later than those before. -/
theorem LoginRun.last (h : LoginRun env ip (steps ++ [s])) :
    (∀ t ∈ readings steps, t ≤ s.draws.now 0) ∧ s.draws.now 0 ≤ s.draws.now 1 := by
  have hclock := h.clock
  rw [readings_append, List.pairwise_append] at hclock
  obtain ⟨-, hlast, hpast⟩ := hclock
  exact ⟨fun t ht => hpast t ht _ (by simp [readings]), by simpa [readings] using hlast⟩

theorem Spared.past (h : Spared env email (steps ++ more) w) : Spared env email steps w := by
  rintro past s future rfl
  exact h past s (future ++ more) (by simp)

theorem readings_snoc (past : List Step) (s : Step) :
    readings (past ++ [s]) = readings past ++ [s.draws.now 0, s.draws.now 1] := by
  rw [readings_append]
  rfl

/-- Later readings of the clock change nothing. -/
theorem OnRecord.later {clock more fs : List Time} {store store' : RateStore}
    (h : OnRecord env ip clock fs store) (hsame : store' ip = store ip) :
    OnRecord env ip (clock ++ more) fs store' where
  on_record now hnow := by
    rw [hsame]
    exact h.on_record now fun t ht => hnow t (List.mem_append_left _ ht)
  bounded := h.bounded

/-- An attempt that found room on record is written down, whether it is one of the
failures or not. -/
theorem OnRecord.written {clock fs new : List Time} {store store' : RateStore} {a b : Time}
    (h : OnRecord env ip clock fs store) (hlater : ∀ t ∈ clock, t ≤ a) (hab : a ≤ b)
    (hopen : (recent env a (store ip)).length < limit env) (hnew : new = [] ∨ new = [b])
    (hstore : store' ip = recent env b (store ip) ++ [b]) :
    OnRecord env ip (clock ++ [a, b]) (fs ++ new) store' where
  on_record now hnow := by
    have hpast := h.on_record now fun t ht => hnow t (List.mem_append_left _ ht)
    have hle : b ≤ now := hnow _ (List.mem_append_right _ (by simp))
    rw [hstore]
    change List.Sublist _ (within (window env) now (within (window env) b (store ip) ++ [b]))
    rw [within_append, within_append, within_within hle]
    refine hpast.append (within_sublist ?_)
    rcases hnew with rfl | rfl
    · exact List.nil_sublist _
    · exact List.Sublist.refl _
  bounded := by
    -- What is on record at the check leaves room, and no more is in the window later.
    have hroom : (within (window env) b fs).length < limit env := by
      have hkept := (h.on_record a hlater).length_le
      have hless := (within_sublist_of_le (window env) fs hab).length_le
      omega
    rcases hnew with rfl | rfl
    · rw [List.append_nil]
      exact h.bounded
    · exact bounded_snoc h.bounded hroom

/-- A login later in the run. -/
theorem on_record_of_outcome (email : String) {past : List Step} {body : LoginRequest}
    {fs : List Time} (hrun : LoginRun env ip (past ++ [s])) (call : s.call = .login body)
    (hspared : succeeds env s w = true → ∀ t ∈ fs, window env ≤ s.draws.now 1 - t)
    (ho : Outcome env s body w (s.handle env w).1 (s.handle env w).2)
    (h : OnRecord env ip (readings past) fs w.store) :
    OnRecord env ip (readings (past ++ [s]))
      (fs ++ if fails env email s w then [s.draws.now 1] else []) (s.after env w).store := by
  obtain ⟨hlater, hstep⟩ := hrun.last
  have hip : client_ip env s.request = ip := hrun.address s (by simp)
  have hfails : (s.handle env w).1.status_code ≠ 401 → fails env email s w = false := by
    intro hne
    unfold fails
    rw [call]
    simp [hne]
  rw [readings_snoc]
  unfold Step.after
  cases ho with
  | refused locked answer world =>
    rw [hfails (by rw [answer]; simp [too_many_attempts, Exn.response]), world]
    simp only [Bool.false_eq_true, if_false, List.append_nil]
    exact h.later rfl
  | rejected unlocked wrong answer world =>
    have hopen : (recent env (s.draws.now 0) (w.store ip)).length < limit env := by
      rw [← hip]
      exact Nat.not_le.mp unlocked
    refine h.written hlater hstep hopen ?_ ?_
    · split
      · exact Or.inr rfl
      · exact Or.inl rfl
    · rw [world, ← hip]
      exact Function.update_self ..
  | accepted unlocked right answer store users =>
    have hsucceeds : succeeds env s w = true := by
      unfold succeeds
      rw [call]
      simp [unlocked, right]
    rw [hfails (by rcases answer with h | h <;> rw [h] <;> decide)]
    simp only [Bool.false_eq_true, if_false, List.append_nil]
    refine ⟨fun now hnow => ?_, h.bounded⟩
    have hle : s.draws.now 1 ≤ now := hnow _ (List.mem_append_right _ (by simp))
    rw [within_eq_nil]
    · exact List.nil_sublist _
    · intro t ht
      exact Int.le_trans (hspared hsucceeds t ht) (Int.sub_le_sub_right hle t)

/-- Over the runs that spare an account its failures stay on record. -/
theorem on_record_of_run (hverify : Verifier env) (before : List Step)
    (hrun : LoginRun env ip steps) (hspared : Spared env email steps (run env before .empty)) :
    OnRecord env ip (readings steps) (failures env email steps (run env before .empty))
      (run env (before ++ steps) .empty).store := by
  induction steps using List.reverseRecOn with
  | nil => exact ⟨fun _ _ => List.nil_sublist _, bounded_nil⟩
  | append_singleton past s ih =>
    obtain ⟨body, call⟩ := hrun.logins s (by simp)
    have hw : run env (before ++ past) .empty = run env past (run env before .empty) :=
      run_append env before past .empty
    have hafter : run env (before ++ (past ++ [s])) .empty =
        s.after env (run env (before ++ past) .empty) := by
      rw [← List.append_assoc, run_append]
      rfl
    rw [failures_append, hafter, ← hw]
    have h := on_record_of_outcome email hrun call
      (fun hs => hspared past s [] rfl (hw ▸ hs))
      (outcome_of_login hverify call (valid_of_reachable env ⟨_, rfl⟩)
        (in_step_after_run env (before ++ past)))
      (ih hrun.past hspared.past)
    simpa only [failures, List.append_nil] using h

/-! ## The way that a success opens -/

theorem accepts_congr {db db' : DB} (h : db'.users = db.users) (body : LoginRequest) :
    accepts env body db' = accepts env body db := by
  unfold accepts users_by_email
  rw [h]

/-- Logins leave the users alone. -/
theorem users_of_run (hverify : Verifier env) (before : List Step) (hrun : LoginRun env ip steps) :
    (run env (before ++ steps) .empty).db.users = (run env before .empty).db.users := by
  induction steps using List.reverseRecOn with
  | nil => rw [List.append_nil]
  | append_singleton past s ih =>
    obtain ⟨body, call⟩ := hrun.logins s (by simp)
    rw [← ih hrun.past, ← List.append_assoc, run_append]
    rcases outcome_of_login hverify call (valid_of_reachable env ⟨_, rfl⟩)
      (in_step_after_run env (before ++ past)) with ⟨-, -, hw⟩ | ⟨-, -, -, hw⟩ | ⟨-, -, -, -, hu⟩
    · exact congrArg (fun w => w.db.users) hw
    · exact congrArg (fun w => w.db.users) hw
    · exact hu

/-- A failure shows a password that the account does not have. -/
theorem wrong_password_of_failure (hverify : Verifier env) (before : List Step)
    (hrun : LoginRun env ip steps) {t : Time}
    (ht : t ∈ failures env email steps (run env before .empty)) :
    ∃ body : LoginRequest, body.email.val = email ∧
      accepts env body (run env before .empty).db = false := by
  induction steps using List.reverseRecOn with
  | nil => cases ht
  | append_singleton past s ih =>
    rw [failures_append, List.mem_append] at ht
    rcases ht with ht | ht
    · exact ih hrun.past ht
    obtain ⟨body, call⟩ := hrun.logins s (by simp)
    rw [← run_append] at ht
    have hfails : fails env email s (run env (before ++ past) .empty) = true := by
      by_contra hno
      simp [failures, hno] at ht
    unfold fails at hfails
    rw [call] at hfails
    obtain ⟨hemail, h401⟩ := of_decide_eq_true hfails
    refine ⟨body, hemail, ?_⟩
    rw [← accepts_congr (users_of_run hverify before hrun.past)]
    rcases outcome_of_login hverify call (valid_of_reachable env ⟨_, rfl⟩)
      (in_step_after_run env (before ++ past)) with ⟨-, ha, -⟩ | ⟨-, hwrong, -, -⟩ | ⟨-, -, ha, -, -⟩
    · rw [ha] at h401
      simp [too_many_attempts, Exn.response] at h401
    · exact hwrong
    · omega

/-- The same login again at one time. -/
def attack (body : LoginRequest) (s : Step) : Step where
  call := .login body
  request := s.request
  draws := { s.draws with now := fun _ => s.draws.now 1 }

/-- As long as the record has room, every further attempt is verified. -/
theorem failures_of_attack (hverify : Verifier env) {body : LoginRequest} (m : Nat)
    (before : List Step) (hwrong : accepts env body (run env before .empty).db = false)
    (hroom : (recent env (s.draws.now 1)
      ((run env before .empty).store (client_ip env s.request))).length + m ≤ limit env) :
    failures env body.email.val (List.replicate m (attack body s)) (run env before .empty) =
      List.replicate m (s.draws.now 1) := by
  induction m generalizing before with
  | zero => rfl
  | succ m ih =>
    have hafter : (attack body s).after env (run env before .empty) =
        run env (before ++ [attack body s]) .empty := by rw [run_append]; rfl
    rcases outcome_of_login hverify (show (attack body s).call = .login body from rfl)
      (valid_of_reachable env ⟨before, rfl⟩) (in_step_after_run env before) with
      ⟨hlocked, -, -⟩ | ⟨-, -, h401, hw⟩ | ⟨-, hright, -, -, -⟩
    · have hlocked : limit env ≤ (recent env (s.draws.now 1)
        ((run env before .empty).store (client_ip env s.request))).length := hlocked
      omega
    · have hfails : fails env body.email.val (attack body s) (run env before .empty) = true :=
        decide_eq_true ⟨rfl, h401⟩
      have hstore : (run env (before ++ [attack body s]) .empty).store (client_ip env s.request) =
          recent env (s.draws.now 1) ((run env before .empty).store (client_ip env s.request)) ++
            [s.draws.now 1] := by
        rw [← hafter]
        unfold Step.after
        rw [hw]
        exact Function.update_self ..
      have husers : (run env (before ++ [attack body s]) .empty).db.users =
          (run env before .empty).db.users := by
        rw [← hafter]
        unfold Step.after
        rw [hw]
        rfl
      have hmore : (recent env (s.draws.now 1) ((run env (before ++ [attack body s]) .empty).store
          (client_ip env s.request))).length ≤ (recent env (s.draws.now 1)
            ((run env before .empty).store (client_ip env s.request))).length + 1 := by
        rw [hstore]
        change (within (window env) (s.draws.now 1) (within (window env) (s.draws.now 1)
          ((run env before .empty).store (client_ip env s.request)) ++ [s.draws.now 1])).length ≤ _
        rw [within_append, within_within (Int.le_refl _), List.length_append]
        exact Nat.add_le_add_left (List.length_filter_le ..) _
      rw [List.replicate_succ, List.replicate_succ, failures, hfails, hafter,
        ih (before ++ [attack body s]) (by rw [accepts_congr husers]; exact hwrong) (by omega)]
      rfl
    · rw [hwrong] at hright
      cases hright

/-- After a success that comes less than a window after a failure, the same
address can go on until the account has met more failures than the limit. -/
theorem a_success_opens_the_way (hverify : Verifier env) (before : List Step)
    (hrun : LoginRun env ip (steps ++ [s]))
    (hsucceeds : succeeds env s (run env steps (run env before .empty)) = true) {t : Time}
    (ht : t ∈ failures env email steps (run env before .empty))
    (hlate : s.draws.now 1 - t < window env) :
    ∃ more, LoginRun env ip (steps ++ [s] ++ more) ∧ ¬ Bounded (limit env) (window env)
      (failures env email (steps ++ [s] ++ more) (run env before .empty)) := by
  obtain ⟨body, rfl, hwrong⟩ := wrong_password_of_failure hverify before hrun.past ht
  have hip : client_ip env s.request = ip := hrun.address s (by simp)
  have hlast := hrun.last
  have hworld : run env (steps ++ [s]) (run env before .empty) =
      run env (before ++ (steps ++ [s])) .empty := (run_append env before _ .empty).symm
  -- The success has made the limiter forget everything.
  have hempty : (run env (before ++ (steps ++ [s])) .empty).store (client_ip env s.request) = [] := by
    obtain ⟨body', call⟩ := hrun.logins s (by simp)
    rw [← List.append_assoc, run_append]
    rw [← run_append] at hsucceeds
    unfold succeeds at hsucceeds
    rw [call, Bool.and_eq_true, Bool.not_eq_true', decide_eq_false_iff_not] at hsucceeds
    rcases outcome_of_login hverify call (valid_of_reachable env ⟨_, rfl⟩)
      (in_step_after_run env (before ++ steps)) with ⟨hlocked, -, -⟩ | ⟨-, hno, -, -⟩ |
      ⟨-, -, -, hstore, -⟩
    · exact absurd hlocked hsucceeds.1
    · rw [hsucceeds.2] at hno
      cases hno
    · exact (congrFun hstore _).trans (Function.update_self ..)
  have hfailures := failures_of_attack (s := s) hverify (limit env) (before ++ (steps ++ [s]))
    (by rw [accepts_congr (users_of_run hverify before hrun)]; exact hwrong)
    (by rw [hempty]; simp [recent])
  have hreadings : ∀ r ∈ readings (List.replicate (limit env) (attack body s)),
      r = s.draws.now 1 := by
    intro r hr
    obtain ⟨x, hx, hr⟩ := List.mem_flatMap.mp hr
    rw [(List.mem_replicate.mp hx).2] at hr
    simpa [attack] using hr
  refine ⟨List.replicate (limit env) (attack body s), ⟨?_, ?_, ?_⟩, ?_⟩
  · intro x hx
    rcases List.mem_append.mp hx with hx | hx
    · exact hrun.logins x hx
    · exact ⟨body, by rw [(List.mem_replicate.mp hx).2]; rfl⟩
  · intro x hx
    rcases List.mem_append.mp hx with hx | hx
    · exact hrun.address x hx
    · rw [(List.mem_replicate.mp hx).2]
      exact hip
  · rw [readings_append, List.pairwise_append]
    refine ⟨hrun.clock, ?_, ?_⟩
    · rw [List.pairwise_iff_forall_sublist]
      intro a b hab
      rw [hreadings a (hab.subset (by simp)), hreadings b (hab.subset (by simp))]
    · intro a ha b hb
      rw [hreadings b hb]
      rw [readings_append, List.mem_append] at ha
      rcases ha with ha | ha
      · exact Int.le_trans (hlast.1 a ha) hlast.2
      · simp only [readings, List.flatMap_cons, List.flatMap_nil, List.append_nil, List.mem_cons,
          List.not_mem_nil, or_false] at ha
        rcases ha with rfl | rfl
        · exact hlast.2
        · exact Int.le_refl _
  · intro hbounded
    have h := hbounded t (s.draws.now 1) hlate
    have ht' : t ≤ s.draws.now 1 :=
      Int.le_trans (hlast.1 t (failures_subset steps _ t ht)) hlast.2
    rw [failures_append, failures_append, hworld, hfailures, between_append, between_append] at h
    have hold : 0 < (between t (s.draws.now 1)
        (failures env body.email.val steps (run env before .empty))).length := by
      apply List.length_pos_of_mem
      exact List.mem_filter.mpr ⟨ht, by simpa using ht'⟩
    have hnew : (between t (s.draws.now 1)
        (List.replicate (limit env) (s.draws.now 1))).length = limit env := by
      simp [between, ht']
    simp only [List.length_append] at h
    omega

end

/-! ## The law -/

/-- Over every run of logins from one address: an account against which no
failed attempt is followed by a success within the window meets no more failed
attempts in a window than the limit. Where a success comes sooner, the run has
a continuation in which the account meets more. -/
theorem a_spared_account_is_guarded (env : Env) (hverify : Verifier env) (before : List Step)
    (ip email : String) (steps : List Step) (hrun : LoginRun env ip steps) :
    (Spared env email steps (run env before .empty) →
      Bounded (limit env) (window env) (failures env email steps (run env before .empty))) ∧
    ∀ past s, steps = past ++ [s] → succeeds env s (run env past (run env before .empty)) = true →
      (∃ t ∈ failures env email past (run env before .empty), s.draws.now 1 - t < window env) →
      ∃ more, LoginRun env ip (steps ++ more) ∧ ¬ Bounded (limit env) (window env)
        (failures env email (steps ++ more) (run env before .empty)) := by
  constructor
  · exact fun hspared => (on_record_of_run hverify before hrun hspared).bounded
  · rintro past s rfl hsucceeds ⟨t, ht, hlate⟩
    exact a_success_opens_the_way hverify before hrun hsucceeds ht hlate

/-! ### Two attempts -/

/-- The small environment, with a limit of its own. -/
def limited_to (attempts : Nat) (ge : 1 ≤ attempts) : Env :=
  { Env.sample with
    settings :=
      { Settings.sample with
        rate_limit_login_attempts := attempts
        rate_limit_login_attempts_ge := ge } }

theorem verifier_of_limited (attempts : Nat) (ge : 1 ≤ attempts) :
    Verifier (limited_to attempts ge) where
  made p salt q := by
    simp only [limited_to, Env.sample]
    split <;> simp
  dummy q := by
    simp only [limited_to, Env.sample]
    split <;> simp

def two_attempts : Env := limited_to 2 (by decide)

def eve : EmailStr := ⟨"eve@example.com", by decide, by decide, by decide⟩

def eve_registers : Step where
  call := .register ⟨eve, "paper clip 42", by decide⟩
  request := .sample
  draws := .sample "eve" 2

def eve_logs_in : Step where
  call := .login ⟨eve, "paper clip 42"⟩
  request := .sample
  draws := .sample "eve's" 3

def both_register : List Step := [ann_registers "ann" 1, eve_registers]

/-- Somebody tries a password of Ann. -/
def guess : Step := ann_logs_in "wrong horse" "guess" 4

/-- The same login, when a window has passed. -/
def a_window_later (s : Step) : Step :=
  { s with draws := { s.draws with now := fun _ => 60000000 } }

/-- A guess, and a window later a login of Eve's own account and two more guesses. -/
def spread_out : List Step :=
  [guess, a_window_later eve_logs_in, a_window_later guess, a_window_later guess]

theorem spread_out_is_a_run : LoginRun two_attempts "unknown" spread_out := by
  constructor
  · intro s hs
    simp only [spread_out, List.mem_cons, List.not_mem_nil, or_false] at hs
    rcases hs with hs | hs | hs | hs <;> rw [hs] <;> exact ⟨_, rfl⟩
  · intro s hs
    simp only [spread_out, List.mem_cons, List.not_mem_nil, or_false] at hs
    rcases hs with hs | hs | hs | hs <;> rw [hs] <;> rfl
  · decide

/-- The success of Eve comes late enough: the guess before it is a window old. -/
theorem ann_is_spared :
    succeeds two_attempts (a_window_later eve_logs_in)
        (run two_attempts (both_register ++ [guess]) .empty) = true ∧
      failures two_attempts "ann@example.com" spread_out
        (run two_attempts both_register .empty) = [0, 60000000, 60000000] ∧
      Bounded 2 60000000 (failures two_attempts "ann@example.com" spread_out
        (run two_attempts both_register .empty)) := by
  refine ⟨by decide, by decide, ?_⟩
  refine (a_spared_account_is_guarded two_attempts (verifier_of_limited 2 (by decide)) both_register
    "unknown" "ann@example.com" spread_out spread_out_is_a_run).1 ?_
  have hlate : ∀ n < 4, ∀ s ∈ spread_out[n]?,
      succeeds two_attempts s
        (run two_attempts (spread_out.take n) (run two_attempts both_register .empty)) = true →
      ∀ t ∈ failures two_attempts "ann@example.com" (spread_out.take n)
        (run two_attempts both_register .empty), window two_attempts ≤ s.draws.now 1 - t := by
    decide
  intro past s future h
  have hlength : past.length < 4 := by
    have hfour := congrArg List.length h
    simp only [spread_out, List.length_cons, List.length_nil, List.length_append] at hfour
    omega
  have hpast : spread_out.take past.length = past := by rw [h, List.take_left]
  have hs : s ∈ spread_out[past.length]? := by rw [h]; simp
  rw [← hpast]
  exact hlate past.length hlength s hs

/-- One guess, a login of Eve's own account, and two more guesses. -/
theorem eve_gets_three_guesses :
    ¬ ∀ (before : List Step) (ip : String) (steps : List Step), LoginRun two_attempts ip steps →
      ∀ v ∈ (run two_attempts before .empty).db.users.rows,
        Bounded (limit two_attempts) (window two_attempts)
          (failures two_attempts v.email steps (run two_attempts before .empty)) := by
  intro h
  have hrun : LoginRun two_attempts "unknown" [guess, eve_logs_in, guess, guess] := by
    constructor
    · intro s hs
      simp only [List.mem_cons, List.not_mem_nil, or_false] at hs
      rcases hs with hs | hs | hs | hs <;> rw [hs] <;> exact ⟨_, rfl⟩
    · intro s hs
      simp only [List.mem_cons, List.not_mem_nil, or_false] at hs
      rcases hs with hs | hs | hs | hs <;> rw [hs] <;> rfl
    · decide
  have hfailures : failures two_attempts "ann@example.com" [guess, eve_logs_in, guess, guess]
      (run two_attempts both_register .empty) = [0, 0, 0] := by decide
  have hthree := h both_register "unknown" _ hrun
    (new_user two_attempts ann_registration (.sample "ann" 1)) (by decide) 0 0 (by decide)
  change (between 0 0 (failures two_attempts "ann@example.com" [guess, eve_logs_in, guess, guess]
    (run two_attempts both_register .empty))).length ≤ 2 at hthree
  rw [hfailures] at hthree
  revert hthree
  decide

end shared_todos.login_limits
