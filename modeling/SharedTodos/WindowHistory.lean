-- The limiter against the full history. The store of the limiter drops what has
-- left the window and what a successful login has settled; over every run of
-- logins it decides as if it had kept every failure.
import SharedTodos.LoginLimits

open keyed_table transactions sliding_window
open shared_todos.models shared_todos.http shared_todos.http.handler
open shared_todos.sessions shared_todos.rate_limiter shared_todos.auth shared_todos.app
open shared_todos.accounts shared_todos.password_history shared_todos.login_limits

namespace shared_todos.window_history

variable (env : Env)

/-! ## What a login comes to -/

/-- The check against the dummy hash, which never accepts. -/
def dummy_verdict (password : String) : Verified :=
  match env.ph_verify env.dummy_hash password with
  | .error => .error
  | _ => .mismatch

/-- What the lookup of the account and the check of the password come to. -/
def verdict (body : LoginRequest) (db : DB) : Verified :=
  match users_by_email body.email.val db with
  | [] => dummy_verdict env body.password
  | [user] =>
    match user.password_hash with
    | some hash => env.ph_verify hash body.password
    | none => dummy_verdict env body.password
  | _ => .error

/-- What the limiter and the check make of a login. An error of the check is told to
nobody; a success is told before the session row, which may still be refused. -/
inductive Judged (s : Step) (body : LoginRequest) (w : World) (r : Response) (w' : World) :
    Prop where
  | refused (locked : Locked env s.request (s.draws.now 0) w.store)
      (answer : r = (too_many_attempts env).response) (world : w' = w)
  | rejected (unlocked : ¬ Locked env s.request (s.draws.now 0) w.store)
      (wrong : verdict env body w.db = .mismatch) (answer : r.status_code = 401)
      (world : w' = World.failed_login env s.request w (s.draws.now 1))
  | broken (unlocked : ¬ Locked env s.request (s.draws.now 0) w.store)
      (error : verdict env body w.db = .error) (answer : r.status_code = 500) (world : w' = w)
  | accepted (unlocked : ¬ Locked env s.request (s.draws.now 0) w.store)
      (right : verdict env body w.db = .verified) (answer : r.status_code = 200 ∨ r.status_code = 500)
      (store : w'.store = Function.update w.store (client_ip env s.request) [])
      (users : w'.db.users = w.db.users)

section
variable {env} {s : Step} {body : LoginRequest} {w : World}

/-- A login that is verified against the dummy hash. -/
theorem judged_dummy (unlocked : ¬ Locked env s.request (s.draws.now 0) w.store)
    (hv : verdict env body w.db = dummy_verdict env body.password) {user : Option User}
    (hnone : user.bind User.password_hash = none) :
    Judged env s body w
      (perform (login_found env body s.request s.draws user) (fun n => s.draws.now (n + 1)) w).1
      (perform (login_found env body s.request s.draws user) (fun n => s.draws.now (n + 1)) w).2 := by
  have heffect := login_found_effect env s.request s.draws (fun n => s.draws.now (n + 1)) w body user
  have hdummy : perform (login_found env body s.request s.draws user) (fun n => s.draws.now (n + 1)) w
      = match env.ph_verify env.dummy_hash body.password with
        | .error => (Exn.library.response, w)
        | _ => perform (login_rejected env s.request) (fun n => s.draws.now (n + 1)) w := by
    rw [heffect]
    split
    · rename_i hash hsome
      rw [hnone] at hsome
      cases hsome
    · rfl
  unfold dummy_verdict at hv
  rw [hdummy]
  cases hd : env.ph_verify env.dummy_hash body.password with
  | error =>
    rw [hd] at hv
    exact .broken unlocked hv rfl rfl
  | verified =>
    rw [hd] at hv
    exact .rejected unlocked hv rfl rfl
  | mismatch =>
    rw [hd] at hv
    exact .rejected unlocked hv rfl rfl

theorem judged_of_login (call : s.call = .login body) (w : World) :
    Judged env s body w (s.handle env w).1 (s.handle env w).2 := by
  rw [login_is_handled env call, login_effect]
  by_cases hl : Locked env s.request (s.draws.now 0) w.store
  · rw [if_pos hl]
    exact .refused hl rfl rfl
  rw [if_neg hl]
  rcases hrows : users_by_email body.email.val w.db with _ | ⟨user, _ | ⟨other, rest⟩⟩
  · exact judged_dummy hl (by unfold verdict; rw [hrows]) (by simp)
  · cases hp : user.password_hash with
    | none => exact judged_dummy hl (by unfold verdict; rw [hrows]; simp [hp]) (by simp [hp])
    | some hash =>
      have hv : verdict env body w.db = env.ph_verify hash body.password := by
        unfold verdict
        rw [hrows]
        simp [hp]
      change Judged env s body w (perform (login_found env body s.request s.draws (some user)) _ w).1
        (perform (login_found env body s.request s.draws (some user)) _ w).2
      rw [login_found_effect]
      simp only [Option.bind_some, hp]
      cases hver : env.ph_verify hash body.password with
      | error => exact .broken hl (hv.trans hver) rfl rfl
      | mismatch => exact .rejected hl (hv.trans hver) rfl rfl
      | verified =>
        dsimp only
        rw [login_accepted_effect]
        cases hs : insert_session (new_session env user.id (s.draws.token_urlsafe 0)
            s.draws.session_id (s.draws.now (1 + 1))) (World.reset_logins env s.request w).db with
        | error e =>
          rw [attempt_error hs]
          exact .accepted hl (hv.trans hver) (Or.inr rfl) rfl rfl
        | ok cs =>
          obtain ⟨rfl, -⟩ := insert_session_ok hs
          rw [attempt_ok hs]
          exact .accepted hl (hv.trans hver) (Or.inl rfl) rfl rfl
  · exact .broken hl (by unfold verdict; rw [hrows]) rfl rfl

end

/-! ## The full history -/

/-- A login that counts for its address. -/
inductive LoginEvent where
  | failed (at_time : Time)
  | succeeded
deriving DecidableEq

/-- A login of the address fails, or its password is accepted. -/
def events_of (ip : String) (s : Step) (w : World) : List LoginEvent :=
  match s.call with
  | .login body =>
    if client_ip env s.request ≠ ip then []
    else if (s.handle env w).1.status_code = 401 then [.failed (s.draws.now 1)]
    else if ¬ Locked env s.request (s.draws.now 0) w.store ∧ verdict env body w.db = .verified then
      [.succeeded]
    else []
  | _ => []

/-- All logins of the address that count, of all times. -/
def history (ip : String) : List Step → World → List LoginEvent
  | [], _ => []
  | s :: steps, w => events_of env ip s w ++ history ip steps (s.after env w)

/-- The failures after the last success. -/
def since_success (log : List LoginEvent) : List Time :=
  log.foldl (fun fs e =>
    match e with
    | .failed t => fs ++ [t]
    | .succeeded => []) []

@[simp] theorem since_success_nil : since_success [] = [] := rfl

@[simp] theorem since_success_failed (log : List LoginEvent) (t : Time) :
    since_success (log ++ [.failed t]) = since_success log ++ [t] := by
  simp [since_success]

@[simp] theorem since_success_succeeded (log : List LoginEvent) :
    since_success (log ++ [.succeeded]) = [] := by
  simp [since_success]

/-- Without a failure there is nothing more. -/
theorem since_success_quiet (log : List LoginEvent) {more : List LoginEvent}
    (h : ∀ t, .failed t ∉ more) : (since_success (log ++ more)).Sublist (since_success log) := by
  induction more using List.reverseRecOn with
  | nil => rw [List.append_nil]
  | append_singleton more e ih =>
    rw [← List.append_assoc]
    cases e with
    | failed t => exact absurd (by simp) (h t)
    | succeeded =>
      rw [since_success_succeeded]
      exact List.nil_sublist _

/-- Logins, by a clock that does not go back. -/
structure Sequential (steps : List Step) : Prop where
  logins : ∀ s ∈ steps, ∃ body, s.call = .login body
  clock : (readings steps).Pairwise (· ≤ ·)

section
variable {env} {ip : String} {steps more : List Step} {s : Step} {w : World} {body : LoginRequest}

theorem Sequential.past (h : Sequential (steps ++ more)) : Sequential steps where
  logins s hs := h.logins s (List.mem_append_left _ hs)
  clock := by
    have hclock := h.clock
    rw [readings_append] at hclock
    exact (List.pairwise_append.mp hclock).1

theorem Sequential.last (h : Sequential (steps ++ [s])) :
    (∀ t ∈ readings steps, t ≤ s.draws.now 0) ∧ s.draws.now 0 ≤ s.draws.now 1 := by
  have hclock := h.clock
  rw [readings_append, List.pairwise_append] at hclock
  obtain ⟨-, hlast, hpast⟩ := hclock
  exact ⟨fun t ht => hpast t ht _ (by simp [readings]), by simpa [readings] using hlast⟩

theorem history_append (a b : List Step) (w : World) :
    history env ip (a ++ b) w = history env ip a w ++ history env ip b (run env a w) := by
  induction a generalizing w with
  | nil => rfl
  | cons s a ih =>
    simp only [List.cons_append, history, ih, List.append_assoc]
    rfl

theorem events_of_other (hip : client_ip env s.request ≠ ip) : events_of env ip s w = [] := by
  unfold events_of
  split
  · rw [if_pos hip]
  · rfl

/-- What a login adds to the history of its address. -/
theorem events_of_login (call : s.call = .login body) :
    events_of env (client_ip env s.request) s w =
      if (s.handle env w).1.status_code = 401 then [.failed (s.draws.now 1)]
      else if ¬ Locked env s.request (s.draws.now 0) w.store ∧ verdict env body w.db = .verified then
        [.succeeded]
      else [] := by
  unfold events_of
  rw [call]
  exact if_neg (not_not.mpr rfl)

end

/-! ## The store against the history -/

/-- From now on the store shows the failures of the window that the full history
shows, and it holds no more than the limit. -/
structure Remembers (ip : String) (clock : List Time) (log : List LoginEvent) (store : RateStore) :
    Prop where
  same : ∀ now, (∀ t ∈ clock, t ≤ now) →
    recent env now (store ip) = within (window env) now (since_success log)
  bounded : (store ip).length ≤ limit env

section
variable {env} {ip : String} {past steps : List Step} {s : Step} {w : World} {body : LoginRequest}
  {clock : List Time} {log : List LoginEvent} {store : RateStore}

theorem remembers_nothing (ip : String) : Remembers env ip [] [] fun _ => [] where
  same _ _ := rfl
  bounded := Nat.zero_le _

/-- Later readings of the clock change nothing. -/
theorem Remembers.later (h : Remembers env ip clock log store) {more : List Time}
    {store' : RateStore} (hsame : store' ip = store ip) :
    Remembers env ip (clock ++ more) log store' where
  same now hnow := by
    rw [hsame]
    exact h.same now fun t ht => hnow t (List.mem_append_left _ ht)
  bounded := by rw [hsame]; exact h.bounded

/-- A failure is written down beside what is left of the window. -/
theorem Remembers.failed (h : Remembers env ip (readings past) log store)
    (hstep : s.draws.now 0 ≤ s.draws.now 1) (hroom : (recent env (s.draws.now 0) (store ip)).length < limit env) :
    Remembers env ip (readings (past ++ [s])) (log ++ [.failed (s.draws.now 1)])
      (Function.update store ip (recent env (s.draws.now 1) (store ip) ++ [s.draws.now 1])) where
  same now hnow := by
    rw [readings_append] at hnow
    have hpast := h.same now fun t ht => hnow t (List.mem_append_left _ ht)
    have hle : s.draws.now 1 ≤ now := hnow _ (List.mem_append_right _ (by simp [readings]))
    rw [Function.update_self, since_success_failed, within_append, ← hpast]
    -- what was evicted at the record is out of the window at `now`
    change within (window env) now (within (window env) (s.draws.now 1) (store ip) ++ [s.draws.now 1])
      = within (window env) now (store ip) ++ _
    rw [within_append, within_within hle]
  bounded := by
    have hkept := (within_sublist_of_le (window env) (store ip) hstep).length_le
    rw [Function.update_self, List.length_append]
    change (within (window env) (s.draws.now 1) (store ip)).length + 1 ≤ limit env
    change (within (window env) (s.draws.now 0) (store ip)).length < limit env at hroom
    omega

/-- A success forgets everything. -/
theorem Remembers.succeeded (ip : String) (clock : List Time) (log : List LoginEvent)
    (store : RateStore) :
    Remembers env ip clock (log ++ [.succeeded]) (Function.update store ip []) where
  same now _ := by rw [Function.update_self, since_success_succeeded]; rfl
  bounded := by rw [Function.update_self]; exact Nat.zero_le _

/-- A login of another address leaves the entry of this one alone. -/
theorem store_of_other (hip : client_ip env s.request ≠ ip) (call : s.call = .login body) :
    (s.after env w).store ip = w.store ip := by
  unfold Step.after
  rcases judged_of_login call w with
    ⟨-, -, hw⟩ | ⟨-, -, -, hw⟩ | ⟨-, -, -, hw⟩ | ⟨-, -, -, hstore, -⟩
  · rw [hw]
  · rw [hw]
    exact Function.update_of_ne (Ne.symm hip) ..
  · rw [hw]
  · rw [hstore]
    exact Function.update_of_ne (Ne.symm hip) ..

/-- One login more. -/
theorem remembers_of_login (hrun : Sequential (past ++ [s]))
    (h : Remembers env ip (readings past) log w.store) :
    Remembers env ip (readings (past ++ [s])) (log ++ events_of env ip s w) (s.after env w).store := by
  obtain ⟨body, call⟩ := hrun.logins s (by simp)
  have hstep := hrun.last.2
  by_cases hip : client_ip env s.request = ip
  swap
  · rw [events_of_other hip, List.append_nil, readings_append]
    exact h.later (store_of_other hip call)
  subst hip
  rw [events_of_login call]
  unfold Step.after
  rcases judged_of_login call w with
    ⟨hlocked, answer, hw⟩ | ⟨hopen, hwrong, answer, hw⟩ | ⟨hopen, herror, answer, hw⟩ |
    ⟨hopen, hright, answer, hstore, -⟩
  · have hne : (s.handle env w).1.status_code ≠ 401 := by
      rw [answer]
      simp [too_many_attempts, Exn.response]
    rw [if_neg hne, if_neg (fun hn => hn.1 hlocked), List.append_nil, readings_append]
    exact h.later (by rw [hw])
  · rw [if_pos answer, hw]
    exact h.failed hstep (Nat.not_le.mp hopen)
  · have hno : ¬ (¬ Locked env s.request (s.draws.now 0) w.store ∧
        verdict env body w.db = .verified) := by simp [herror]
    rw [if_neg (by omega), if_neg hno, List.append_nil, readings_append]
    exact h.later (by rw [hw])
  · rw [if_neg (by omega), if_pos ⟨hopen, hright⟩, hstore]
    exact Remembers.succeeded ..

/-- The store is exact after every run of logins from an empty store. -/
theorem remembers_of_run (ip : String) (hstart : w.store = fun _ => []) (hrun : Sequential steps) :
    Remembers env ip (readings steps) (history env ip steps w) (run env steps w).store := by
  induction steps using List.reverseRecOn with
  | nil =>
    rw [run_nil, hstart]
    exact remembers_nothing ip
  | append_singleton past s ih =>
    rw [history_append, run_append]
    simp only [history, List.append_nil]
    exact remembers_of_login hrun (ih hrun.past)

/-! ## The logins of other addresses -/

theorem users_after_login (call : s.call = .login body) : (s.after env w).db.users = w.db.users := by
  unfold Step.after
  rcases judged_of_login call w with
    ⟨-, -, hw⟩ | ⟨-, -, -, hw⟩ | ⟨-, -, -, hw⟩ | ⟨-, -, -, -, husers⟩
  · rw [hw]
  · rw [hw]
    rfl
  · rw [hw]
  · exact husers

/-- What a login makes of the entry of its address, by the entry and the verdict. -/
theorem entry_after_login (call : s.call = .login body) :
    (s.after env w).store (client_ip env s.request) =
      if Locked env s.request (s.draws.now 0) w.store then w.store (client_ip env s.request)
      else
        match verdict env body w.db with
        | .mismatch =>
          recent env (s.draws.now 1) (w.store (client_ip env s.request)) ++ [s.draws.now 1]
        | .error => w.store (client_ip env s.request)
        | .verified => [] := by
  unfold Step.after
  rcases judged_of_login call w with
    ⟨hlocked, -, hw⟩ | ⟨hopen, hwrong, -, hw⟩ | ⟨hopen, herror, -, hw⟩ |
    ⟨hopen, hright, -, hstore, -⟩
  · rw [hw, if_pos hlocked]
  · rw [hw, if_neg hopen, hwrong]
    exact Function.update_self ..
  · rw [hw, if_neg hopen, herror]
  · rw [hstore, if_neg hopen, hright]
    exact Function.update_self ..

/-- Two states with the same users and the same entry of the address. -/
structure Agree (ip : String) (w w' : World) : Prop where
  entry : w.store ip = w'.store ip
  users : w.db.users = w'.db.users

theorem agree_of_login {w' : World} (call : s.call = .login body)
    (h : Agree (client_ip env s.request) w w') :
    Agree (client_ip env s.request) (s.after env w) (s.after env w') where
  entry := by
    have hverdict : verdict env body w.db = verdict env body w'.db := by
      unfold verdict users_by_email
      rw [h.users]
    rw [entry_after_login call, entry_after_login call, hverdict]
    simp only [Locked, h.entry]
  users := by rw [users_after_login call, users_after_login call, h.users]

/-- The entry of an address, with the logins of the other addresses and without. -/
theorem agree_of_run {w' : World} (hlogins : ∀ s ∈ steps, ∃ body, s.call = .login body)
    (h : Agree ip w w') :
    Agree ip (run env steps w)
      (run env (steps.filter fun s => decide (client_ip env s.request = ip)) w') := by
  induction steps generalizing w w' with
  | nil => exact h
  | cons s steps ih =>
    obtain ⟨body, call⟩ := hlogins s (by simp)
    have hrest : ∀ s ∈ steps, ∃ body, s.call = .login body :=
      fun s hs => hlogins s (List.mem_cons_of_mem _ hs)
    by_cases hip : client_ip env s.request = ip
    · rw [List.filter_cons_of_pos (by simpa using hip)]
      refine ih hrest ?_
      subst hip
      exact agree_of_login call h
    · rw [List.filter_cons_of_neg (by simpa using hip)]
      exact ih hrest ⟨(store_of_other hip call).trans h.entry, (users_after_login call).trans h.users⟩

/-! ## The decisions -/

/-- The check refuses a request at a time. -/
def Rejects (env : Env) (request : Request) (now : Time) (w : World) : Prop :=
  ((check_login_rate_limit env request).run ⟨fun _ => now, w.db, [], w.store⟩).1 =
    .error (too_many_attempts env)

theorem rejects_iff {request : Request} {now : Time} :
    Rejects env request now w ↔ Locked env request now w.store := by
  unfold Rejects
  rw [check_login_rate_limit_run]
  split
  · simp_all
  · simp_all

/-- Every failure of the history was at a reading of the clock. -/
theorem since_success_subset (steps : List Step) (w : World) :
    ∀ t ∈ since_success (history env ip steps w), t ∈ readings steps := by
  induction steps using List.reverseRecOn with
  | nil => intro t ht; cases ht
  | append_singleton past s ih =>
    intro t ht
    rw [history_append] at ht
    simp only [history, List.append_nil] at ht
    rw [readings_append, List.mem_append]
    have hlast : events_of env ip s (run env past w) = [] ∨
        events_of env ip s (run env past w) = [.failed (s.draws.now 1)] ∨
        events_of env ip s (run env past w) = [.succeeded] := by
      unfold events_of
      split
      · split_ifs <;> simp
      · simp
    rcases hlast with h | h | h <;> rw [h] at ht
    · rw [List.append_nil] at ht
      exact Or.inl (ih t ht)
    · rw [since_success_failed] at ht
      rcases List.mem_append.mp ht with ht | ht
      · exact Or.inl (ih t ht)
      · refine Or.inr ?_
        simp only [List.mem_singleton] at ht
        simp [readings, ht]
    · simp at ht

/-- A login that is answered with a 429 leaves everything as it was. -/
theorem unchanged_of_429 (call : s.call = .login body)
    (h : (s.handle env w).1.status_code = 429) : s.after env w = w := by
  unfold Step.after
  rcases judged_of_login call w with
    ⟨-, -, hw⟩ | ⟨-, -, answer, -⟩ | ⟨-, -, answer, -⟩ | ⟨-, -, answer, -, -⟩
  · exact hw
  · omega
  · omega
  · omega

end

/-! ## The law -/

/-- The limiter is as good as one that keeps the full history. -/
structure ExactLimiter (env : Env) (steps : List Step) (w : World) : Prop where
  /-- It refuses at a time exactly when the limit is met by the failures of the window
  since the last success, counted over the full history. -/
  exact_count : ∀ request now, (∀ t ∈ readings steps, t ≤ now) →
    (Rejects env request now (run env steps w) ↔ limit env ≤ (within (window env) now
      (since_success (history env (client_ip env request) steps w))).length)
  /-- A request that is answered with a 429 changes nothing. -/
  unextended : ∀ past s future, steps = past ++ s :: future →
    (s.handle env (run env past w)).1.status_code = 429 →
    s.after env (run env past w) = run env past w
  /-- One window after any time, a lockout is over if nothing failed in between. -/
  expires : ∀ past more request t now, steps = past ++ more → (∀ r ∈ readings past, r ≤ t) →
    (∀ r ∈ readings steps, r ≤ now) → t + window env ≤ now →
    (∀ f, .failed f ∉ history env (client_ip env request) more (run env past w)) →
    ¬ Rejects env request now (run env steps w)
  /-- The entry of an address is what its own logins make of it. -/
  others : ∀ ip, (run env steps w).store ip =
    (run env (steps.filter fun s => decide (client_ip env s.request = ip)) w).store ip
  bounded : ∀ ip, ((run env steps w).store ip).length ≤ limit env

/-- Over every run of logins from an empty store, in whatever state of the database,
the limiter decides by the full history. -/
theorem limiter_is_exact (env : Env) (w : World) (hstart : w.store = fun _ => [])
    (steps : List Step) (hrun : Sequential steps) : ExactLimiter env steps w where
  exact_count request now hnow := by
    rw [rejects_iff, ← (remembers_of_run (client_ip env request) hstart hrun).same now hnow]
  unextended := by
    rintro past s future rfl h429
    obtain ⟨body, call⟩ := hrun.logins s (by simp)
    exact unchanged_of_429 call h429
  expires := by
    rintro past more request t now rfl hpast hnow hlate hquiet
    rw [rejects_iff]
    intro hlocked
    have hkept : recent env now ((run env (past ++ more) w).store (client_ip env request)) = _ :=
      (remembers_of_run (client_ip env request) hstart hrun).same now hnow
    have hgone : within (window env) now
        (since_success (history env (client_ip env request) (past ++ more) w)) = [] := by
      rw [history_append]
      refine within_eq_nil fun f hf => ?_
      have hf' := since_success_subset past w f ((since_success_quiet _ hquiet).subset hf)
      have hle := hpast f hf'
      simp only [Time] at *
      omega
    have hpos := env.settings.rate_limit_login_attempts_ge
    unfold Locked at hlocked
    rw [hkept, hgone] at hlocked
    simp only [List.length_nil] at hlocked
    omega
  others ip := (agree_of_run hrun.logins ⟨rfl, rfl⟩).entry
  bounded ip := (remembers_of_run ip hstart hrun).bounded

/-! ### Two attempts -/

/-- After two guesses of her password Ann's address is refused, and a window later
it is not. -/
theorem two_guesses_lock_for_a_window :
    Rejects two_attempts .sample 0
        (run two_attempts [guess, guess] (run two_attempts both_register .empty)) ∧
      ¬ Rejects two_attempts .sample 60000000
        (run two_attempts [guess, guess] (run two_attempts both_register .empty)) := by
  have hstart : (run two_attempts both_register .empty).store = fun _ => [] := rfl
  have hlogins : ∀ s ∈ [guess, guess], ∃ body, s.call = .login body := by
    intro s hs
    simp only [List.mem_cons, List.not_mem_nil, or_false, or_self] at hs
    rw [hs]
    exact ⟨_, rfl⟩
  have hexact := limiter_is_exact two_attempts (run two_attempts both_register .empty) hstart
    [guess, guess] ⟨hlogins, by decide⟩
  exact ⟨(hexact.exact_count .sample 0 (by decide)).mpr (by decide),
    hexact.expires [guess, guess] [] .sample 0 60000000 rfl (by decide) (by decide) (by decide)
      (by simp [history])⟩

end shared_todos.window_history
