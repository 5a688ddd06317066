-- Logins from one address side by side. The limiter counts the failures at the
-- check and learns of a failure after the lookup, so logins that are on their
-- way together can pass it together. When each login that passes finds less
-- than the limit on record and on their way, no window sees more verifications
-- than the limit.
import SharedTodos.LoginLimits
import SharedTodos.LoginRaces

open keyed_table transactions sliding_window
open shared_todos.models shared_todos.http shared_todos.http.handler
open shared_todos.sessions shared_todos.rate_limiter shared_todos.auth shared_todos.app
open shared_todos.accounts shared_todos.password_history shared_todos.login_limits
open shared_todos.server shared_todos.login_races

namespace shared_todos.limiter_races

variable (env : Env) {ι : Type}

/-- Logins from one address, after a run of other requests. -/
structure Attempts (ι : Type) where
  before : List Step
  ip : String
  login : ι → LoginRequest
  request : ι → Request
  draws : ι → Draws

def Attempts.world (a : Attempts ι) : World := run env a.before .empty

/-- The logins at their arrival. -/
def attempts (a : Attempts ι) : Server ι :=
  serve (a.world env) fun i => login env (a.login i) (a.request i) (a.draws i)

/-! ## Where a login can be -/

/-- It has yet to check the limit. -/
def checking (t : Running) : Bool := !t.prog.done && !t.prog.reading && t.reads.isEmpty

/-- It has passed the check and has not recorded a failure. -/
def on_its_way (t : Running) : Bool := !t.prog.done && (t.prog.reading || !t.reads.isEmpty)

/-- Its lookup has answered. The section that comes next verifies the password
and records the failure, with no `await` between the two. -/
def verifying (t : Running) : Bool := !t.prog.done && !t.reads.isEmpty

/-- The phases up to a success. The lookup has shown `db` to the login. -/
inductive Phase (body : LoginRequest) (request : Request) (d : Draws) (db : DB) (t : Running) :
    Prop where
  | arrived (prog : t.prog = login env body request d) (pending : t.pending = [])
      (reads : t.reads = [])
  | passed (prog : t.prog = look_up_account env body request d) (pending : t.pending = [])
      (reads : t.reads = [])
  | rejected (prog : t.prog = login_rejected env request) (pending : t.pending = [])
      (reads : t.reads = [db])
  | accepted (user : User) (prog : t.prog = login_accepted env user request d)
      (pending : t.pending = []) (reads : t.reads = [db]) (right : accepts env body db = true)
  | refused (prog : t.prog = .raise (too_many_attempts env)) (pending : t.pending = [])
      (reads : t.reads = [])
  | failed (e : Exn) (prog : t.prog = .raise e) (pending : t.pending = []) (reads : t.reads = [db])

/-- What the log says of a step: whose it was, when, and whether it verified a
password. -/
structure Note (ι : Type) where
  who : ι
  now : Time
  verifies : Bool
deriving DecidableEq

def note (c : Server ι) (i : ι) (now : Time) : Note ι := ⟨i, now, verifying (c.threads i)⟩

/-- When passwords were verified. -/
def verified_at (log : List (Note ι)) : List Time := (log.filter (·.verifies)).map (·.now)

variable [DecidableEq ι] [Fintype ι]

/-- The step opens no account: the password is not the right one. -/
def Unsuccessful (a : Attempts ι) (c : Server ι) (i : ι) : Bool :=
  !verifying (c.threads i) || (c.threads i).reads.all fun db => !accepts env (a.login i) db

/-- A login that checks is refused, or the failures of the window and the logins
on their way are fewer than the limit. -/
def Counted (a : Attempts ι) (c : Server ι) (i : ι) (now : Time) : Bool :=
  !checking (c.threads i) || decide (limit env ≤ (recent env now (c.memory a.ip)).length ∨
    (recent env now (c.memory a.ip)).length + c.count on_its_way < limit env)

/-- In no interval shorter than the window more logins get to a verification than
the limit allows, and the others are answered with a 429. -/
structure Guarded (log : List (Note ι)) (c : Server ι) : Prop where
  bounded : Bounded (limit env) (window env) (verified_at log)
  others : ∀ i r, answer c i = some r →
    (∃ m ∈ log, m.who = i ∧ m.verifies = true) ∨ r = (too_many_attempts env).response

omit [DecidableEq ι] [Fintype ι] in
theorem of_checking {t : Running} (h : checking t = true) :
    verifying t = false ∧ on_its_way t = false := by
  unfold checking verifying on_its_way at *
  cases hd : t.prog.done <;> cases hr : t.prog.reading <;> cases he : t.reads.isEmpty <;> simp_all

/-! ## The steps -/

/-- What a step that opens no account does to the memory and to its login. -/
inductive Move (ip : String) (c c' : Server ι) (i : ι) (now : Time) : Prop where
  | refused (before : checking (c.threads i) = true)
      (full : limit env ≤ (recent env now (c.memory ip)).length) (memory : c'.memory = c.memory)
      (after : on_its_way (c'.threads i) = false) (reads : (c'.threads i).reads = [])
  | passed (before : checking (c.threads i) = true)
      (room : (recent env now (c.memory ip)).length < limit env) (memory : c'.memory = c.memory)
      (after : on_its_way (c'.threads i) = true)
  | looked_up (before : on_its_way (c.threads i) = true) (silent : verifying (c.threads i) = false)
      (memory : c'.memory = c.memory) (after : on_its_way (c'.threads i) = true)
  | verified (before : on_its_way (c.threads i) = true) (verifies : verifying (c.threads i) = true)
      (memory : c'.memory ip = recent env now (c.memory ip) ++ [now])
      (after : on_its_way (c'.threads i) = false)

section
variable {env} {a : Attempts ι} {c c' : Server ι} {i : ι} {now : Time}

/-- The check of the limit. -/
theorem thread_after_check {body : LoginRequest} {request : Request} {d : Draws}
    (hp : (c.threads i).prog = login env body request d) (hs : c.step i now = some c') :
    c'.db = c.db ∧ c'.memory = c.memory ∧ c'.threads i =
      ⟨if Locked env request now c.memory then .raise (too_many_attempts env)
        else look_up_account env body request d, (c.threads i).pending, (c.threads i).reads⟩ := by
  rw [System.step_atomic hp hs]
  refine ⟨rfl, rfl, ?_⟩
  rw [System.put_threads_self]
  dsimp only
  congr 1
  split <;> rfl

/-- Where a login is after a step, and what the step was. -/
abbrev Moved (env : Env) (a : Attempts ι) (c c' : Server ι) (i : ι) (now : Time) : Prop :=
  c'.db = (a.world env).db ∧
    Phase env (a.login i) (a.request i) (a.draws i) (a.world env).db (c'.threads i) ∧
    Move env a.ip c c' i now

theorem move_of_check (hip : client_ip env (a.request i) = a.ip) (hdb : c.db = (a.world env).db)
    (prog : (c.threads i).prog = login env (a.login i) (a.request i) (a.draws i))
    (pending : (c.threads i).pending = []) (reads : (c.threads i).reads = [])
    (hs : c.step i now = some c') : Moved env a c c' i now := by
  have hbefore : checking (c.threads i) = true := by
    unfold checking
    rw [prog, reads]
    rfl
  obtain ⟨hdb', hmemory, hthread⟩ := thread_after_check prog hs
  rw [pending, reads] at hthread
  refine ⟨hdb'.trans hdb, ?_⟩
  by_cases hlimit : Locked env (a.request i) now c.memory
  · rw [if_pos hlimit] at hthread
    refine ⟨?_, .refused hbefore (hip ▸ hlimit) hmemory ?_ ?_⟩
    · rw [hthread]
      exact .refused rfl rfl rfl
    · rw [hthread]
      rfl
    · rw [hthread]
  · rw [if_neg hlimit] at hthread
    refine ⟨?_, .passed hbefore (hip ▸ Nat.not_le.mp hlimit) hmemory ?_⟩
    · rw [hthread]
      exact .passed rfl rfl rfl
    · rw [hthread]
      rfl

/-- The lookup of the account decides whether the password will be right. -/
theorem move_of_lookup (hverify : Verifier env) (hdb : c.db = (a.world env).db)
    (prog : (c.threads i).prog = look_up_account env (a.login i) (a.request i) (a.draws i))
    (pending : (c.threads i).pending = []) (reads : (c.threads i).reads = [])
    (hs : c.step i now = some c') : Moved env a c c' i now := by
  have hc := step_execute prog hs
  rw [System.view_of_nothing_pending pending, hdb, pending, reads] at hc
  have hthread := congrArg (fun c => c.threads i) hc
  simp only [System.put_threads_self] at hthread
  have hway : on_its_way (c.threads i) = true := by
    unfold on_its_way
    rw [prog]
    rfl
  have hsilent : verifying (c.threads i) = false := by
    unfold verifying
    rw [prog, reads]
    rfl
  refine ⟨by rw [hc]; exact hdb, ?_⟩
  rcases found_or_rejected hverify (valid_of_reachable env ⟨a.before, rfl⟩)
    (in_step_after_run env a.before) (a.login i) (a.request i) (a.draws i) with
    ⟨user, hash, hrows, hp, hver, hright⟩ | ⟨-, hrest⟩
  · have haccepted : login_found env (a.login i) (a.request i) (a.draws i) (some user) =
        login_accepted env user (a.request i) (a.draws i) := by
      unfold login_found verify_password
      simp only [Option.bind_some, hp, hver]
      rfl
    have hrows : users_by_email (a.login i).email.val (a.world env).db = [user] := hrows
    rw [hrows] at hthread
    change c'.threads i = ⟨login_found env (a.login i) (a.request i) (a.draws i) (some user), [],
      [(a.world env).db]⟩ at hthread
    rw [haccepted] at hthread
    refine ⟨?_, .looked_up hway hsilent (by rw [hc]; rfl) ?_⟩
    · rw [hthread]
      exact .accepted user rfl rfl rfl hright
    · rw [hthread]
      rfl
  · have hthread : c'.threads i = ⟨login_rejected env (a.request i), [],
        [(a.world env).db]⟩ := by
      rw [hthread, ← hrest]
      rfl
    refine ⟨?_, .looked_up hway hsilent (by rw [hc]; rfl) ?_⟩
    · rw [hthread]
      exact .rejected rfl rfl rfl
    · rw [hthread]
      rfl

/-- A wrong password goes on record. -/
theorem move_of_rejection (hip : client_ip env (a.request i) = a.ip)
    (hdb : c.db = (a.world env).db)
    (prog : (c.threads i).prog = login_rejected env (a.request i))
    (pending : (c.threads i).pending = []) (reads : (c.threads i).reads = [(a.world env).db])
    (hs : c.step i now = some c') : Moved env a c c' i now := by
  have hc := System.step_atomic prog hs
  have hthread := congrArg (fun c => c.threads i) hc
  simp only [System.put_threads_self] at hthread
  have hverifies : verifying (c.threads i) = true := by
    unfold verifying
    rw [prog, reads]
    rfl
  refine ⟨by rw [hc]; exact hdb, ?_, .verified ?_ hverifies ?_ ?_⟩
  · rw [hthread]
    exact .failed _ rfl pending reads
  · unfold on_its_way
    rw [prog, reads]
    rfl
  · rw [hc, ← hip]
    exact Function.update_self ..
  · rw [hthread]
    rfl

/-- A step of a login that opens no account. -/
theorem move_of_step (hverify : Verifier env) (hip : client_ip env (a.request i) = a.ip)
    (hdb : c.db = (a.world env).db)
    (h : Phase env (a.login i) (a.request i) (a.draws i) (a.world env).db (c.threads i))
    (hun : Unsuccessful env a c i = true) (hs : c.step i now = some c') :
    Moved env a c c' i now := by
  cases h with
  | arrived prog pending reads => exact move_of_check hip hdb prog pending reads hs
  | passed prog pending reads => exact move_of_lookup hverify hdb prog pending reads hs
  | rejected prog pending reads => exact move_of_rejection hip hdb prog pending reads hs
  | accepted user prog pending reads right =>
    exfalso
    unfold Unsuccessful verifying at hun
    rw [prog, reads] at hun
    simp only [List.all_cons, right] at hun
    cases hun
  | refused prog pending reads =>
    exact absurd hs (System.not_step_of_done (by rw [prog]; rfl))
  | failed e prog pending reads =>
    exact absurd hs (System.not_step_of_done (by rw [prog]; rfl))

end

/-! ## The invariant -/

/-- The verifications of the window are on record, and with the logins on their
way they are no more than the limit. -/
structure Inv (a : Attempts ι) (log : List (Note ι)) (c : Server ι) : Prop where
  db : c.db = (a.world env).db
  phase : ∀ i, Phase env (a.login i) (a.request i) (a.draws i) (a.world env).db (c.threads i)
  on_record : ∀ now, (∀ m ∈ log, m.now ≤ now) →
    (within (window env) now (verified_at log)).Sublist (recent env now (c.memory a.ip))
  room : ∀ now, (∀ m ∈ log, m.now ≤ now) →
    (within (window env) now (verified_at log)).length + c.count on_its_way ≤ limit env
  bounded : Bounded (limit env) (window env) (verified_at log)
  noted : ∀ i, (c.threads i).prog.done = true → (c.threads i).reads ≠ [] →
    ∃ m ∈ log, m.who = i ∧ m.verifies = true

section
variable {env} {a : Attempts ι} {c c' : Server ι} {i : ι} {now : Time} {log : List (Note ι)}

omit [DecidableEq ι] in
theorem inv_start : Inv env a [] (attempts env a) where
  db := rfl
  phase _ := .arrived rfl rfl rfl
  on_record _ _ := List.nil_sublist _
  room _ _ := by
    have hnone : (attempts env a).count on_its_way = 0 := Finset.sum_eq_zero fun _ _ => rfl
    rw [hnone]
    exact Nat.zero_le _
  bounded := bounded_nil
  noted _ h := by cases h

omit [DecidableEq ι] [Fintype ι] in
theorem verified_at_snoc (m : Note ι) :
    verified_at (log ++ [m]) = verified_at log ++ if m.verifies then [m.now] else [] := by
  unfold verified_at
  rw [List.filter_append, List.map_append]
  congr 1
  cases hv : m.verifies <;> simp [hv]

omit [DecidableEq ι] in
/-- A step that verifies nothing. -/
theorem inv_silent (h : Inv env a log c) (hdb : c'.db = (a.world env).db)
    (hphases : ∀ j, Phase env (a.login j) (a.request j) (a.draws j) (a.world env).db (c'.threads j))
    (hmemory : c'.memory = c.memory) (hsilent : verifying (c.threads i) = false)
    (hroom : ∀ later, (∀ m ∈ log, m.now ≤ later) → now ≤ later →
      (within (window env) later (verified_at log)).length + c'.count on_its_way ≤ limit env)
    (hnoted : ∀ j, (c'.threads j).prog.done = true → (c'.threads j).reads ≠ [] →
      (c.threads j).prog.done = true ∧ (c.threads j).reads ≠ []) :
    Inv env a (log ++ [note c i now]) c' := by
  have hverified : verified_at (log ++ [note c i now]) = verified_at log := by
    rw [verified_at_snoc]
    simp [note, hsilent]
  have hlater : ∀ later, (∀ m ∈ log ++ [note c i now], m.now ≤ later) →
      (∀ m ∈ log, m.now ≤ later) ∧ now ≤ later := by
    intro later hm
    exact ⟨fun m hmem => hm m (List.mem_append_left _ hmem), hm (note c i now) (by simp)⟩
  refine ⟨hdb, hphases, ?_, ?_, ?_, ?_⟩
  · intro later hm
    rw [hverified, hmemory]
    exact h.on_record later (hlater later hm).1
  · intro later hm
    rw [hverified]
    exact hroom later (hlater later hm).1 (hlater later hm).2
  · rw [hverified]
    exact h.bounded
  · intro j hdone hreads
    obtain ⟨m, hm, hwho⟩ := h.noted j (hnoted j hdone hreads).1 (hnoted j hdone hreads).2
    exact ⟨m, List.mem_append_left _ hm, hwho⟩

/-- A step that verifies a password and records the failure. -/
theorem inv_verified (h : Inv env a log c) (hdb : c'.db = (a.world env).db)
    (hphases : ∀ j, Phase env (a.login j) (a.request j) (a.draws j) (a.world env).db (c'.threads j))
    (hmemory : c'.memory a.ip = recent env now (c.memory a.ip) ++ [now])
    (hverifies : verifying (c.threads i) = true)
    (hclock : ∀ m ∈ log, m.now ≤ now) (hcount : c'.count on_its_way + 1 = c.count on_its_way)
    (hothers : ∀ j, j ≠ i → c'.threads j = c.threads j) :
    Inv env a (log ++ [note c i now]) c' := by
  have hverified : verified_at (log ++ [note c i now]) = verified_at log ++ [now] := by
    rw [verified_at_snoc]
    simp [note, hverifies]
  have hlater : ∀ later, (∀ m ∈ log ++ [note c i now], m.now ≤ later) → now ≤ later :=
    fun later hm => hm (note c i now) (by simp)
  refine ⟨hdb, hphases, ?_, ?_, ?_, ?_⟩
  · intro later hm
    rw [hverified, hmemory]
    change List.Sublist _ (within (window env) later
      (within (window env) now (c.memory a.ip) ++ [now]))
    rw [within_append, within_append, within_within (hlater later hm)]
    refine (h.on_record later ?_).append (List.Sublist.refl _)
    exact fun m hmem => hm m (List.mem_append_left _ hmem)
  · intro later hm
    rw [hverified, within_append, List.length_append]
    have hone : (within (window env) later [now]).length ≤ 1 := List.length_filter_le ..
    have hold := h.room later fun m hmem => hm m (List.mem_append_left _ hmem)
    omega
  · rw [hverified]
    have hroom := h.room now hclock
    exact bounded_snoc h.bounded (by omega)
  · intro j hdone hreads
    by_cases hj : j = i
    · exact ⟨note c i now, by simp, hj.symm, hverifies⟩
    · rw [hothers j hj] at hdone hreads
      obtain ⟨m, hm, hwho⟩ := h.noted j hdone hreads
      exact ⟨m, List.mem_append_left _ hm, hwho⟩

theorem inv_step (hverify : Verifier env) (hip : ∀ i, client_ip env (a.request i) = a.ip)
    (h : Inv env a log c) (hun : Unsuccessful env a c i = true) (hok : Counted env a c i now = true)
    (hclock : ∀ m ∈ log, m.now ≤ now) (hs : c.step i now = some c') :
    Inv env a (log ++ [note c i now]) c' := by
  obtain ⟨hdb, hphase, hmove⟩ := move_of_step hverify (hip i) h.db (h.phase i) hun hs
  have hcount := System.count_of_step on_its_way hs
  have hothers : ∀ j, j ≠ i → c'.threads j = c.threads j := fun j hj => System.step_others hs hj
  have hphases : ∀ j, Phase env (a.login j) (a.request j) (a.draws j) (a.world env).db
      (c'.threads j) := by
    intro j
    by_cases hj : j = i
    · rw [hj]
      exact hphase
    · rw [hothers j hj]
      exact h.phase j
  -- A login that is done and has looked up was so before a step that verifies nothing.
  have hnoted : ((c'.threads i).prog.done = true → (c'.threads i).reads ≠ [] → False) →
      ∀ j, (c'.threads j).prog.done = true → (c'.threads j).reads ≠ [] →
        (c.threads j).prog.done = true ∧ (c.threads j).reads ≠ [] := by
    intro hnot j hdone hreads
    by_cases hj : j = i
    · rw [hj] at hdone hreads
      exact absurd hreads (hnot hdone)
    · rw [← hothers j hj]
      exact ⟨hdone, hreads⟩
  have hgoes : on_its_way (c'.threads i) = true → (c'.threads i).prog.done = true →
      (c'.threads i).reads ≠ [] → False := by
    intro hway hdone _
    unfold on_its_way at hway
    rw [hdone] at hway
    cases hway
  cases hmove with
  | refused before full memory after reads =>
    rw [(of_checking before).2, after] at hcount
    refine inv_silent h hdb hphases memory (of_checking before).1 ?_
      (hnoted fun _ hreads => hreads reads)
    intro later hm _
    have := h.room later hm
    simp only [Bool.toNat_false] at hcount
    omega
  | passed before room memory after =>
    rw [(of_checking before).2, after] at hcount
    refine inv_silent h hdb hphases memory (of_checking before).1 ?_ (hnoted (hgoes after))
    intro later hm hnow
    -- The check found room for the login among those on record and those on their way.
    have hroom : (recent env now (c.memory a.ip)).length + c.count on_its_way < limit env := by
      unfold Counted at hok
      rw [before] at hok
      have hok := of_decide_eq_true hok
      omega
    have hkept := (h.on_record now hclock).length_le
    have hless := (within_sublist_of_le (window env) (verified_at log) hnow).length_le
    simp only [Bool.toNat_false, Bool.toNat_true] at hcount
    omega
  | looked_up before silent memory after =>
    rw [before, after] at hcount
    refine inv_silent h hdb hphases memory silent ?_ (hnoted (hgoes after))
    intro later hm _
    have := h.room later hm
    simp only [Bool.toNat_true] at hcount
    omega
  | verified before verifies memory after =>
    rw [before, after] at hcount
    simp only [Bool.toNat_false, Bool.toNat_true] at hcount
    exact inv_verified h hdb hphases memory verifies hclock (by omega) hothers

theorem inv_logged (hverify : Verifier env) (hip : ∀ i, client_ip env (a.request i) = a.ip)
    (h : System.Logged (fun c i now => (Unsuccessful env a c i && Counted env a c i now) = true) note
      (attempts env a) log c) (hclock : (log.map (·.now)).Pairwise (· ≤ ·)) : Inv env a log c := by
  induction h with
  | start => exact inv_start
  | step i now before meets takes ih =>
    rw [List.map_append, List.pairwise_append] at hclock
    rw [Bool.and_eq_true] at meets
    refine inv_step hverify hip (ih hclock.1) meets.1 meets.2 (fun m hm => ?_) takes
    exact hclock.2.2 _ (List.mem_map_of_mem hm) now (by simp [note])

omit [DecidableEq ι] in
theorem guarded_of_inv (h : Inv env a log c) : Guarded env log c := by
  refine ⟨h.bounded, ?_⟩
  intro i r hr
  cases h.phase i with
  | failed e prog pending reads =>
    exact Or.inl (h.noted i (by rw [prog]; rfl) (by rw [reads]; simp))
  | refused prog pending reads =>
    rw [answer_raise prog] at hr
    exact Or.inr (Option.some.inj hr).symm
  | arrived prog _ _ => rw [answer_of_not_done (by rw [prog]; rfl)] at hr; cases hr
  | passed prog _ _ => rw [answer_of_not_done (by rw [prog]; rfl)] at hr; cases hr
  | rejected prog _ _ => rw [answer_of_not_done (by rw [prog]; rfl)] at hr; cases hr
  | accepted user prog _ _ _ => rw [answer_of_not_done (by rw [prog]; rfl)] at hr; cases hr

end

/-! ## The law -/

/-- In every run of logins from one address in which none succeeds: if each
login that passes the check finds fewer failures on record and logins on their
way than the limit, the limiter guards every window. -/
theorem a_counted_limit_holds (env : Env) (hverify : Verifier env) (a : Attempts ι)
    (hip : ∀ i, client_ip env (a.request i) = a.ip) (log : List (Note ι)) (c : Server ι)
    (h : System.Logged (fun c i now => (Unsuccessful env a c i && Counted env a c i now) = true) note
      (attempts env a) log c) (hclock : (log.map (·.now)).Pairwise (· ≤ ·)) : Guarded env log c :=
  guarded_of_inv (inv_logged hverify hip h hclock)

/-! ### Two guesses -/

def one_attempt : Env := limited_to 1 (by decide)

def two_guesses : Attempts Bool where
  before := [ann_registers "ann" 1]
  ip := "unknown"
  login _ := ⟨ann, "wrong horse"⟩
  request _ := .sample
  draws _ := .sample "guess" 2

/-- The second guess comes after the first one, and is refused. -/
theorem the_second_guess_is_refused :
    ∃ log c, System.record (fun c i now =>
          Unsuccessful one_attempt two_guesses c i && Counted one_attempt two_guesses c i now)
        note [] (attempts one_attempt two_guesses)
        ([false, false, false, true].map fun i => (i, 0)) = some (log, c) ∧
      status c false = some 401 ∧ status c true = some 429 ∧ Guarded one_attempt log c := by
  have hrun : (System.record (fun c i now =>
        Unsuccessful one_attempt two_guesses c i && Counted one_attempt two_guesses c i now)
      note [] (attempts one_attempt two_guesses)
      ([false, false, false, true].map fun i => (i, 0))).map
        (fun p => (p.1.map (·.now), status p.2 false, status p.2 true)) =
      some ([0, 0, 0, 0], some 401, some 429) := by decide
  obtain ⟨⟨log, c⟩, hc, hseen⟩ := Option.map_eq_some_iff.mp hrun
  obtain ⟨htimes, hseen⟩ := Prod.mk.inj hseen
  obtain ⟨hfirst, hsecond⟩ := Prod.mk.inj hseen
  refine ⟨log, c, hc, hfirst, hsecond, ?_⟩
  refine a_counted_limit_holds one_attempt (verifier_of_limited 1 (by decide)) two_guesses
    (fun _ => rfl) log c (System.logged_of_record .start hc) ?_
  dsimp only at htimes
  rw [htimes]
  decide

/-- Both guesses check the limit before one of them records its failure. -/
theorem two_guesses_pass_a_limit_of_one :
    ¬ ∀ log c, System.Logged (fun c i _ => Unsuccessful one_attempt two_guesses c i = true) note
        (attempts one_attempt two_guesses) log c →
      (log.map (·.now)).Pairwise (· ≤ ·) → Guarded one_attempt log c := by
  have hrun : (System.record (fun c i _ => Unsuccessful one_attempt two_guesses c i) note []
      (attempts one_attempt two_guesses)
      ([false, true, false, false, true, true].map fun i => (i, 0))).map
        (fun p => (p.1.map (·.now), verified_at p.1)) = some ([0, 0, 0, 0, 0, 0], [0, 0]) := by
    decide
  obtain ⟨⟨log, c⟩, hc, hseen⟩ := Option.map_eq_some_iff.mp hrun
  obtain ⟨htimes, hverified⟩ := Prod.mk.inj hseen
  dsimp only at htimes hverified
  intro h
  have hguarded := h log c (System.logged_of_record .start hc) (by rw [htimes]; decide)
  have htwo := hguarded.bounded 0 0 (by decide)
  rw [hverified] at htwo
  revert htwo
  decide

end shared_todos.limiter_races
