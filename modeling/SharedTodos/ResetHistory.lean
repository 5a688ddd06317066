-- The reset tokens and the history of the requests: a token can be used if and
-- only if a request for a reset has handed it out for an account with a
-- password, less than an hour ago, and no reset has used it since. The two
-- handlers that ask whether it can be used agree, and the one that does not use
-- it changes nothing.
import SharedTodos.AccountDeeds
import SharedTodos.Library.EventLog

open keyed_table transactions event_log
open shared_todos.models shared_todos.http shared_todos.http.handler
open shared_todos.sessions shared_todos.auth shared_todos.app shared_todos.accounts

namespace shared_todos.reset_history

variable (env : Env)

/-! ## The history -/

inductive Event where
  /-- A request for a reset, of an account with a password, drew the token. -/
  | generated (token : String) (t₀ : Time)
  /-- A reset with the token succeeded. -/
  | used (token : String)
deriving DecidableEq

/-- What a request and its answer add to the history. -/
def event_of (s : Step) (w : World) (r : Response) : Option Event :=
  match s.call with
  | .password_reset_request body =>
    match r.status_code, users_by_email body.email.val w.db with
    | 200, [user] =>
      user.password_hash.map fun _ => .generated (s.draws.token_urlsafe 0) (s.draws.now 0)
    | _, _ => none
  | .password_reset_complete body => if r.status_code = 200 then some (.used body.token) else none
  | _ => none

def history : List Step → World → List Event
  | [], _ => []
  | s :: steps, w => (event_of s w (s.handle env w).1).toList ++ history steps (s.after env w)

/-- The token was drawn at `t₀`, and no reset has used it since. -/
def Outstanding (log : List Event) (token : String) (t₀ : Time) : Prop :=
  Stands (.generated token t₀) (fun e => e = .used token) log

section
variable {log : List Event} {x y : String} {t₀ t : Time}

theorem outstanding_generated :
    Outstanding (log ++ [.generated y t]) x t₀ ↔ (y = x ∧ t = t₀) ∨ Outstanding log x t₀ := by
  unfold Outstanding
  rw [stands_snoc]
  simp

theorem outstanding_used :
    Outstanding (log ++ [.used y]) x t₀ ↔ Outstanding log x t₀ ∧ y ≠ x := by
  unfold Outstanding
  rw [stands_snoc]
  simp

end

/-! ## The table and the history in step -/

/-- The row of a token that was handed out at `t₀`. -/
def RowOf (x : String) (t₀ : Time) (row : PasswordResetToken) : Prop :=
  row.token_hash = hash_token env x ∧ row.expires_at = t₀ + hours RESET_TTL_HOURS

/-- Every row is of a token that was handed out, and the unused ones are those
of the tokens that are outstanding. -/
structure InStep (log : List Event) (db : DB) : Prop where
  sound : ∀ row ∈ db.password_reset_tokens.rows, ∃ x t₀, RowOf env x t₀ row ∧
    (row.used_at = none → Outstanding log x t₀)
  complete : ∀ x t₀, Outstanding log x t₀ →
    ∃ row ∈ db.password_reset_tokens.rows, RowOf env x t₀ row ∧ row.used_at = none

theorem in_step_empty : InStep env [] .empty where
  sound := by intro row hrow; cases hrow
  complete := by intro x t₀ h; exact absurd h not_stands_nil

section
variable {env} {log : List Event} {db : DB}

theorem InStep.congr (h : InStep env log db) {db' : DB}
    (ht : db'.password_reset_tokens = db.password_reset_tokens) : InStep env log db' where
  sound := by rw [ht]; exact h.sound
  complete := by rw [ht]; exact h.complete

/-- A token is handed out. -/
theorem in_step_generated (h : InStep env log db) {row : PasswordResetToken} {x : String}
    {t₀ : Time} (hfree : db.password_reset_tokens.find row.id = none) (hrow : RowOf env x t₀ row)
    (hunused : row.used_at = none) :
    InStep env (log ++ [.generated x t₀]) (Change.apply (.insert_reset_token row) db) := by
  have hmem := Table.mem_insert_of_free hfree
  constructor
  · intro r hr
    rcases (hmem r).mp hr with hr | rfl
    · obtain ⟨y, t, hy, hout⟩ := h.sound r hr
      exact ⟨y, t, hy, fun hu => outstanding_generated.mpr (Or.inr (hout hu))⟩
    · exact ⟨x, t₀, hrow, fun _ => outstanding_generated.mpr (Or.inl ⟨rfl, rfl⟩)⟩
  · intro y t hout
    rcases outstanding_generated.mp hout with ⟨rfl, rfl⟩ | hout
    · exact ⟨row, (hmem row).mpr (Or.inr rfl), hrow, hunused⟩
    · obtain ⟨r, hr, hy, hu⟩ := h.complete y t hout
      exact ⟨r, (hmem r).mpr (Or.inl hr), hy, hu⟩

/-- A token is used. -/
theorem in_step_used (hhash : ∀ a b, hash_token env a = hash_token env b → a = b) (hv : Valid db)
    (h : InStep env log db) {prt : PasswordResetToken} (hprt : prt ∈ db.password_reset_tokens.rows)
    {x : String} (hx : prt.token_hash = hash_token env x) (now : Time) :
    InStep env (log ++ [.used x]) (Change.apply (.set_used_at prt.id now) db) := by
  have hmem : ∀ r, r ∈ (Change.apply (.set_used_at prt.id now) db).password_reset_tokens.rows ↔
      ∃ r₀ ∈ db.password_reset_tokens.rows, r = if r₀.id = prt.id then
        { r₀ with used_at := some now } else r₀ := by
    intro r
    simp only [Change.apply, Table.mem_update]
  constructor
  · intro r hr
    obtain ⟨r₀, hr₀, rfl⟩ := (hmem r).mp hr
    obtain ⟨y, t, ⟨hyhash, hyexpires⟩, hout⟩ := h.sound r₀ hr₀
    by_cases hid : r₀.id = prt.id
    · rw [if_pos hid]
      exact ⟨y, t, ⟨hyhash, hyexpires⟩, fun hu => by cases hu⟩
    · rw [if_neg hid]
      refine ⟨y, t, ⟨hyhash, hyexpires⟩, fun hu => outstanding_used.mpr ⟨hout hu, ?_⟩⟩
      rintro rfl
      exact hid (congrArg PasswordResetToken.id
        (hv.unique_reset_hash r₀ hr₀ prt hprt (hyhash.trans hx.symm)))
  · intro y t hout
    obtain ⟨hout, hne⟩ := outstanding_used.mp hout
    obtain ⟨r, hr, hy, hu⟩ := h.complete y t hout
    have hid : r.id ≠ prt.id := by
      intro hid
      rw [db.password_reset_tokens.eq_of_key_eq hr hprt hid] at hy
      exact hne (hhash _ _ (hx.symm.trans hy.1))
    exact ⟨r, (hmem r).mpr ⟨r, hr, by rw [if_neg hid]⟩, hy, hu⟩

/-- A request for a reset hands out a token for an account with a password, or it
changes nothing. -/
theorem password_reset_request_cases (env : Env) (body : PasswordResetRequestBody) (d : Draws)
    (c : Nat → Time) (w : World) :
    (∃ user hash row, users_by_email body.email.val w.db = [user] ∧
      user.password_hash = some hash ∧
      row = new_reset_token env user.id (d.token_urlsafe 0) d.row_id (c 0) ∧
      w.db.password_reset_tokens.find row.id = none ∧
      perform (password_reset_request env body d) c w =
        (reset_requested, w.commit [.insert_reset_token row])) ∨
    ∃ r, perform (password_reset_request env body d) c w = (r, w) ∧
      (r.status_code = 200 → ∀ user, users_by_email body.email.val w.db = [user] →
        user.password_hash = none) := by
  rw [password_reset_request_effect]
  rcases hrows : users_by_email body.email.val w.db with _ | ⟨user, _ | ⟨v, rest⟩⟩
  · exact Or.inr ⟨reset_requested, rfl, by simp⟩
  · simp only [one_or_none, proceed_ok, Option.bind_some]
    cases hp : user.password_hash with
    | none =>
      refine Or.inr ⟨reset_requested, rfl, fun _ u hu => ?_⟩
      obtain ⟨rfl, -⟩ := List.cons.inj hu
      exact hp
    | some hash =>
      dsimp only
      cases hi : insert_reset_token
          (new_reset_token env user.id (d.token_urlsafe 0) d.row_id (c 0)) w.db with
      | error e =>
        rw [attempt_error hi]
        exact Or.inr ⟨_, rfl, by simp [Exn.response, json]⟩
      | ok cs =>
        obtain ⟨rfl, hfree, -⟩ := insert_reset_token_ok hi
        rw [attempt_ok hi]
        exact Or.inl ⟨user, hash, _, rfl, hp, rfl, hfree, rfl⟩
  · exact Or.inr ⟨Exn.multiple_results_found.response, rfl, by simp [Exn.response, json]⟩

/-- A request for a reset. -/
theorem in_step_of_reset_request {s : Step} {w : World} (h : InStep env log w.db)
    {body : PasswordResetRequestBody} (call : s.call = .password_reset_request body) :
    InStep env (log ++ (event_of s w (s.handle env w).1).toList) (s.handle env w).2.db := by
  -- Nothing is handed out, and nothing changes.
  have hsame : ∀ r : Response, (r.status_code = 200 → ∀ user,
      users_by_email body.email.val w.db = [user] → user.password_hash = none) →
      InStep env (log ++ (event_of s w r).toList) w.db := by
    intro r hr
    have hnone : event_of s w r = none := by
      unfold event_of
      rw [call]
      dsimp only
      split
      · rename_i user h200 hrows
        rw [hr h200 user hrows]
        rfl
      · rfl
    rw [hnone, Option.toList_none, List.append_nil]
    exact h
  rcases handle_cases env s w with ⟨r, hr, hrefused⟩ | hhandle
  · rw [hr]
    refine hsame r fun h200 => ?_
    rcases hrefused with rfl | ⟨text, rfl⟩
    · simp [Exn.response, json] at h200
    · simp [json] at h200
  rw [hhandle, call]
  change InStep env (log ++ (event_of s w
    (perform (password_reset_request env body s.draws) s.draws.now w).1).toList)
    (perform (password_reset_request env body s.draws) s.draws.now w).2.db
  rcases password_reset_request_cases env body s.draws s.draws.now w with
    ⟨user, hash, row, hrows, hp, hrow, hfree, hperform⟩ | ⟨r, hperform, hr⟩
  · have hevent : event_of s w reset_requested =
        some (.generated (s.draws.token_urlsafe 0) (s.draws.now 0)) := by
      unfold event_of
      rw [call]
      dsimp only
      rw [hrows]
      change Option.map _ user.password_hash = _
      rw [hp]
      rfl
    rw [hperform, hevent]
    exact in_step_generated h hfree (by rw [hrow]; exact ⟨rfl, rfl⟩) (by rw [hrow]; rfl)
  · rw [hperform]
    exact hsame r hr

/-- Every request keeps the tokens and the history in step. -/
theorem in_step_of_step (hhash : ∀ a b, hash_token env a = hash_token env b → a = b) {s : Step}
    {w : World} (hv : Valid w.db) (h : InStep env log w.db) :
    InStep env (log ++ (event_of s w (s.handle env w).1).toList) (s.handle env w).2.db := by
  by_cases hcall : ∃ body, s.call = .password_reset_request body
  · obtain ⟨body, call⟩ := hcall
    exact in_step_of_reset_request h call
  have hd := account_deed_of_step env s w
  revert hd
  generalize (s.handle env w).1 = r, (s.handle env w).2 = w'
  intro hd
  -- A request that does not change the tokens and is no reset.
  have hsame : event_of s w r = none →
      w'.db.password_reset_tokens = w.db.password_reset_tokens →
      InStep env (log ++ (event_of s w r).toList) w'.db := by
    intro hnone ht
    rw [hnone, Option.toList_none, List.append_nil]
    exact h.congr ht
  have hentrance : ∀ {u : UUID} {r' : Response} {w₁ : World}, Entrance env s w u r' w₁ →
      event_of s w r = none ∧ w₁.db.password_reset_tokens = w.db.password_reset_tokens := by
    intro u r' w₁ he
    unfold event_of
    cases he with
    | registered body call => exact ⟨by rw [call], rfl⟩
    | logged_in body user hash call => exact ⟨by rw [call], rfl⟩
    | google_created query who call => exact ⟨by rw [call], rfl⟩
    | google_linked query who user call => exact ⟨by rw [call], rfl⟩
    | google_found query who user call => exact ⟨by rw [call], rfl⟩
  cases hd with
  | idle same quiet =>
    refine hsame ?_ same.password_reset_tokens
    unfold event_of
    unfold Quiet at quiet
    split
    · rename_i body call
      exact absurd ⟨body, call⟩ hcall
    · rename_i body call
      rw [call] at quiet
      exact if_neg quiet
    · rfl
  | entered entrance opened => exact hsame (hentrance entrance).1 (hentrance entrance).2
  | stopped entrance e failed => exact hsame (hentrance entrance).1 (hentrance entrance).2
  | logged_out token call => exact hsame (by unfold event_of; rw [call]) rfl
  | reset_requested body user call => exact absurd ⟨body, call⟩ hcall
  | password_reset body prt user call found user_found =>
    have hevent : event_of s w password_updated = some (.used body.token) := by
      unfold event_of
      rw [call]
      rfl
    have hprt : prt ∈ usable_tokens (hash_token env body.token) (s.draws.now 0) w.db := by
      rw [found]
      simp
    obtain ⟨hprt, hp⟩ := (Table.mem_select _ _ _).mp hprt
    rw [hevent]
    exact (in_step_used hhash hv h hprt (of_decide_eq_true hp).1 (s.draws.now 0)).congr rfl

/-- Over a run the tokens and the history stay in step. -/
theorem in_step_of_run (hhash : ∀ a b, hash_token env a = hash_token env b → a = b)
    (steps : List Step) (log : List Event) (w : World) (hv : Valid w.db)
    (h : InStep env log w.db) :
    InStep env (log ++ history env steps w) (run env steps w).db := by
  induction steps generalizing log w with
  | nil => simpa [history] using h
  | cons s steps ih =>
    change InStep env (log ++ (_ ++ history env steps (s.after env w))) _
    rw [← List.append_assoc]
    exact ih _ (s.after env w) (valid_after env hv s) (in_step_of_step hhash hv h)

/-! ## What the two handlers find -/

/-- The lookup of both handlers gives at most one row. -/
theorem usable_at_most_one (hv : Valid db) (hash : String) (t : Time) :
    ∃ o : Option PasswordResetToken, usable_tokens hash t db = o.toList := by
  by_cases hex : ∃ row ∈ db.password_reset_tokens.rows,
      row.token_hash = hash ∧ t < row.expires_at ∧ row.used_at = none
  · obtain ⟨row, hrow, hp⟩ := hex
    refine ⟨some row, ?_⟩
    apply Table.select_eq_singleton hrow (decide_eq_true hp)
    intro r hr hpr
    exact hv.unique_reset_hash r hr row hrow ((of_decide_eq_true hpr).1.trans hp.1.symm)
  · refine ⟨none, ?_⟩
    unfold usable_tokens
    rw [Option.toList_none, Table.select_eq_nil_iff]
    intro r hr
    simp only [decide_eq_false_iff_not]
    exact fun hp => hex ⟨r, hr, hp⟩

/-- It gives one if and only if the history says so. -/
theorem usable_iff_outstanding (hhash : ∀ a b, hash_token env a = hash_token env b → a = b)
    (h : InStep env log db) (x : String) (t : Time) :
    (∃ prt, prt ∈ usable_tokens (hash_token env x) t db) ↔
      ∃ t₀, Outstanding log x t₀ ∧ t < t₀ + hours RESET_TTL_HOURS := by
  constructor
  · rintro ⟨prt, hprt⟩
    obtain ⟨hprt, hp⟩ := (Table.mem_select _ _ _).mp hprt
    obtain ⟨hx, hlate, hunused⟩ := of_decide_eq_true hp
    obtain ⟨y, t₀, ⟨hy, hexpires⟩, hout⟩ := h.sound prt hprt
    have hyx : y = x := hhash _ _ (hy.symm.trans hx)
    rw [← hyx]
    exact ⟨t₀, hout hunused, hexpires ▸ hlate⟩
  · rintro ⟨t₀, hout, hlate⟩
    obtain ⟨row, hrow, ⟨hx, hexpires⟩, hunused⟩ := h.complete x t₀ hout
    refine ⟨row, (Table.mem_select _ _ _).mpr ⟨hrow, decide_eq_true ⟨hx, ?_, hunused⟩⟩⟩
    rw [hexpires]
    exact hlate

/-- The transaction of a reset is accepted. -/
theorem reset_statement_accepted (prt : PasswordResetToken) (user : User) (now : Time)
    (hash : String) {db : DB} (hu : db.users.find user.id ≠ none)
    (hp : db.password_reset_tokens.find prt.id ≠ none) :
    ∃ cs, reset_statement prt user now hash db = .ok cs := by
  unfold reset_statement Statement.also update_password_hash update_used_at
  have hp : (Prog.applyAll [Change.set_password_hash user.id hash] db).password_reset_tokens.find
      prt.id ≠ none := hp
  rw [if_neg hu]
  simp only [bind, Except.bind, if_neg hp, pure, Except.pure]
  exact ⟨_, rfl⟩

/-- The answer of the handler that validates a token. -/
theorem validate_answer {w : World} {o : Option PasswordResetToken} {x : String} {c : Nat → Time}
    (ho : usable_tokens (hash_token env x) (c 0) w.db = o.toList) :
    (perform (password_reset_validate env x) c w).2 = w ∧
      ((perform (password_reset_validate env x) c w).1.status_code = 200 ↔ o ≠ none) := by
  rw [password_reset_validate_effect, ho]
  cases o with
  | none => exact ⟨rfl, by simp [one_or_none]⟩
  | some prt => exact ⟨rfl, by simp [one_or_none, json]⟩

/-- The answer of a reset. -/
theorem complete_answer {w : World} (hv : Valid w.db) {o : Option PasswordResetToken}
    {body : PasswordResetCompleteBody} {c : Nat → Time} (d : Draws)
    (ho : usable_tokens (hash_token env body.token) (c 0) w.db = o.toList) :
    ((perform (password_reset_complete env body d) c w).1.status_code ≠ 200 →
        (perform (password_reset_complete env body d) c w).2 = w) ∧
      ((perform (password_reset_complete env body d) c w).1.status_code = 200 ↔ o ≠ none) := by
  rw [password_reset_complete_effect, ho]
  cases o with
  | none => exact ⟨fun _ => rfl, by simp [one_or_none]⟩
  | some prt =>
    have hprt : prt ∈ w.db.password_reset_tokens.rows := by
      have hmem : prt ∈ usable_tokens (hash_token env body.token) (c 0) w.db := by rw [ho]; simp
      exact ((Table.mem_select _ _ _).mp hmem).1
    obtain ⟨user, huser⟩ := Option.ne_none_iff_exists'.mp (hv.reset_user prt hprt)
    have hid : user.id = prt.user_id := Table.key_of_find huser
    obtain ⟨cs, hcs⟩ := reset_statement_accepted prt user (c 0)
      (hash_password env body.new_password d.salt) (hid ▸ hv.reset_user prt hprt)
      (by rw [Table.find_of_mem hprt]; simp)
    simp only [Option.toList_some, one_or_none, proceed_ok]
    rw [password_reset_found_effect, huser]
    dsimp only
    rw [password_reset_write_effect, hcs]
    exact ⟨fun h => absurd rfl h, by simp [password_updated, json]⟩

end

/-! ## The law -/

/-- After every run, for every string, time and new password: the token validates
if and only if a reset with it succeeds, and both are so if and only if it was
handed out less than an hour ago for an account with a password and no reset has
used it since. A validation changes nothing, and so does a reset that fails; the
lookup of the token finds at most one row, and that of its account finds it. -/
theorem validate_and_complete_agree (env : Env)
    (hhash : ∀ a b, hash_token env a = hash_token env b → a = b) (past : List Step) (x : String)
    (t : Time) (body : PasswordResetCompleteBody) (hbody : body.token = x) (d : Draws)
    (c : Nat → Time) (hc : c 0 = t) :
    ((perform (password_reset_validate env x) c (run env past .empty)).1.status_code = 200 ↔
      ∃ t₀, Outstanding (history env past .empty) x t₀ ∧ t < t₀ + hours 1) ∧
    ((perform (password_reset_complete env body d) c (run env past .empty)).1.status_code = 200 ↔
      ∃ t₀, Outstanding (history env past .empty) x t₀ ∧ t < t₀ + hours 1) ∧
    (perform (password_reset_validate env x) c (run env past .empty)).2 = run env past .empty ∧
    ((perform (password_reset_complete env body d) c (run env past .empty)).1.status_code ≠ 200 →
      (perform (password_reset_complete env body d) c (run env past .empty)).2 =
        run env past .empty) ∧
    (usable_tokens (hash_token env x) t (run env past .empty).db).length ≤ 1 ∧
    ∀ prt ∈ usable_tokens (hash_token env x) t (run env past .empty).db,
      (run env past .empty).db.users.find prt.user_id ≠ none := by
  subst hbody hc
  have hv := valid_of_reachable env ⟨past, rfl⟩
  have hstep := in_step_of_run hhash past [] .empty valid_empty (in_step_empty env)
  rw [List.nil_append] at hstep
  obtain ⟨o, ho⟩ := usable_at_most_one hv (hash_token env body.token) (c 0)
  have hiff := usable_iff_outstanding hhash hstep body.token (c 0)
  have hsome : (∃ prt, prt ∈ usable_tokens (hash_token env body.token) (c 0)
      (run env past .empty).db) ↔ o ≠ none := by
    rw [ho]
    cases o <;> simp
  obtain ⟨hvalidate, hvalid⟩ := validate_answer ho
  obtain ⟨hcomplete, hcompleted⟩ := complete_answer hv d ho
  refine ⟨hvalid.trans (hsome.symm.trans hiff), hcompleted.trans (hsome.symm.trans hiff), hvalidate,
    hcomplete, ?_, ?_⟩
  · rw [ho]
    cases o <;> simp
  · intro prt hprt
    exact hv.reset_user prt ((Table.mem_select _ _ _).mp hprt).1

/-- Ann registers, and asks for a reset at the time 0. -/
def ann_forgets : List Step :=
  [ann_registers "ann" 1,
    { call := .password_reset_request ⟨ann⟩, request := .sample, draws := .sample "reset" 5 }]

/-- Her token validates in its last second, and not when the hour is over. -/
theorem anns_token_lives_an_hour :
    (perform (password_reset_validate .sample "reset") (fun _ => seconds 3599)
      (run .sample ann_forgets .empty)).1.status_code = 200 ∧
    (perform (password_reset_validate .sample "reset") (fun _ => seconds 3600)
      (run .sample ann_forgets .empty)).1.status_code ≠ 200 := by
  have hlog : history .sample ann_forgets .empty = [.generated "reset" 0] := by decide
  have hlaw := fun t => (validate_and_complete_agree .sample (fun _ _ h => h) ann_forgets "reset" t
    ⟨"reset", "another horse", by decide⟩ rfl (.sample "d" 9) (fun _ => t) rfl).1
  rw [hlog] at hlaw
  constructor
  · exact (hlaw (seconds 3599)).mpr ⟨0, stands_singleton.mpr rfl, by decide⟩
  · intro h
    obtain ⟨t₀, hout, hlate⟩ := (hlaw (seconds 3600)).mp h
    obtain ⟨-, rfl⟩ := Event.generated.inj (stands_singleton.mp hout)
    exact absurd hlate (by decide)

end shared_todos.reset_history
