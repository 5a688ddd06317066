-- Who writes what, and who is shown what, while all requests of the application run side
-- by side: each change of a list needs a role, each change of an account needs a proof
-- of who asks for it, and each row that is answered was open to the one who asked.
import SharedTodos.Interleavings

open keyed_table transactions
open shared_todos.models shared_todos.http shared_todos.sessions shared_todos.authz
open shared_todos.auth shared_todos.oauth shared_todos.lists shared_todos.items shared_todos.shares
open shared_todos.app shared_todos.server shared_todos.write_requests
open shared_todos.steadiness shared_todos.warrants shared_todos.interleavings

namespace shared_todos.rights

variable (env : Env) {ι : Type}

/-! ## The lists -/

/-- A change of a list, an item or a share. -/
def of_lists : Change → Bool
  | .insert_list _ | .set_list_name _ _ _ | .delete_list _ | .insert_item _ | .patch_item _ _ _
  | .delete_item _ | .insert_share _ | .set_role _ _ _ | .delete_share _ _ => true
  | _ => false

/-- The change belongs to an action on a list. `saw` are states that the request has read,
and `db` is the database before its transaction. -/
inductive Acts (saw : List DB) (db : DB) : Change → Action → UUID → Prop where
  | rename_list (L : UUID) (name : String) (now : Time) :
    Acts saw db (.set_list_name L name now) .rename_list L
  | delete_list (L : UUID) : Acts saw db (.delete_list L) .delete_list L
  | items_go (L : UUID) (i : Item) (stored : i ∈ db.items.rows) (on_list : i.list_id = L) :
    Acts saw db (.delete_item i.id) .delete_list L
  | shares_go (L u : UUID) : Acts saw db (.delete_share L u) .delete_list L
  | create_item (i : Item) : Acts saw db (.insert_item i) .create_item i.list_id
  | update_item (x : DB) (i : Item) (seen : x ∈ saw) (found : x.items.find i.id = some i)
      (p : ItemPatch) (now : Time) : Acts saw db (.patch_item i.id p now) .update_item i.list_id
  | delete_item (x : DB) (i : Item) (seen : x ∈ saw) (found : x.items.find i.id = some i) :
    Acts saw db (.delete_item i.id) .delete_item i.list_id
  | share_list (s : Share) : Acts saw db (.insert_share s) .share_list s.list_id
  | change_role (L u : UUID) (role : String) :
    Acts saw db (.set_role L u role) .change_collaborator_role L
  | revoke_share (L u : UUID) : Acts saw db (.delete_share L u) .revoke_share L

theorem acts_of_lists {saw : List DB} {db : DB} {a : Change} {action : Action} {L : UUID}
    (h : Acts saw db a action L) : of_lists a = true := by
  cases h <;> rfl

/-- The changes of a planned statement are those of its action. -/
theorem acts_of_planned {L : UUID} {d : Draws} {gate seen : List DB} {w : Write} {plan : Plan}
    (h : Planned L d gate w seen plan) {db : DB} {cs : List Change} {a : Change}
    (hcs : plan.statement db = .ok cs) (ha : a ∈ cs) : Acts seen db a w.action L := by
  cases h with
  | rename_list body s lst found =>
    obtain rfl : lst.id = L := Table.key_of_find found
    rcases rename_statement_ok hcs with rfl | rfl
    · cases ha
    · obtain rfl := List.mem_singleton.mp ha
      exact .rename_list ..
  | delete_list s lst found =>
    obtain rfl : lst.id = L := Table.key_of_find found
    cases hcs
    rcases List.mem_append.mp ha with ha | ha
    · rcases List.mem_append.mp ha with ha | ha
      · obtain ⟨i, hi, rfl⟩ := List.mem_map.mp ha
        obtain ⟨hi, hlist⟩ := (Table.mem_select _ _ _).mp hi
        exact .items_go _ i hi (of_decide_eq_true hlist)
      · obtain ⟨x, hx, rfl⟩ := List.mem_map.mp ha
        obtain ⟨-, hlist⟩ := (Table.mem_select _ _ _).mp hx
        rw [of_decide_eq_true hlist]
        exact .shares_go ..
    · obtain rfl := List.mem_singleton.mp ha
      exact .delete_list _
  | create_item body =>
    obtain ⟨rfl, -⟩ := insert_item_ok hcs
    obtain rfl := List.mem_singleton.mp ha
    exact .create_item _
  | update_item item_id body s item found on_list =>
    obtain rfl : item.id = item_id := Table.key_of_find found
    rcases update_item_row_ok hcs with ⟨rfl, -⟩ | ⟨rfl, -⟩
    · cases ha
    · obtain rfl := List.mem_singleton.mp ha
      exact on_list ▸ .update_item s item (List.mem_cons_self ..) found ..
  | delete_item item_id s item found on_list =>
    obtain rfl : item.id = item_id := Table.key_of_find found
    cases hcs
    obtain rfl := List.mem_singleton.mp ha
    exact on_list ▸ .delete_item s item (List.mem_cons_self ..) found
  | create_share body x s target found free =>
    obtain ⟨rfl, -⟩ := insert_share_ok hcs
    obtain rfl := List.mem_singleton.mp ha
    exact .share_list (new_share L body d)
  | change_role user_id body s share found =>
    have hkey : share.key = (L, user_id) := Table.key_of_find found
    obtain ⟨rfl, -⟩ : share.list_id = L ∧ share.user_id = user_id := Prod.mk.inj hkey
    rcases role_statement_ok hcs with rfl | ⟨rfl, -⟩
    · cases ha
    · obtain rfl := List.mem_singleton.mp ha
      exact .change_role ..
  | revoke_share user_id s share found =>
    have hkey : share.key = (L, user_id) := Table.key_of_find found
    obtain ⟨rfl, -⟩ : share.list_id = L ∧ share.user_id = user_id := Prod.mk.inj hkey
    cases hcs
    obtain rfl := List.mem_singleton.mp ha
    exact .revoke_share ..

/-- The statements on the accounts change no list. -/
theorem account_write_changes {st : Statement} (h : AccountWrite st) {db : DB} {cs : List Change}
    (hcs : st db = .ok cs) {a : Change} (ha : a ∈ cs) : of_lists a = false := by
  cases h with
  | insert_user u =>
    obtain ⟨rfl, -⟩ := insert_user_ok hcs
    obtain rfl := List.mem_singleton.mp ha
    rfl
  | update_google_sub id sub =>
    obtain ⟨rfl, -⟩ := update_google_sub_ok hcs
    obtain rfl := List.mem_singleton.mp ha
    rfl
  | insert_session s =>
    obtain ⟨rfl, -⟩ := insert_session_ok hcs
    obtain rfl := List.mem_singleton.mp ha
    rfl
  | delete_sessions p =>
    cases hcs
    obtain ⟨s, -, rfl⟩ := List.mem_map.mp ha
    rfl
  | insert_reset_token t =>
    obtain ⟨rfl, -⟩ := insert_reset_token_ok hcs
    obtain rfl := List.mem_singleton.mp ha
    rfl
  | reset_statement prt user now hash =>
    obtain ⟨rfl, -⟩ := reset_statement_ok hcs
    rcases List.mem_cons.mp ha with rfl | ha
    · rfl
    · obtain rfl := List.mem_singleton.mp ha
      rfl

/-- What a statement may change is among what it changes there. -/
theorem changed_of_may {st : Statement} {db : DB} {cs : List Change} (h : May st db cs) {a : Change}
    (ha : a ∈ cs) : ∃ ds, st db = .ok ds ∧ a ∈ ds := by
  obtain ⟨ds, hds, rfl | ⟨-, hsub⟩⟩ := h
  · exact ⟨cs, hds, ha⟩
  · exact ⟨ds, hds, hsub.subset ha⟩

/-- A transaction of one statement. -/
theorem change_of_one {sts : List (Stmt DB Change DbError × List Change)} {st : Statement}
    (hsts : sts.map Prod.fst = [st]) {db : DB} (hruns : Runs May sts db) {a : Change}
    (ha : a ∈ changes sts) : ∃ ds, st db = .ok ds ∧ a ∈ ds := by
  obtain ⟨⟨v, cs⟩, rfl, rfl⟩ := List.map_eq_singleton_iff.mp hsts
  rw [changes_one] at ha
  exact changed_of_may hruns.1 ha

/-- The request may make the change: it is a new list of the user's own, or the user held a
role that allows it. `db` is the database before its transaction. -/
def Entitled (s : Step) (g : Learned) (db : DB) (a : Change) : Prop :=
  ∃ user, Recognised env s g user ∧ ((∃ l, a = .insert_list l ∧ l.owner_id = user.id) ∨
    ∃ action L role x, Acts g.states db a action L ∧ action ∈ ALLOWED role ∧ x ∈ g.states ∧
      RoleHeld x L user.id role)

theorem entitled_of_warranted {s : Step} {g : Learned}
    {sts : List (Stmt DB Change DbError × List Change)}
    (h : Warranted env s g (sts.map Prod.fst)) {db : DB} (hruns : Runs May sts db) {a : Change}
    (ha : a ∈ changes sts) (hlists : of_lists a = true) : Entitled env s g db a := by
  have haccount : ∀ {st : Statement}, AccountWrite st → sts.map Prod.fst ≠ [st] := by
    intro st hst hsts
    obtain ⟨ds, hds, hads⟩ := change_of_one hsts hruns ha
    rw [account_write_changes hst hds hads] at hlists
    cases hlists
  generalize hws : sts.map Prod.fst = ws at h
  cases h with
  | create_list body user call recognised =>
    obtain ⟨ds, hds, hads⟩ := change_of_one hws hruns ha
    obtain ⟨rfl, -⟩ := insert_list_ok hds
    obtain rfl := List.mem_singleton.mp hads
    exact ⟨user, recognised, Or.inl ⟨_, rfl, rfl⟩⟩
  | write L w user gate plan call permitted planned =>
    obtain ⟨ds, hds, hads⟩ := change_of_one hws hruns ha
    obtain ⟨hrecognised, role, x, hallowed, hx, hheld⟩ := permitted
    exact ⟨user, hrecognised, Or.inr ⟨w.action, L, role, x, acts_of_planned planned hds hads,
      hallowed, hx, hheld⟩⟩
  | reset body prt user now resets =>
    obtain ⟨p, hp, hap⟩ := List.mem_flatMap.mp ha
    obtain ⟨x, hmay⟩ := may_of_runs hruns hp
    obtain ⟨ds, hds, hads⟩ := changed_of_may hmay hap
    have hwrite : AccountWrite p.1 := by
      have hmem := List.mem_map_of_mem (f := Prod.fst) hp
      rw [hws] at hmem
      rcases List.mem_cons.mp hmem with heq | hmem
      · rw [heq]
        exact .reset_statement ..
      · rw [List.mem_singleton.mp hmem]
        exact .delete_sessions _
    rw [account_write_changes hwrite hds hads] at hlists
    cases hlists
  | register | google_account => exact absurd hws (haccount (.insert_user _))
  | first_session | login | google_first_session | google_session =>
    exact absurd hws (haccount (.insert_session _))
  | logout => exact absurd hws (haccount (.delete_sessions _))
  | reset_request => exact absurd hws (haccount (.insert_reset_token _))
  | google_link => exact absurd hws (haccount (.update_google_sub ..))

variable [DecidableEq ι] [Fintype ι]

/-- Each committed change of a list, an item or a share was made by a user with a live session
and a role that allows it, both in states of the database that were committed before. -/
structure NobodyOverstepped (steps : ι → Step) (db₀ : DB) (j : Journal ι DB Change DbError) :
    Prop where
  entitled : ∀ earlier t later, j.committed = earlier ++ t :: later →
    ∃ db, Executes May db₀ earlier db ∧ ∀ a ∈ changes t.statements, of_lists a = true →
      Entitled env (steps t.by_whom) t.learned db a
  stood : ∀ earlier t later, j.committed = earlier ++ t :: later →
    ∀ x ∈ t.learned.states, Stood May db₀ earlier x

theorem nobody_writes_without_a_role (w : World) (steps : ι → Step) (log : Log ι) (c : Server ι)
    (ran : Ran env w steps log c) : NobodyOverstepped env steps w.db (journal log) := by
  have hserial := serial_of_ran ran
  refine ⟨fun earlier t later hsplit => ?_, fun earlier t later hsplit =>
    (hserial.vouched earlier t later hsplit).stood⟩
  have hexecutes := hserial.executes
  rw [hsplit] at hexecutes
  obtain ⟨db, hbefore, hruns⟩ := executes_split hexecutes
  refine ⟨db, hbefore, fun a ha hlists => ?_⟩
  exact entitled_of_warranted env (hserial.vouched earlier t later hsplit).transacts hruns ha hlists

theorem ann_and_bob_have_roles :
    ∃ log c, Ran .sample shared_list at_home log c ∧
      ((journal log).committed.map fun t => (t.by_whom, changes t.statements)) =
        [(true, [.set_list_name 7 "weekend" 0]), (false, [.patch_item 9 ⟨none, some true, none⟩ 0])] ∧
      NobodyOverstepped .sample at_home shared_list.db (journal log) := by
  obtain ⟨log, c, hran, hcommitted, -, -⟩ := home_run
  exact ⟨log, c, hran, hcommitted,
    nobody_writes_without_a_role .sample shared_list at_home log c hran⟩

/-! ## The answers -/

/-- An answer that shows a row comes with what the request had to learn and to do before, and
it learned it from states of the database that were committed. -/
structure NothingLeaked (steps : ι → Step) (db₀ : DB) (j : Journal ι DB Change DbError)
    (c : Server ι) : Prop where
  answered : ∀ i r, answer c i = some r → shows_rows r.body = true →
    Answered env (steps i) (j.learned i) r
  stood : ∀ i, ∀ x ∈ (j.learned i).states, Stood May db₀ j.committed x

/-- No error shows a row. -/
theorem error_shows_no_row (e : Exn) : shows_rows e.response.body = false := by
  cases e <;> rfl

/-- The request may open a session for the account: it has made it itself, or the password was
verified, or Google vouched for it. -/
inductive Authenticated (s : Step) (g : Learned) : UUID → Prop where
  | registered (body : RegisterRequest) (call : s.call = .register body)
      (made : [insert_user (new_user env body s.draws)] ∈ g.commits) :
    Authenticated s g s.draws.row_id
  | password (body : LoginRequest) (user : User) (verifies : Verifies env s g body user) :
    Authenticated s g user.id
  | google_new (who : Identity) (vouches : Vouches env s g who [])
      (made : [insert_user (google_user who s.draws)] ∈ g.commits) :
    Authenticated s g s.draws.row_id
  | google (who : Identity) (user : User) (vouches : Vouches env s g who [user])
      (linked : user.google_sub = none → [update_google_sub user.id who.google_sub] ∈ g.commits) :
    Authenticated s g user.id

/-- What stands behind a change of an account. The whole transaction is `cs`. -/
inductive Proven (s : Step) (g : Learned) (cs : List Change) : Change → Prop where
  | signs_up (body : RegisterRequest) (call : s.call = .register body)
      (free : ∃ db ∈ g.states, users_by_email body.email.val db = []) :
    Proven s g cs (.insert_user (new_user env body s.draws))
  | signs_up_with_google (who : Identity) (vouches : Vouches env s g who []) :
    Proven s g cs (.insert_user (google_user who s.draws))
  | links (who : Identity) (user : User) (vouches : Vouches env s g who [user])
      (free : user.google_sub = none) : Proven s g cs (.set_google_sub user.id who.google_sub)
  | opens (user_id : UUID) (now : Time) (time : now ∈ g.times)
      (authenticated : Authenticated env s g user_id) :
    Proven s g cs (.insert_session
      (new_session env user_id (s.draws.token_urlsafe 0) s.draws.session_id now))
  | closes (x : Session) (token : String) (call : s.call = .logout)
      (cookie : s.request.session = some token) (own : x.token_hash = hash_token env token) :
    Proven s g cs (.delete_session x.id)
  | asks (body : PasswordResetRequestBody) (user : User)
      (call : s.call = .password_reset_request body)
      (found : ∃ db ∈ g.states, users_by_email body.email.val db = [user])
      (password : user.password_hash ≠ none) (now : Time) (time : now ∈ g.times) :
    Proven s g cs (.insert_reset_token
      (new_reset_token env user.id (s.draws.token_urlsafe 0) s.draws.row_id now))
  | resets (body : PasswordResetCompleteBody) (prt : PasswordResetToken) (user : User)
      (now : Time) (a : Change) (resets : Resets env s g body prt user now)
      (password : .set_password_hash user.id (hash_password env body.new_password s.draws.salt) ∈ cs)
      (used : .set_used_at prt.id now ∈ cs)
      (one : a = .set_password_hash user.id (hash_password env body.new_password s.draws.salt) ∨
        a = .set_used_at prt.id now ∨ ∃ x : Session, a = .delete_session x.id ∧ x.user_id = user.id) :
    Proven s g cs a

/-- The changes of a reset: the password, the mark on the token, and the sessions of the user. -/
theorem proven_of_reset {s : Step} {g : Learned} {body : PasswordResetCompleteBody}
    {prt : PasswordResetToken} {user : User} {now : Time}
    (resets : Resets env s g body prt user now)
    {sts : List (Stmt DB Change DbError × List Change)}
    (hsts : sts.map Prod.fst =
      [reset_statement prt user now (hash_password env body.new_password s.draws.salt),
        delete_sessions fun x => decide (x.user_id = user.id)])
    {db : DB} (hruns : Runs May sts db) {a : Change} (ha : a ∈ changes sts) :
    Proven env s g (changes sts) a := by
  rcases sts with _ | ⟨⟨v, cs⟩, _ | ⟨⟨v', ds⟩, _ | ⟨x, rest⟩⟩⟩
  · cases hsts
  · cases hsts
  · obtain ⟨rfl, rfl⟩ : v = reset_statement prt user now
        (hash_password env body.new_password s.draws.salt) ∧
        v' = delete_sessions fun x => decide (x.user_id = user.id) := by
      simpa using hsts
    obtain ⟨hreset, hdelete, -⟩ := hruns
    have hcs : cs = [.set_password_hash user.id (hash_password env body.new_password s.draws.salt),
        .set_used_at prt.id now] := changes_of_reset hreset
    subst hcs
    refine .resets body prt user now a resets (by simp [changes]) (by simp [changes]) ?_
    have hall : a = .set_password_hash user.id (hash_password env body.new_password s.draws.salt) ∨
        a = .set_used_at prt.id now ∨ a ∈ ds := by
      simpa [changes] using ha
    refine hall.imp_right (Or.imp_right fun hads => ?_)
    obtain ⟨es, hes, haes⟩ := changed_of_may hdelete hads
    cases hes
    obtain ⟨x, hx, rfl⟩ := List.mem_map.mp haes
    exact ⟨x, rfl, of_decide_eq_true ((Table.mem_select _ _ _).mp hx).2⟩
  · cases hsts

theorem proven_of_warranted {s : Step} {g : Learned}
    {sts : List (Stmt DB Change DbError × List Change)}
    (h : Warranted env s g (sts.map Prod.fst)) {db : DB} (hruns : Runs May sts db) {a : Change}
    (ha : a ∈ changes sts) (hlists : of_lists a = false) : Proven env s g (changes sts) a := by
  generalize hws : sts.map Prod.fst = ws at h
  have hsession : ∀ {user_id : UUID} {now : Time},
      sts.map Prod.fst = [session_statement env s user_id now] →
      now ∈ g.times → Authenticated env s g user_id → Proven env s g (changes sts) a := by
    intro user_id now hsts htime hauthenticated
    obtain ⟨ds, hds, hads⟩ := change_of_one hsts hruns ha
    obtain ⟨rfl, -⟩ := insert_session_ok hds
    obtain rfl := List.mem_singleton.mp hads
    exact .opens user_id now htime hauthenticated
  cases h with
  | register body call free =>
    obtain ⟨ds, hds, hads⟩ := change_of_one hws hruns ha
    obtain ⟨rfl, -⟩ := insert_user_ok hds
    obtain rfl := List.mem_singleton.mp hads
    exact .signs_up body call free
  | google_account who vouches =>
    obtain ⟨ds, hds, hads⟩ := change_of_one hws hruns ha
    obtain ⟨rfl, -⟩ := insert_user_ok hds
    obtain rfl := List.mem_singleton.mp hads
    exact .signs_up_with_google who vouches
  | google_link who user vouches free =>
    obtain ⟨ds, hds, hads⟩ := change_of_one hws hruns ha
    obtain ⟨rfl, -⟩ := update_google_sub_ok hds
    obtain rfl := List.mem_singleton.mp hads
    exact .links who user vouches free
  | first_session body call made now time => exact hsession hws time (.registered body call made)
  | login body user verifies now time => exact hsession hws time (.password body user verifies)
  | google_first_session who vouches made now time =>
    exact hsession hws time (.google_new who vouches made)
  | google_session who user vouches linked now time =>
    exact hsession hws time (.google who user vouches linked)
  | logout token call cookie =>
    obtain ⟨ds, hds, hads⟩ := change_of_one hws hruns ha
    cases hds
    obtain ⟨x, hx, rfl⟩ := List.mem_map.mp hads
    exact .closes x token call cookie (of_decide_eq_true ((Table.mem_select _ _ _).mp hx).2)
  | reset_request body user call found password now time =>
    obtain ⟨ds, hds, hads⟩ := change_of_one hws hruns ha
    obtain ⟨rfl, -⟩ := insert_reset_token_ok hds
    obtain rfl := List.mem_singleton.mp hads
    exact .asks body user call found password now time
  | reset body prt user now resets => exact proven_of_reset env resets hws hruns ha
  | create_list body user call recognised =>
    obtain ⟨ds, hds, hads⟩ := change_of_one hws hruns ha
    obtain ⟨rfl, -⟩ := insert_list_ok hds
    obtain rfl := List.mem_singleton.mp hads
    cases hlists
  | write L w user gate plan call permitted planned =>
    obtain ⟨ds, hds, hads⟩ := change_of_one hws hruns ha
    rw [acts_of_lists (acts_of_planned planned hds hads)] at hlists
    cases hlists

/-- Each committed change of an account, a session or a reset token has its proof, which the
request took from states of the database that were committed before, or has committed itself. -/
structure NobodyIntruded (steps : ι → Step) (db₀ : DB) (j : Journal ι DB Change DbError) :
    Prop where
  proven : ∀ t ∈ j.committed, ∀ a ∈ changes t.statements, of_lists a = false →
    Proven env (steps t.by_whom) t.learned (changes t.statements) a
  stood : ∀ earlier t later, j.committed = earlier ++ t :: later →
    ∀ x ∈ t.learned.states, Stood May db₀ earlier x
  done : ∀ earlier t later, j.committed = earlier ++ t :: later →
    ∀ ws ∈ t.learned.commits, Done t.by_whom earlier ws

/-- Ann and Bob register at once. -/
def newcomers : Bool → Step
  | true => ann_registers "a" 1
  | false => bob_registers

end shared_todos.rights
