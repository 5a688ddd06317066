-- The application (`main.py`): one request goes through the middleware to its
-- handler, and a run is a sequence of requests from the empty database, each
-- handled to its end before the next.
import SharedTodos.Csrf
import SharedTodos.Oauth
import SharedTodos.ListRouter
import SharedTodos.ItemRouter
import SharedTodos.ShareRouter

open keyed_table transactions
open shared_todos.models shared_todos.http shared_todos.http.handler
open shared_todos.auth shared_todos.oauth shared_todos.lists shared_todos.items shared_todos.shares
open shared_todos.csrf

namespace shared_todos.app

/-! ## The routes -/

inductive Call where
  | register (body : RegisterRequest)
  | login (body : LoginRequest)
  | logout
  | session_info
  | password_reset_request (body : PasswordResetRequestBody)
  | password_reset_validate (token : String)
  | password_reset_complete (body : PasswordResetCompleteBody)
  | oauth_google_initiate
  | oauth_google_callback (query : CallbackQuery)
  | create_list (body : ListCreate)
  | list_lists
  | get_list (list_id : UUID)
  | rename_list (list_id : UUID) (body : ListUpdate)
  | delete_list (list_id : UUID)
  | create_item (list_id : UUID) (body : ItemCreate)
  | list_items (list_id : UUID)
  | update_item (list_id item_id : UUID) (body : ItemUpdate)
  | delete_item (list_id item_id : UUID)
  | create_share (list_id : UUID) (body : ShareCreate)
  | list_shares (list_id : UUID)
  | change_role (list_id user_id : UUID) (body : ShareUpdate)
  | revoke_share (list_id user_id : UUID)

namespace Call

def method : Call → String
  | .register _ | .login _ | .logout | .password_reset_request _ | .password_reset_complete _
  | .create_list _ | .create_item _ _ | .create_share _ _ => "POST"
  | .session_info | .password_reset_validate _ | .oauth_google_initiate | .oauth_google_callback _
  | .list_lists | .get_list _ | .list_items _ | .list_shares _ => "GET"
  | .rename_list _ _ | .update_item _ _ _ | .change_role _ _ _ => "PATCH"
  | .delete_list _ | .delete_item _ _ | .revoke_share _ _ => "DELETE"

/-- The 32 digits of an id, most significant first, with the hyphens of `str(uuid)`. -/
def uuid_text (id : UUID) : String :=
  let digits := (List.range 32).map fun n => Nat.digitChar ((id.toNat / Nat.pow 16 (31 - n)) % 16)
  let part (start count : Nat) := String.ofList ((digits.drop start).take count)
  part 0 8 ++ "-" ++ part 8 4 ++ "-" ++ part 12 4 ++ "-" ++ part 16 4 ++ "-" ++ part 20 12

def list_path (id : UUID) : String := "/api/v1/lists/" ++ uuid_text id

def path : Call → String
  | .register _ => "/api/v1/auth/register"
  | .login _ => "/api/v1/auth/login"
  | .logout => "/api/v1/auth/logout"
  | .session_info => "/api/v1/auth/session"
  | .password_reset_request _ => "/api/v1/auth/password-reset/request"
  | .password_reset_validate _ => "/api/v1/auth/password-reset/validate"
  | .password_reset_complete _ => "/api/v1/auth/password-reset/complete"
  | .oauth_google_initiate => "/api/v1/auth/oauth/google"
  | .oauth_google_callback _ => "/api/v1/auth/oauth/google/callback"
  | .create_list _ | .list_lists => "/api/v1/lists"
  | .get_list id | .rename_list id _ | .delete_list id => list_path id
  | .create_item id _ | .list_items id => list_path id ++ "/items"
  | .update_item id item _ | .delete_item id item => list_path id ++ "/items/" ++ uuid_text item
  | .create_share id _ | .list_shares id => list_path id ++ "/shares"
  | .change_role id user _ | .revoke_share id user => list_path id ++ "/shares/" ++ uuid_text user

/-- The list that the path names. -/
def list_id : Call → Option UUID
  | .get_list id | .rename_list id _ | .delete_list id | .create_item id _ | .list_items id
  | .update_item id _ _ | .delete_item id _ | .create_share id _ | .list_shares id
  | .change_role id _ _ | .revoke_share id _ => some id
  | _ => none

/-- A request on the lists, the items and the shares. -/
def on_lists : Call → Bool
  | .create_list _ | .list_lists => true
  | call => call.list_id.isSome

end Call

variable (env : Env)

/-- The handler of a route. -/
def handler_of (call : Call) (request : Request) (d : Draws) : Handler Response :=
  match call with
  | .register body => register env body d
  | .login body => login env body request d
  | .logout => logout env request
  | .session_info => get_session_info env request
  | .password_reset_request body => password_reset_request env body d
  | .password_reset_validate token => password_reset_validate env token
  | .password_reset_complete body => password_reset_complete env body d
  | .oauth_google_initiate => oauth_google_initiate env d
  | .oauth_google_callback query => oauth_google_callback env query request d
  | .create_list body => create_list env body request d
  | .list_lists => list_lists env request d
  | .get_list id => get_list env id request
  | .rename_list id body => rename_list env id body request d
  | .delete_list id => delete_list env id request
  | .create_item id body => create_item env id body request d
  | .list_items id => list_items env id request d
  | .update_item id item body => update_item env id item body request d
  | .delete_item id item => delete_item env id item request
  | .create_share id body => create_share env id body request d
  | .list_shares id => list_shares env id request d
  | .change_role id user body => change_role env id user body request
  | .revoke_share id user => revoke_share env id user request

/-! ## One request -/

/-- One request with what the process draws for it. -/
structure Step where
  call : Call
  request : Request
  draws : Draws

def Step.handle (s : Step) (w : World) : Response × World :=
  match dispatch s.call.method s.call.path s.request with
  | .error e => (e.response, w)
  | .ok (.answer r) => (r, w)
  | .ok .forward => perform (handler_of env s.call s.request s.draws) s.draws.now w

/-! ## Runs -/

def Step.after (s : Step) (w : World) : World := (s.handle env w).2

def run (steps : List Step) (w : World) : World := steps.foldl (fun w s => s.after env w) w

/-- The states of the runs from the empty database. -/
def Reachable (w : World) : Prop := ∃ steps, run env steps .empty = w

@[simp] theorem run_nil (w : World) : run env [] w = w := rfl

theorem run_append (a b : List Step) (w : World) :
    run env (a ++ b) w = run env b (run env a w) := List.foldl_append ..

/-- What holds at the start and is kept by every request holds after every run. -/
theorem run_induction {P : World → Prop} {w : World} (h0 : P w)
    (hstep : ∀ (w : World) (s : Step), P w → P (s.after env w)) (steps : List Step) :
    P (run env steps w) := by
  induction steps generalizing w with
  | nil => exact h0
  | cons s steps ih => exact ih (hstep w s h0)

theorem reachable_induction {P : World → Prop} (h0 : P .empty)
    (hstep : ∀ (w : World) (s : Step), P w → P (s.after env w)) {w : World} (h : Reachable env w) :
    P w := by
  obtain ⟨steps, rfl⟩ := h
  exact run_induction env h0 hstep steps

/-- What the middleware answers itself. -/
def Refused (r : Response) : Prop :=
  r = Exn.type_error.response ∨ ∃ text, r = json 403 (.detail text)

theorem refused_status {r : Response} (h : Refused r) : 400 ≤ r.status_code := by
  rcases h with rfl | ⟨text, rfl⟩ <;> simp [Exn.response, json]

/-- The middleware refuses and leaves the state alone, or the request is handled. -/
theorem handle_cases (s : Step) (w : World) :
    (∃ r, s.handle env w = (r, w) ∧ Refused r) ∨
      s.handle env w = perform (handler_of env s.call s.request s.draws) s.draws.now w := by
  unfold Step.handle
  split
  · rename_i e he
    rw [dispatch_error he]
    exact Or.inl ⟨_, rfl, Or.inl rfl⟩
  · rename_i r hr
    exact Or.inl ⟨r, rfl, Or.inr (dispatch_answer hr)⟩
  · exact Or.inr rfl

/-- The middleware lets what only reads through. -/
theorem handle_of_get {s : Step} (h : s.call.method = "GET") (w : World) :
    s.handle env w = perform (handler_of env s.call s.request s.draws) s.draws.now w := by
  unfold Step.handle dispatch
  rw [h, if_pos (by decide)]

/-! ## Requests to try the model with -/

def ann : EmailStr := ⟨"ann@example.com", by decide, by decide, by decide⟩

def ann_registration : RegisterRequest := ⟨ann, "correct horse", by decide⟩

/-- Ann registers, by a request whose draws have the name and the id. -/
def ann_registers (name : String) (id : UUID) : Step where
  call := .register ann_registration
  request := .sample
  draws := .sample name id

def ann_logs_in (password name : String) (id : UUID) : Step where
  call := .login ⟨ann, password⟩
  request := .sample
  draws := .sample name id

/-- A callback of a browser that started its flow, with the claims of the ID token. -/
def google_calls_back (claims name : String) (id : UUID) : Step where
  call := .oauth_google_callback ⟨some "code", some ".nonce", none⟩
  request := { Request.sample with oauth_state_nonce := some "nonce" }
  draws := { Draws.sample name id with exchange := .answer 200 (some (some claims)) }

end shared_todos.app
