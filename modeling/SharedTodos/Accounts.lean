-- What a request does with the accounts, the sessions and the reset tokens,
-- case by case, and the constraints of the schema over every run.
import SharedTodos.App

open keyed_table transactions transactions.Prog
open shared_todos.models shared_todos.http shared_todos.http.handler
open shared_todos.sessions shared_todos.rate_limiter shared_todos.auth shared_todos.oauth
open shared_todos.authz
open shared_todos.lists shared_todos.items shared_todos.shares shared_todos.app

namespace shared_todos.accounts

variable (env : Env)

/-! ## What the handlers write -/

section
variable {W : Statement → Prop}

theorem writes_flush {st : Statement} (h : W st) : (flush st).Writes W := by
  refine ⟨h, fun r => ?_⟩
  cases r <;> trivial

theorem writes_commit : commit.Writes W := trivial

theorem writes_execute {β : Type} (q : DB → β) : (execute q).Writes W := fun _ => trivial

theorem writes_utc_now : utc_now.Writes W := fun _ => trivial

theorem writes_scalar_one_or_none {ρ : Type} (rows : List ρ) :
    (scalar_one_or_none rows).Writes W := by
  rcases rows with _ | ⟨a, _ | ⟨b, rest⟩⟩ <;> trivial

theorem writes_scalar_one {ρ : Type} (rows : List ρ) : (scalar_one rows).Writes W := by
  rcases rows with _ | ⟨a, _ | ⟨b, rest⟩⟩ <;> trivial

theorem writes_refresh {ρ : Type} (q : DB → Option ρ) : (refresh q).Writes W := by
  intro o
  cases o <;> trivial

theorem writes_select_one {ρ : Type} (q : DB → List ρ) :
    (do scalar_one_or_none (← execute q) : Handler (Option ρ)).Writes W :=
  writes_bind (writes_execute q) fun rows => writes_scalar_one_or_none rows

theorem writes_require_auth (session : Option String) : (require_auth env session).Writes W := by
  cases session with
  | none => trivial
  | some token =>
    apply writes_bind
    · exact writes_bind writes_utc_now fun now => writes_select_one _
    · intro user
      cases user <;> trivial

theorem writes_require_list_permission (action : Action) (L : UUID) (session : Option String) :
    (require_list_permission env action L session).Writes W := by
  refine writes_bind (writes_require_auth env session) fun user => ?_
  refine writes_bind (writes_execute _) fun owned => ?_
  refine writes_bind (writes_scalar_one_or_none _) fun owner_result => ?_
  refine writes_bind (writes_execute _) fun roles => ?_
  refine writes_bind (writes_scalar_one_or_none _) fun share_role => ?_
  split
  · trivial
  · trivial
  · split <;> trivial

end

section
variable (request : Request) (d : Draws) {W : Statement → Prop}

theorem writes_create_list (body : ListCreate) (hW : ∀ l, W (insert_list l)) :
    (create_list env body request d).Writes W :=
  writes_bind (writes_require_auth env _) fun _ =>
  writes_bind (writes_flush (hW _)) fun _ =>
  writes_bind writes_commit fun _ => writes_bind (writes_refresh _) fun _ => trivial

theorem writes_list_lists : (list_lists env request d).Writes W :=
  writes_bind (writes_require_auth env _) fun _ =>
  writes_bind (writes_execute _) fun _ => writes_bind (writes_execute _) fun _ => trivial

theorem writes_get_list (L : UUID) : (get_list env L request).Writes W := by
  refine writes_bind (writes_require_list_permission env _ _ _) fun _ => ?_
  refine writes_bind (writes_execute _) fun lst => ?_
  cases lst <;> trivial

theorem rename_statement_kind (l : ListRow) (name : String) (now : Time) :
    ListStatement (rename_statement l name now) := by
  unfold rename_statement
  split
  · exact .unchanged
  · exact .update_list_name _ _ _

theorem writes_rename_list (L : UUID) (body : ListUpdate)
    (hW : ∀ lst, W (rename_statement lst body.name d.db_now)) :
    (rename_list env L body request d).Writes W := by
  refine writes_bind (writes_require_list_permission env _ _ _) fun _ => ?_
  refine writes_bind (writes_execute _) fun lst => ?_
  cases lst with
  | none => trivial
  | some lst =>
    exact writes_bind (writes_flush (hW lst)) fun _ =>
      writes_bind writes_commit fun _ => writes_bind (writes_refresh _) fun _ => trivial

theorem writes_delete_list (L : UUID) (hW : ∀ id, W (delete_list_row id)) :
    (delete_list env L request).Writes W := by
  refine writes_bind (writes_require_list_permission env _ _ _) fun _ => ?_
  refine writes_bind (writes_execute _) fun lst => ?_
  cases lst with
  | none => trivial
  | some lst =>
    exact writes_bind (writes_flush (hW _)) fun _ =>
      writes_bind writes_commit fun _ => trivial

theorem writes_create_item (L : UUID) (body : ItemCreate) (hW : ∀ i, W (insert_item i)) :
    (create_item env L body request d).Writes W :=
  writes_bind (writes_require_list_permission env _ _ _) fun _ =>
  writes_bind (writes_flush (hW _)) fun _ =>
  writes_bind writes_commit fun _ => writes_bind (writes_refresh _) fun _ => trivial

theorem writes_list_items (L : UUID) : (list_items env L request d).Writes W :=
  writes_bind (writes_require_list_permission env _ _ _) fun _ =>
  writes_bind (writes_execute _) fun _ => trivial

theorem writes_update_item (L item_id : UUID) (body : ItemUpdate)
    (hW : ∀ id p now, W (update_item_row id p now)) :
    (update_item env L item_id body request d).Writes W := by
  refine writes_bind (writes_require_list_permission env _ _ _) fun perm => ?_
  refine writes_bind (writes_execute _) fun item => ?_
  cases item with
  | none => trivial
  | some item =>
    dsimp only
    split
    · trivial
    · exact writes_bind (writes_flush (hW _ _ _)) fun _ =>
        writes_bind writes_commit fun _ => writes_bind (writes_refresh _) fun _ => trivial

theorem writes_delete_item (L item_id : UUID) (hW : ∀ id, W (delete_item_row id)) :
    (delete_item env L item_id request).Writes W := by
  refine writes_bind (writes_require_list_permission env _ _ _) fun perm => ?_
  refine writes_bind (writes_execute _) fun item => ?_
  cases item with
  | none => trivial
  | some item =>
    dsimp only
    split
    · trivial
    · exact writes_bind (writes_flush (hW _)) fun _ =>
        writes_bind writes_commit fun _ => trivial

theorem writes_commit_share {s : Share} (h : W (insert_share s)) : (commit_share s).Writes W := by
  refine ⟨h, fun r => ?_⟩
  cases r <;> trivial

theorem writes_create_share (L : UUID) (body : ShareCreate) (hW : ∀ s, W (insert_share s)) :
    (create_share env L body request d).Writes W := by
  refine writes_bind (writes_require_list_permission env _ _ _) fun perm => ?_
  split
  · trivial
  refine writes_bind (writes_execute _) fun target => ?_
  cases target with
  | none => trivial
  | some target =>
    refine writes_bind (writes_execute _) fun rows => ?_
    refine writes_bind (writes_scalar_one_or_none _) fun existing => ?_
    cases existing with
    | some x => trivial
    | none =>
      exact writes_bind (writes_commit_share (hW _)) fun _ =>
        writes_bind (writes_refresh _) fun _ => trivial

theorem writes_list_shares (L : UUID) : (list_shares env L request d).Writes W :=
  writes_bind (writes_require_list_permission env _ _ _) fun _ =>
  writes_bind (writes_execute _) fun _ => trivial

theorem role_statement_kind (s : Share) (role : String) :
    ListStatement (role_statement s role) := by
  unfold role_statement
  split
  · exact .unchanged
  · exact .update_role _ _ _

theorem writes_change_role (L target : UUID) (body : ShareUpdate)
    (hW : ∀ share, W (role_statement share body.role)) :
    (change_role env L target body request).Writes W := by
  refine writes_bind (writes_require_list_permission env _ _ _) fun perm => ?_
  refine writes_bind (writes_execute _) fun rows => ?_
  refine writes_bind (writes_scalar_one_or_none _) fun share => ?_
  cases share with
  | none => trivial
  | some share =>
    exact writes_bind (writes_flush (hW _)) fun _ =>
      writes_bind writes_commit fun _ => writes_bind (writes_refresh _) fun _ => trivial

theorem writes_revoke_share (L target : UUID) (hW : ∀ l u, W (delete_share_row l u)) :
    (revoke_share env L target request).Writes W := by
  refine writes_bind (writes_require_list_permission env _ _ _) fun perm => ?_
  refine writes_bind (writes_execute _) fun rows => ?_
  refine writes_bind (writes_scalar_one_or_none _) fun share => ?_
  cases share with
  | none => trivial
  | some share =>
    exact writes_bind (writes_flush (hW _ _)) fun _ =>
      writes_bind writes_commit fun _ => trivial

/-- A request on the lists writes lists, items and shares only. -/
theorem list_handler_writes {call : Call} (h : call.on_lists = true) :
    (handler_of env call request d).Writes ListStatement := by
  cases call with
  | create_list body => exact writes_create_list env request d body .insert_list
  | list_lists => exact writes_list_lists env request d
  | get_list L => exact writes_get_list env request L
  | rename_list L body => exact writes_rename_list env request d L body fun _ => rename_statement_kind _ _ _
  | delete_list L => exact writes_delete_list env request L .delete_list_row
  | create_item L body => exact writes_create_item env request d L body .insert_item
  | list_items L => exact writes_list_items env request d L
  | update_item L i body => exact writes_update_item env request d L i body .update_item_row
  | delete_item L i => exact writes_delete_item env request L i .delete_item_row
  | create_share L body => exact writes_create_share env request d L body .insert_share
  | list_shares L => exact writes_list_shares env request d L
  | change_role L v body => exact writes_change_role env request L v body fun _ => role_statement_kind _ _
  | revoke_share L v => exact writes_revoke_share env request L v .delete_share_row
  | _ => cases h

/-! ### The requests on the accounts -/

theorem writes_create_session (user_id : UUID) (token : String) (id : UUID) :
    (create_session env user_id token id).Writes AccountStatement :=
  writes_bind writes_utc_now fun _ => writes_bind (writes_flush (.insert_session _)) fun _ =>
  writes_bind writes_commit fun _ => trivial

theorem writes_register (body : RegisterRequest) :
    (register env body d).Writes AccountStatement := by
  refine writes_bind (writes_execute _) fun rows => ?_
  refine writes_bind (writes_scalar_one_or_none _) fun existing => ?_
  cases existing with
  | some u => trivial
  | none =>
    exact writes_bind (writes_flush (.insert_user _)) fun _ =>
      writes_bind writes_commit fun _ => writes_bind (writes_refresh _) fun user =>
      writes_bind (writes_create_session env _ _ _) fun _ => trivial

theorem writes_verify_password (plaintext hashed : String) {W : Statement → Prop} :
    (verify_password env plaintext hashed).Writes W := by
  unfold verify_password
  split <;> trivial

theorem writes_login_accepted (user : User) :
    (login_accepted env user request d).Writes AccountStatement :=
  writes_bind (fun _ => trivial) fun _ =>
    writes_bind (writes_create_session env _ _ _) fun _ => trivial

theorem writes_login_rejected {W : Statement → Prop} : (login_rejected env request).Writes W :=
  writes_bind (fun _ => trivial) fun _ => trivial

theorem writes_login_found (body : LoginRequest) (user : Option User) :
    (login_found env body request d user).Writes AccountStatement := by
  unfold login_found
  split
  · refine writes_bind (writes_verify_password env _ _) fun ok => ?_
    split
    · exact writes_login_accepted env request d _
    · exact writes_login_rejected env request
  · exact writes_bind (writes_verify_password env _ _) fun _ => writes_login_rejected env request

theorem writes_login (body : LoginRequest) :
    (login env body request d).Writes AccountStatement := by
  refine writes_bind ?_ fun _ => ?_
  · intro attempts
    dsimp only
    split <;> trivial
  · refine writes_bind (writes_execute _) fun rows => ?_
    exact writes_bind (writes_scalar_one_or_none _) fun user =>
      writes_login_found env request d body user

theorem writes_logout : (logout env request).Writes AccountStatement := by
  unfold logout
  split
  · trivial
  · split
    · trivial
    · exact writes_bind (writes_bind (writes_flush (.delete_sessions _)) fun _ => writes_commit)
        fun _ => trivial

theorem writes_password_reset_request (body : PasswordResetRequestBody) :
    (password_reset_request env body d).Writes AccountStatement := by
  refine writes_bind (writes_execute _) fun rows => ?_
  refine writes_bind (writes_scalar_one_or_none _) fun user => ?_
  cases user with
  | none => trivial
  | some user =>
    dsimp only
    split
    · trivial
    · refine writes_bind writes_utc_now fun now => ?_
      refine writes_bind (writes_flush (.insert_reset_token _)) fun _ => ?_
      refine writes_bind writes_commit fun _ => ?_
      split <;> trivial

theorem writes_password_reset_complete (body : PasswordResetCompleteBody) :
    (password_reset_complete env body d).Writes AccountStatement := by
  refine writes_bind writes_utc_now fun now => ?_
  refine writes_bind (writes_execute _) fun rows => ?_
  refine writes_bind (writes_scalar_one_or_none _) fun prt => ?_
  cases prt with
  | none => trivial
  | some prt =>
    refine writes_bind (writes_execute _) fun rows => ?_
    refine writes_bind (writes_scalar_one _) fun user => ?_
    have hst : AccountStatement
        (reset_statement prt user now (hash_password env body.new_password d.salt)) :=
      .also _ _ (.update_password_hash _ _) (.update_used_at _ _)
    exact writes_bind (writes_flush hst) fun _ =>
      writes_bind (writes_flush (.delete_sessions _)) fun _ =>
      writes_bind writes_commit fun _ => trivial

theorem writes_open_session (user_id : UUID) :
    (open_session env user_id d).Writes AccountStatement :=
  writes_bind (writes_create_session env _ _ _) fun _ => trivial

theorem writes_oauth_google_callback (query : CallbackQuery) :
    (oauth_google_callback env query request d).Writes AccountStatement := by
  unfold oauth_google_callback
  split
  · trivial
  · trivial
  · refine writes_bind (writes_execute _) fun rows => ?_
    refine writes_bind (writes_scalar_one_or_none _) fun user => ?_
    cases user with
    | none =>
      exact writes_bind (writes_flush (.insert_user _)) fun _ =>
        writes_bind writes_commit fun _ => writes_bind (writes_refresh _) fun user =>
        writes_open_session env d _
    | some user =>
      unfold sign_in_found
      dsimp only
      split
      · exact writes_bind (writes_flush (.update_google_sub _ _)) fun _ =>
          writes_bind writes_commit fun _ => writes_open_session env d _
      · exact writes_open_session env d _

/-- A request on the accounts writes users, sessions and reset tokens only. -/
theorem account_handler_writes {call : Call} (h : call.on_lists = false) :
    (handler_of env call request d).Writes AccountStatement := by
  cases call with
  | register body => exact writes_register env d body
  | login body => exact writes_login env request d body
  | logout => exact writes_logout env request
  | session_info => exact writes_bind (writes_require_auth env _) fun _ => trivial
  | password_reset_request body => exact writes_password_reset_request env d body
  | password_reset_validate token =>
    refine writes_bind writes_utc_now fun now => ?_
    refine writes_bind (writes_execute _) fun rows => ?_
    refine writes_bind (writes_scalar_one_or_none _) fun prt => ?_
    cases prt <;> trivial
  | password_reset_complete body => exact writes_password_reset_complete env d body
  | oauth_google_initiate => trivial
  | oauth_google_callback query => exact writes_oauth_google_callback env request d query
  | _ => cases h

end

/-! ## What every request keeps -/

/-- What the statements of a handler keep, the request keeps. -/
theorem perform_keeps {P : DB → Prop} {W : Statement → Prop} (hW : ∀ st, W st → Keeps P st)
    {h : Handler Response} (hh : h.Writes W) {c : Nat → Time} {w : World} (hw : P w.db) :
    P (perform h c w).2.db :=
  (run_keeps hW hh (s := ⟨c, w.db, [], w.store⟩) hw hw).1

/-- A request on the lists leaves the accounts alone. -/
theorem same_accounts_of_list_call {s : Step} (h : s.call.on_lists = true) (w : World) :
    SameAccounts w.db (s.after env w).db := by
  unfold Step.after
  rcases handle_cases env s w with ⟨r, hr, -⟩ | hr
  · rw [hr]
    exact .refl _
  · rw [hr]
    exact perform_keeps (fun st hst => list_statement_same_accounts hst w.db)
      (list_handler_writes env s.request s.draws h) (.refl _)

/-- Every request keeps the constraints of the schema. -/
theorem valid_after {w : World} (h : Valid w.db) (s : Step) : Valid (s.after env w).db := by
  unfold Step.after
  rcases handle_cases env s w with ⟨r, hr, -⟩ | hr
  · rw [hr]
    exact h
  · rw [hr]
    cases hc : s.call.on_lists with
    | true =>
      exact perform_keeps (fun _ => list_statement_keeps)
        (list_handler_writes env s.request s.draws hc) h
    | false =>
      exact perform_keeps (fun _ => account_statement_keeps)
        (account_handler_writes env s.request s.draws hc) h

theorem valid_of_reachable {w : World} (h : Reachable env w) : Valid w.db :=
  reachable_induction env (P := fun w => Valid w.db) valid_empty
    (fun _ s hw => valid_after env hw s) h

end shared_todos.accounts
