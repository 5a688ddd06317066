-- The dashboard and the gate: `list_lists` joins two queries and drops repeats, the gate
-- looks up two keys and a table of actions, and both let a user see the same lists.
import SharedTodos.RoleInvariant

open keyed_table transactions
open shared_todos.models shared_todos.http shared_todos.http.handler
open shared_todos.sessions shared_todos.authz
open shared_todos.lists shared_todos.items shared_todos.shares
open shared_todos.app shared_todos.accounts shared_todos.authorization
open shared_todos.write_requests shared_todos.role_invariant

namespace shared_todos.dashboard

variable (env : Env)

/-! ## The ids of a dashboard -/

/-- The ids of the lists that a response shows. -/
def list_ids (r : Response) : List UUID := (list_outs r.body).map (·.id)

/-- The loop keeps each id that it has not seen, once. -/
theorem mem_ids_without_repeats (seen : List UUID) (rows : List ListRow) (L : UUID) :
    L ∈ (without_repeats seen rows).map (·.id) ↔ L ∉ seen ∧ L ∈ rows.map (·.id) := by
  induction rows generalizing seen with
  | nil => simp [without_repeats]
  | cons l rest ih =>
    unfold without_repeats
    split
    · rename_i hseen
      rw [ih, List.map_cons, List.mem_cons]
      constructor
      · rintro ⟨hnew, hmem⟩
        exact ⟨hnew, Or.inr hmem⟩
      · rintro ⟨hnew, rfl | hmem⟩
        · exact absurd hseen hnew
        · exact ⟨hnew, hmem⟩
    · rename_i hnew
      simp only [List.map_cons, List.mem_cons, ih, not_or]
      constructor
      · rintro (rfl | ⟨⟨-, hL⟩, hmem⟩)
        · exact ⟨hnew, Or.inl rfl⟩
        · exact ⟨hL, Or.inr hmem⟩
      · rintro ⟨hL, hmem⟩
        by_cases h : L = l.id
        · exact Or.inl h
        · exact Or.inr ⟨⟨h, hL⟩, hmem.resolve_left h⟩

theorem ids_without_repeats_nodup (seen : List UUID) (rows : List ListRow) :
    ((without_repeats seen rows).map (·.id)).Nodup := by
  induction rows generalizing seen with
  | nil => simp [without_repeats]
  | cons l rest ih =>
    unfold without_repeats
    split
    · exact ih seen
    · rw [List.map_cons, List.nodup_cons]
      refine ⟨fun hmem => ?_, ih _⟩
      exact ((mem_ids_without_repeats _ rest l.id).mp hmem).1 List.mem_cons_self

section
variable {db : DB} {L u : UUID}

theorem has_share_iff : (∃ role, HasShare db L u role) ↔ db.shares.find (L, u) ≠ none := by
  unfold HasShare share_role_of
  cases db.shares.find (L, u) <;> simp

theorem may_see_iff : MaySee db L u ↔ owner_of db L = some u ∨ db.shares.find (L, u) ≠ none := by
  unfold MaySee
  rw [has_share_iff]
  rfl

/-- The two queries find the lists that the user may see. -/
theorem mem_queried_iff (h : Roles db) (order order' : UUID → Nat) :
    L ∈ (scanned order ListRow.id (db.lists.select fun l => decide (l.owner_id = u)) ++
        scanned order' ListRow.id (shared_with u db)).map (·.id) ↔ MaySee db L u := by
  simp only [List.mem_map, List.mem_append, mem_scanned, Table.mem_select, decide_eq_true_eq,
    mem_shared_with]
  constructor
  · rintro ⟨l, ⟨hl, rfl⟩ | ⟨hl, hshare⟩, rfl⟩
    · exact Or.inl (by simp [IsOwner, owner_of, Table.find_of_mem hl])
    · exact Or.inr hshare
  · rintro (howner | ⟨role, hshare⟩)
    · obtain ⟨l, hl, rfl⟩ := Option.map_eq_some_iff.mp howner
      exact ⟨l, Or.inl ⟨Table.mem_of_find hl, rfl⟩, Table.key_of_find hl⟩
    · obtain ⟨x, hx, -⟩ := Option.map_eq_some_iff.mp hshare
      have hkey := Table.key_of_find hx
      simp only [Share.key, Prod.mk.injEq] at hkey
      obtain ⟨o, howner, -⟩ := h.list x (Table.mem_of_find hx)
      rw [hkey.1] at howner
      obtain ⟨l, hl, -⟩ := Option.map_eq_some_iff.mp howner
      have hid : l.id = L := Table.key_of_find hl
      refine ⟨l, Or.inr ⟨by rw [hid]; exact hl, role, by rw [hid]; exact hshare⟩, hid⟩

end

/-! ## What a signed-in user is answered -/

/-- The session of the request names the user with the id. -/
def SignedInAs (s : Step) (w : World) (id : UUID) : Prop := ∃ u, SignedIn env s w u ∧ u.id = id

section
variable {env} {s : Step} {w : World} {u L : UUID}

theorem session_user_of_signed_in_as (h : SignedInAs env s w u) :
    ∃ user, session_user env s.request.session (s.draws.now 0) w.db = .ok user ∧ user.id = u :=
  h.imp fun _ hu => ⟨session_user_of_signed_in env hu.1, hu.2⟩

theorem dashboard_of_roles (hw : Roles w.db) (hcall : s.call = .list_lists)
    (hu : SignedInAs env s w u) :
    (s.handle env w).1.status_code = 200 ∧ (list_ids (s.handle env w).1).Nodup ∧
      ∀ L, L ∈ list_ids (s.handle env w).1 ↔ MaySee w.db L u := by
  obtain ⟨user, huser, rfl⟩ := session_user_of_signed_in_as hu
  rw [handle_of_get env (by rw [hcall]; rfl), hcall]
  have heffect := list_lists_effect env s.request s.draws s.draws.now w
  rw [huser, proceed_ok] at heffect
  change perform (list_lists env s.request s.draws) s.draws.now w = _ at heffect
  simp only [handler_of, heffect, json, list_ids, list_outs, List.map_map]
  refine ⟨trivial, ids_without_repeats_nodup [] _, fun L => ?_⟩
  rw [← mem_queried_iff hw (s.draws.order 0) (s.draws.order 1)]
  exact (mem_ids_without_repeats [] _ L).trans (by simp)

/-- Every role may read a list and its items. -/
theorem reads_allowed (role : Role) : .read_list ∈ ALLOWED role ∧ .list_items ∈ ALLOWED role := by
  cases role <;> simp [ALLOWED]

/-- The gate lets a signed-in user read what he may see. -/
theorem gate_reads (hw : Roles w.db) {action : Action} (haction : ∀ role, action ∈ ALLOWED role)
    {user : User} (huser : session_user env s.request.session (s.draws.now 0) w.db = .ok user) :
    (MaySee w.db L user.id ∧ ∃ role,
        gate env action L s.request.session (s.draws.now 0) w.db = .ok ⟨L, user.id, role⟩) ∨
      ¬ MaySee w.db L user.id ∧
        gate env action L s.request.session (s.draws.now 0) w.db = .error not_found_error := by
  obtain ⟨standing, hrole, hstands⟩ := one_role_of_roles hw L user.id
  unfold gate
  rw [huser]
  dsimp only
  rw [hrole]
  cases standing with
  | none =>
    obtain ⟨howner, hshare⟩ : Stands w.db L user.id none := (hstands none).mpr rfl
    refine Or.inr ⟨fun hsee => ?_, rfl⟩
    exact (may_see_iff.mp hsee).elim howner fun h => h hshare
  | some role =>
    have hheld : Stands w.db L user.id (some role) := (hstands (some role)).mpr rfl
    refine Or.inl ⟨may_see_of_held hheld, role, ?_⟩
    simp [can_perform, haction role]

theorem read_of_roles (hw : Roles w.db) (hu : SignedInAs env s w u)
    (hcall : s.call = .get_list L ∨ s.call = .list_items L) :
    (s.handle env w).1.status_code = 200 ↔ MaySee w.db L u := by
  obtain ⟨user, huser, rfl⟩ := session_user_of_signed_in_as hu
  rw [handle_of_get env (by rcases hcall with h | h <;> rw [h] <;> rfl)]
  have hlist : MaySee w.db L user.id → ∃ l, w.db.lists.find L = some l := by
    intro hsee
    have hmem := (mem_queried_iff hw (fun _ => 0) fun _ => 0).mpr hsee
    simp only [List.mem_map, List.mem_append, mem_scanned, Table.mem_select, mem_shared_with] at hmem
    obtain ⟨l, ⟨hl, -⟩ | ⟨hl, -⟩, rfl⟩ := hmem
    · exact ⟨l, Table.find_of_mem hl⟩
    · exact ⟨l, hl⟩
  rcases hcall with hcall | hcall
  · have heffect := get_list_effect env s.request s.draws.now w L
    rcases gate_reads hw (L := L) (fun role => (reads_allowed role).1) huser with
      ⟨hsee, role, hgate⟩ | ⟨hsee, hgate⟩
    · obtain ⟨l, hl⟩ := hlist hsee
      rw [hgate, proceed_ok] at heffect
      dsimp only at heffect
      rw [hl] at heffect
      simp only [hcall, handler_of, heffect, hsee, json]
    · rw [hgate, proceed_error] at heffect
      simp [hcall, handler_of, heffect, hsee, not_found_error, Exn.response]
  · have heffect := list_items_effect env s.request s.draws s.draws.now w L
    rcases gate_reads hw (L := L) (fun role => (reads_allowed role).2) huser with
      ⟨hsee, role, hgate⟩ | ⟨hsee, hgate⟩
    · rw [hgate, proceed_ok] at heffect
      simp only [hcall, handler_of, heffect, hsee, json]
    · rw [hgate, proceed_error] at heffect
      simp [hcall, handler_of, heffect, hsee, not_found_error, Exn.response]

end

/-! ## What a request does to the dashboards -/

/-- The request took list `L` from user `u`: it deleted the list, or revoked his share. -/
def Taken (s : Step) (r : Response) (L u : UUID) : Prop :=
  r.status_code = 204 ∧ (s.call = .delete_list L ∨ s.call = .revoke_share L u)

/-- The request gave list `L` to user `u`: he created it, or got a share of it. -/
def Given (s : Step) (w : World) (r : Response) (L u : UUID) : Prop :=
  r.status_code = 201 ∧
    ((∃ body, s.call = .create_list body) ∧ SignedInAs env s w u ∧ L ∈ list_ids r ∨
      ∃ body, s.call = .create_share L body ∧ body.user_id = u)

/-- What users see after the request is what they saw, less what it took and with what it gave. -/
def Accounted (s : Step) (w : World) (x : Response × World) : Prop :=
  ∀ L u, MaySee x.2.db L u ↔ MaySee w.db L u ∧ ¬ Taken s x.1 L u ∨ Given env s w x.1 L u

section
variable {env} {s : Step} {w : World}

theorem accounted_of_same {x : Response × World} (hsame : ∀ L u, MaySee x.2.db L u ↔ MaySee w.db L u)
    (htaken : ∀ L u, ¬ Taken s x.1 L u) (hgiven : ∀ L u, ¬ Given env s w x.1 L u) :
    Accounted env s w x := by
  intro L u
  simp [hsame, htaken, hgiven]

/-- A request that fails takes and gives nothing. -/
theorem accounted_of_failure (r : Response) (hr : 400 ≤ r.status_code) : Accounted env s w (r, w) := by
  refine accounted_of_same (fun _ _ => Iff.rfl) ?_ ?_
  · rintro L u ⟨hstatus, -⟩
    dsimp only at hstatus
    omega
  · rintro L u ⟨hstatus, -⟩
    dsimp only at hstatus
    omega

/-- Changes that are aside leave every dashboard as it is. -/
theorem may_see_of_aside {db : DB} {cs : List Change} (h : ∀ a ∈ cs, aside a = true) (L u : UUID) :
    MaySee (Prog.applyAll cs db) L u ↔ MaySee db L u := by
  induction cs generalizing db with
  | nil => exact Iff.rfl
  | cons a cs ih =>
    rw [Prog.applyAll_cons, ih fun b hb => h b (List.mem_cons_of_mem _ hb)]
    have ha := h a List.mem_cons_self
    rw [may_see_iff, may_see_iff]
    cases a with
    | set_list_name K name now => rw [apply_eq, owner_of_set_list_name]; rfl
    | insert_list l => cases ha
    | delete_list K => cases ha
    | insert_share x => cases ha
    | set_role K v role => cases ha
    | delete_share K v => cases ha
    | _ => rfl

theorem accounted_of_aside (h : (handler_of env s.call s.request s.draws).Writes Aside)
    (htaken : ∀ r L u, ¬ Taken s r L u) (hgiven : ∀ r L u, ¬ Given env s w r L u) :
    Accounted env s w (perform (handler_of env s.call s.request s.draws) s.draws.now w) := by
  refine accounted_of_same (fun L u => ?_) (htaken _) (hgiven _)
  refine perform_keeps (P := fun db => MaySee db L u ↔ MaySee w.db L u) ?_ h Iff.rfl
  intro st hst db cs hdb hcs
  exact (may_see_of_aside (hst db cs hcs) L u).trans hdb

theorem signed_in_as_iff {user : User} {u : UUID}
    (huser : session_user env s.request.session (s.draws.now 0) w.db = .ok user) :
    SignedInAs env s w u ↔ user.id = u := by
  constructor
  · rintro ⟨v, hv, rfl⟩
    rw [session_user_of_signed_in env hv] at huser
    cases huser
    rfl
  · rintro rfl
    exact ⟨user, signed_in_of_session_user env huser, rfl⟩

theorem accounted_create_list (hw : Roles w.db) {body : ListCreate}
    (hcall : s.call = .create_list body) :
    Accounted env s w (perform (create_list env body s.request s.draws) s.draws.now w) := by
  rw [create_list_effect]
  refine after_session accounted_of_failure fun user huser => ?_
  refine after_attempt accounted_of_failure fun cs hcs => ?_
  obtain ⟨rfl, hfree, -⟩ := insert_list_ok hcs
  intro L u
  have hnew : w.db.lists.find s.draws.row_id = none := hfree
  have hshares : w.db.shares.find (s.draws.row_id, u) = none := by
    rw [Option.eq_none_iff_forall_not_mem]
    intro x hx
    obtain ⟨hmem, hkey⟩ := (Table.find_eq_some_iff _ _ _).mp hx
    simp only [Share.key, Prod.mk.injEq] at hkey
    obtain ⟨o, howner, -⟩ := hw.list x hmem
    rw [hkey.1] at howner
    simp [IsOwner, owner_of, hnew] at howner
  have hafter : owner_of (w.commit [.insert_list (new_list user.id body s.draws)]).db L =
      if s.draws.row_id = L then some user.id else owner_of w.db L := by
    have hfind : (w.commit [.insert_list (new_list user.id body s.draws)]).db.lists.find L =
        if s.draws.row_id = L then some (new_list user.id body s.draws) else w.db.lists.find L :=
      Table.find_insert_of_free hfree L
    unfold owner_of
    rw [hfind]
    split <;> rfl
  have htaken : ∀ r, ¬ Taken s r L u := by
    rintro r ⟨-, h | h⟩ <;> rw [hcall] at h <;> cases h
  have hgiven : Given env s w (json 201 (.list (.of (new_list user.id body s.draws)))) L u ↔
      user.id = u ∧ L = s.draws.row_id := by
    unfold Given
    rw [signed_in_as_iff huser, hcall]
    simp [json, list_ids, list_outs, ListOut.of, new_list]
  rw [hgiven, may_see_iff, may_see_iff, hafter]
  change _ ∨ w.db.shares.find (L, u) ≠ none ↔ _
  by_cases hL : s.draws.row_id = L
  · subst hL
    simp [owner_of, hnew, hshares]
  · simp [hL, htaken, Ne.symm hL]

theorem accounted_delete_list {M : UUID} (hcall : s.call = .delete_list M) :
    Accounted env s w (perform (delete_list env M s.request) s.draws.now w) := by
  rw [delete_list_effect]
  refine after_gate accounted_of_failure fun user role _ _ _ => ?_
  dsimp only
  cases hfind : w.db.lists.find M with
  | none => exact accounted_of_failure _ (by decide)
  | some l =>
    have hid : l.id = M := Table.key_of_find hfind
    intro L v
    have htaken : Taken s (json 204 .empty) L v ↔ M = L := by
      unfold Taken
      rw [hcall]
      simp [json]
    have hgiven : ¬ Given env s w (json 204 .empty) L v := by
      rintro ⟨h, -⟩
      cases h
    simp only [hid, hgiven, htaken, may_see_iff, or_false]
    by_cases hL : M = L
    · subst hL
      have howner : owner_of (w.db.without_list M) M = none := by
        unfold owner_of DB.without_list
        dsimp only
        rw [Table.find_deleteWhere, hfind, Option.filter_some_neg (by simp [hid])]
        rfl
      have hshare : (w.db.without_list M).shares.find (M, v) = none := by
        unfold DB.without_list
        dsimp only
        rw [Table.find_deleteWhere, Option.filter_eq_none_iff]
        intro x hx
        have hkey := Table.key_of_find hx
        simp only [Share.key, Prod.mk.injEq] at hkey
        simp [hkey.1]
      simp [howner, hshare]
    · have honly := only_list_without_list w.db M
      unfold owner_of
      rw [honly.lists L (Ne.symm hL), honly.shares L (Ne.symm hL)]
      simp [hL]

theorem accounted_create_share {M : UUID} {body : ShareCreate} (hcall : s.call = .create_share M body) :
    Accounted env s w (perform (create_share env M body s.request s.draws) s.draws.now w) := by
  rw [create_share_effect]
  refine after_gate accounted_of_failure fun user role _ _ _ => ?_
  dsimp only
  split
  · exact accounted_of_failure _ (by decide)
  cases w.db.users.find body.user_id with
  | none => exact accounted_of_failure _ (by decide)
  | some target =>
    cases w.db.shares.find (M, body.user_id) with
    | some x => exact accounted_of_failure _ (by decide)
    | none =>
      dsimp only
      cases hcs : insert_share (new_share M body s.draws) w.db with
      | error e => exact accounted_of_failure _ (share_error_status e)
      | ok cs =>
        obtain ⟨rfl, -, hfree, -⟩ := insert_share_ok hcs
        intro L u
        have hfind := find_insert_share hfree L u
        have htaken : ∀ r, ¬ Taken s r L u := by
          rintro r ⟨-, h | h⟩ <;> rw [hcall] at h <;> cases h
        have hgiven : Given env s w (json 201 (.share (.of (new_share M body s.draws)))) L u ↔
            (M, body.user_id) = (L, u) := by
          unfold Given
          rw [hcall]
          simp [json]
        rw [hgiven, may_see_iff, may_see_iff]
        change owner_of w.db L = some u ∨
          (Change.apply (.insert_share (new_share M body s.draws)) w.db).shares.find (L, u) ≠ none ↔ _
        rw [hfind]
        by_cases h : (M, body.user_id) = (L, u)
        · simp [new_share, Share.key, h]
        · simp [new_share, Share.key, h, htaken]

theorem accounted_change_role {M v : UUID} {body : ShareUpdate}
    (hcall : s.call = .change_role M v body) :
    Accounted env s w (perform (change_role env M v body s.request) s.draws.now w) := by
  rw [change_role_effect]
  refine after_gate accounted_of_failure fun user role _ _ _ => ?_
  dsimp only
  cases w.db.shares.find (M, v) with
  | none => exact accounted_of_failure _ (by decide)
  | some share =>
    refine after_attempt accounted_of_failure fun cs hcs => ?_
    have hsame : ∀ L u, MaySee (w.commit cs).db L u ↔ MaySee w.db L u := by
      intro L u
      rcases role_statement_ok hcs with rfl | ⟨rfl, -⟩
      · rfl
      · have hfind := Table.find_update_eq_none w.db.shares (share.list_id, share.user_id)
          (fun s => s.with_role body.role) (fun s => s.with_role_key body.role) (L, u)
        rw [may_see_iff, may_see_iff]
        exact or_congr Iff.rfl (not_congr hfind)
    have htaken : ∀ r L u, ¬ Taken s r L u := by
      rintro r L u ⟨-, h | h⟩ <;> rw [hcall] at h <;> cases h
    have hgiven : ∀ r L u, ¬ Given env s w r L u := by
      rintro r L u ⟨-, ⟨⟨b, h⟩, -⟩ | ⟨b, h, -⟩⟩ <;> rw [hcall] at h <;> cases h
    cases (w.commit cs).db.shares.find share.key with
    | none => exact accounted_of_same hsame (htaken _) (hgiven _)
    | some x => exact accounted_of_same hsame (htaken _) (hgiven _)

/-- Whoever had a share is not the owner, so the revocation takes the list from him. -/
theorem accounted_revoke_share (hw : Roles w.db) {M v : UUID} (hcall : s.call = .revoke_share M v) :
    Accounted env s w (perform (revoke_share env M v s.request) s.draws.now w) := by
  rw [revoke_share_effect]
  refine after_gate accounted_of_failure fun user role _ _ _ => ?_
  dsimp only
  cases hfind : w.db.shares.find (M, v) with
  | none => exact accounted_of_failure _ (by decide)
  | some share =>
    have hkey : share.list_id = M ∧ share.user_id = v := by
      simpa [Share.key] using Table.key_of_find hfind
    intro L u
    have htaken : Taken s (json 204 .empty) L u ↔ (L, u) = (M, v) := by
      unfold Taken
      rw [hcall]
      simp [json, eq_comm]
    have hgiven : ¬ Given env s w (json 204 .empty) L u := by
      rintro ⟨h, -⟩
      cases h
    have hnew := @find_delete_share w.db M v L u
    dsimp only
    rw [hkey.1, hkey.2]
    simp only [hgiven, htaken, may_see_iff, or_false]
    change owner_of w.db L = some u ∨
      (Change.apply (.delete_share M v) w.db).shares.find (L, u) ≠ none ↔ _
    rw [hnew]
    by_cases h : (L, u) = (M, v)
    · obtain ⟨rfl, rfl⟩ := Prod.mk.inj h
      have howner : ¬ owner_of w.db L = some u := by
        intro ho
        rw [owner_has_no_share hw ho] at hfind
        cases hfind
      simp [howner]
    · simp [h]

/-- Every request accounts for what users see after it. -/
theorem accounted_step (hw : Roles w.db) (s : Step) : Accounted env s w (s.handle env w) := by
  refine after_dispatch accounted_of_failure ?_
  cases hcall : concerns_roles s.call with
  | false =>
    refine accounted_of_aside (other_handlers_aside env hcall s.request s.draws) ?_ ?_
    · rintro r L u ⟨-, h | h⟩ <;> rw [h] at hcall <;> cases hcall
    · rintro r L u ⟨-, ⟨⟨body, h⟩, -⟩ | ⟨body, h, -⟩⟩ <;> rw [h] at hcall <;> cases hcall
  | true =>
    cases h : s.call with
    | create_list body => exact accounted_create_list hw h
    | delete_list L => exact accounted_delete_list h
    | create_share L body => exact accounted_create_share h
    | change_role L u body => exact accounted_change_role h
    | revoke_share L u => exact accounted_revoke_share hw h
    | _ => rw [h] at hcall; cases hcall

end

/-! ## The law -/

/-- The dashboard of a user lists the lists that he may read, each once. A request takes a
list from it by deleting the list or revoking his share, and gives one to it by creating
the list for him or sharing it with him, and in no other way. -/
theorem dashboard_agrees_with_the_gate (w : World) (h : Arises env w) (u : UUID) (reader : Step)
    (hreader : reader.call = .list_lists) (hu : SignedInAs env reader w u) :
    (reader.handle env w).1.status_code = 200 ∧
      (list_ids (reader.handle env w).1).Nodup ∧
      (∀ (L : UUID) (r : Step), r.call = .get_list L ∨ r.call = .list_items L →
        SignedInAs env r w u →
        (L ∈ list_ids (reader.handle env w).1 ↔ (r.handle env w).1.status_code = 200)) ∧
      ∀ s later : Step, later.call = .list_lists → SignedInAs env later (s.after env w) u →
        ∀ L, (L ∈ list_ids (reader.handle env w).1 →
            (L ∉ list_ids (later.handle env (s.after env w)).1 ↔
              Taken s (s.handle env w).1 L u)) ∧
          (L ∉ list_ids (reader.handle env w).1 →
            (L ∈ list_ids (later.handle env (s.after env w)).1 ↔
              Given env s w (s.handle env w).1 L u)) := by
  have hw := roles_of_arises env h
  obtain ⟨hstatus, hnodup, hids⟩ := dashboard_of_roles hw hreader hu
  refine ⟨hstatus, hnodup, fun L r hr hru => ?_, fun s later hlater hlu L => ?_⟩
  · rw [hids, read_of_roles hw hru hr]
  · obtain ⟨-, -, hids'⟩ := dashboard_of_roles (roles_after env hw s) hlater hlu
    have hstep := (show Accounted env s w (s.handle env w) from accounted_step hw s) L u
    rw [hids, hids']
    constructor
    · intro hsee
      constructor
      · intro hgone
        by_contra htaken
        exact hgone (hstep.mpr (Or.inl ⟨hsee, htaken⟩))
      · intro htaken hsee'
        rcases hstep.mp hsee' with ⟨-, hnot⟩ | hgiven
        · exact hnot htaken
        · have hclash : 204 = 201 := htaken.1.symm.trans hgiven.1
          omega
    · intro hnot
      constructor
      · exact fun hsee => (hstep.mp hsee).resolve_left fun h => hnot h.1
      · exact fun hgiven => hstep.mpr (Or.inr hgiven)

def bob_reads : Step := ⟨.list_lists, signed_in_as "b", .sample "x" 0⟩

/-- Ann revokes the share of Bob, and the list leaves his dashboard. -/
theorem bob_loses_the_list :
    list_ids (bob_reads.handle .sample shared_list).1 = [7] ∧
      7 ∉ list_ids (bob_reads.handle .sample
        ((ann_does (.revoke_share 7 2) 0).after .sample shared_list)).1 := by
  have hlisted : list_ids (bob_reads.handle .sample shared_list).1 = [7] := by decide
  obtain ⟨-, -, -, hsteps⟩ := dashboard_agrees_with_the_gate .sample shared_list
    (arises_of_reachable .sample ⟨_, rfl⟩) 2 bob_reads rfl ⟨_, ⟨"b", rfl, rfl⟩, rfl⟩
  obtain ⟨htaken, -⟩ :=
    hsteps (ann_does (.revoke_share 7 2) 0) bob_reads rfl ⟨_, ⟨"b", rfl, rfl⟩, rfl⟩ 7
  refine ⟨hlisted, (htaken ?_).mpr ⟨by decide, Or.inr rfl⟩⟩
  rw [hlisted]
  simp

end shared_todos.dashboard
