-- The application over whole runs, as its board sees it: a run plays the moves of its
-- requests, only the order of the requests of each list matters, and a request that is
-- sent again does no harm.
import SharedTodos.BoardRefinement

open keyed_table transactions places
open shared_todos.models shared_todos.http shared_todos.sessions shared_todos.authz
open shared_todos.lists shared_todos.items shared_todos.shares
open shared_todos.csrf shared_todos.app shared_todos.accounts shared_todos.authorization
open shared_todos.strangers (responses)
open shared_todos.write_requests (shared_list ann_does bread shopping)
open shared_todos.role_invariant (Roles users_kept roles_after roles_of_reachable)
open shared_todos.dashboard shared_todos.board shared_todos.board_refinement

namespace shared_todos.board_runs

variable (env : Env)

/-! ## The turns of a run -/

/-- The users that have come. -/
def newcomers (db db' : DB) : List UUID :=
  (db'.users.rows.map (·.id)).filter fun u => (db.users.find u).isNone

/-- Who asks, or the answer of a request that does not get so far. -/
def asked (s : Step) (db : DB) : Except Response UUID :=
  match dispatch s.call.method s.call.path s.request with
  | .error e => .error e.response
  | .ok (.answer r) => .error r
  | .ok .forward =>
    match session_user env s.request.session (s.draws.now 0) db with
    | .error e => .error e.response
    | .ok user => .ok user.id

/-- What a request is on the board. -/
inductive Turn where
  /-- A request on the accounts. -/
  | elsewhere (newcomers : List UUID)
  /-- The middleware or the session turns the request away. -/
  | refused (r : Response)
  | plays (u : UUID) (m : BoardMove)

def turn (s : Step) (w : World) : Turn :=
  match move_of s.draws s.call with
  | none => .elsewhere (newcomers w.db (s.after env w).db)
  | some m =>
    match asked env s w.db with
    | .error r => .refused r
    | .ok u => .plays u m

noncomputable def Turn.after (b : Board UUID UUID UUID) : Turn → Board UUID UUID UUID
  | .elsewhere newcomers => { b with known := fun u => b.known u || newcomers.contains u }
  | .refused _ => b
  | .plays u m => b.after limits u m

/-- The response is the one of the turn. Of the accounts the board knows nothing. -/
inductive Tells (b : Board UUID UUID UUID) : Turn → Response → Prop where
  | elsewhere (newcomers : List UUID) (r : Response) : Tells b (.elsewhere newcomers) r
  | refused (r : Response) : Tells b (.refused r) r
  | plays (u : UUID) (m : BoardMove) (r : Response) (answer : Says m (b.told limits u m) r) :
    Tells b (.plays u m) r

/-! ## One request -/

theorem account_statement_same_lists {st : Statement} (h : AccountStatement st) (db₀ : DB) :
    Prog.Keeps (SameLists db₀) st := by
  induction h with
  | insert_user u =>
    intro db cs h0 h
    obtain ⟨rfl, -⟩ := insert_user_ok h
    exact h0.trans ⟨rfl, rfl, rfl⟩
  | update_password_hash id hash =>
    intro db cs h0 h
    obtain ⟨rfl, -⟩ := update_password_hash_ok h
    exact h0.trans ⟨rfl, rfl, rfl⟩
  | update_google_sub id sub =>
    intro db cs h0 h
    obtain ⟨rfl, -⟩ := update_google_sub_ok h
    exact h0.trans ⟨rfl, rfl, rfl⟩
  | insert_session x =>
    intro db cs h0 h
    obtain ⟨rfl, -⟩ := insert_session_ok h
    exact h0.trans ⟨rfl, rfl, rfl⟩
  | delete_sessions p =>
    intro db cs h0 h
    rw [delete_sessions_ok h]
    exact h0.trans ⟨rfl, rfl, rfl⟩
  | insert_reset_token x =>
    intro db cs h0 h
    obtain ⟨rfl, -⟩ := insert_reset_token_ok h
    exact h0.trans ⟨rfl, rfl, rfl⟩
  | update_used_at id now =>
    intro db cs h0 h
    obtain ⟨rfl, -⟩ := update_used_at_ok h
    exact h0.trans ⟨rfl, rfl, rfl⟩
  | also a b _ _ ha hb => exact also_keeps ha hb

section
variable {env} {s : Step} {w : World}

theorem accounts_of_no_move (h : move_of s.draws s.call = none) : s.call.on_lists = false := by
  cases hcall : s.call <;> rw [hcall] at h <;> first | rfl | cases h

/-- A request on the accounts leaves the sheets, and no user goes. -/
theorem board_of_account_request (h : move_of s.draws s.call = none) :
    board_of (s.after env w).db = (Turn.elsewhere (newcomers w.db (s.after env w).db)).after
      (board_of w.db) := by
  have hafter : SameLists w.db (s.after env w).db ∧
      ∀ u, w.db.users.find u ≠ none → (s.after env w).db.users.find u ≠ none := by
    unfold Step.after
    rcases handle_cases env s w with ⟨r, hr, -⟩ | hr
    · rw [hr]
      exact ⟨.refl _, fun u hu => hu⟩
    · rw [hr]
      have hwrites := account_handler_writes env s.request s.draws (accounts_of_no_move h)
      exact ⟨perform_keeps (fun st hst => account_statement_same_lists hst w.db) hwrites (.refl _),
        fun u hu => perform_keeps (P := fun db => db.users.find u ≠ none)
          (fun st _ db cs hdb _ => users_kept hdb) hwrites hu⟩
  obtain ⟨hsame, hkept⟩ := hafter
  have hknown : (board_of (s.after env w).db).known = fun u => (board_of w.db).known u ||
      (newcomers w.db (s.after env w).db).contains u := by
    funext u
    have hmem : u ∈ (s.after env w).db.users.rows.map (·.id) ↔
        (s.after env w).db.users.find u ≠ none := by
      rw [ne_eq, Table.find_eq_none_iff, not_not]
    rw [Bool.eq_iff_iff]
    simp only [board_of, newcomers, List.contains_iff_mem, List.mem_filter, hmem, Bool.or_eq_true,
      Option.isSome_iff_ne_none, Option.isNone_iff_eq_none]
    constructor
    · intro hu
      by_cases h' : w.db.users.find u = none
      · exact Or.inr ⟨hu, h'⟩
      · exact Or.inl h'
    · rintro (hu | ⟨hu, -⟩)
      · exact hkept u hu
      · exact hu
  have hsheets := board_of_same_lists hsame
  simp only [Turn.after]
  rw [← hknown, ← hsheets]

variable (env)

/-- The middleware and the session turn a request away and leave everything as it is, or its
handler plays the move. -/
theorem handle_of_asked {m : BoardMove} (hw : Sound w.db) (hm : move_of s.draws s.call = some m) :
    (∃ r, asked env s w.db = .error r ∧ s.handle env w = (r, w)) ∨
      ∃ u, asked env s w.db = .ok u ∧ Plays w u m (s.handle env w) := by
  unfold asked Step.handle
  cases dispatch s.call.method s.call.path s.request with
  | error e => exact Or.inl ⟨_, rfl, rfl⟩
  | ok verdict =>
    cases verdict with
    | answer r => exact Or.inl ⟨_, rfl, rfl⟩
    | forward =>
      dsimp only
      cases huser : session_user env s.request.session (s.draws.now 0) w.db with
      | ok user => exact Or.inr ⟨_, rfl, handler_plays hw huser hm⟩
      | error e =>
        exact Or.inl ⟨_, rfl, handler_refuses huser (by rw [hm]; simp)⟩

theorem turn_of_step (hw : Sound w.db) :
    board_of (s.after env w).db = (turn env s w).after (board_of w.db) ∧
      Tells (board_of w.db) (turn env s w) (s.handle env w).1 := by
  unfold turn
  cases hm : move_of s.draws s.call with
  | none => exact ⟨board_of_account_request hm, .elsewhere ..⟩
  | some m =>
    unfold Step.after
    rcases handle_of_asked env hw hm with ⟨r, hr, hhandle⟩ | ⟨u, hu, hplays⟩
    · simp only [hr, hhandle]
      exact ⟨rfl, .refused r⟩
    · simp only [hu]
      exact ⟨hplays.board, .plays u m _ hplays.answer⟩

theorem sound_after (hw : Sound w.db) (s : Step) : Sound (s.after env w).db :=
  ⟨valid_after env hw.valid s, roles_after env hw.roles s⟩

end

/-! ## A run -/

def turns : List Step → World → List Turn
  | [], _ => []
  | s :: steps, w => turn env s w :: turns steps (s.after env w)

/-- The turns lead from one board to another, and each is answered as it should be. -/
inductive Replays : Board UUID UUID UUID → List Turn → List Response → Board UUID UUID UUID → Prop
    where
  | start (b : Board UUID UUID UUID) : Replays b [] [] b
  | next {b b' : Board UUID UUID UUID} {ts : List Turn} {rs : List Response} (t : Turn)
      (r : Response) (tells : Tells b t r) (rest : Replays (t.after b) ts rs b') :
    Replays b (t :: ts) (r :: rs) b'

/-- Every run of the application plays its board: the requests leave the board that their
moves leave, and each is answered what its move is told there. -/
theorem the_application_plays_the_board (w : World) (sound : Sound w.db) (steps : List Step) :
    Replays (board_of w.db) (turns env steps w) (responses env steps w)
      (board_of (run env steps w).db) := by
  induction steps generalizing w with
  | nil => exact .start _
  | cons s steps ih =>
    obtain ⟨hboard, htells⟩ := turn_of_step env sound (s := s)
    exact .next _ _ htells (hboard ▸ ih (s.after env w) (sound_after env sound s))

theorem the_shared_list_is_sound : Sound shared_list.db :=
  ⟨valid_of_reachable .sample ⟨_, rfl⟩, roles_of_reachable .sample ⟨_, rfl⟩⟩

/-- Ann goes from one of her lists to the other and back. -/
def back_and_forth : List Step :=
  [ann_does (.create_item 7 bread) 10, ann_does (.create_list shopping) 8,
    ann_does (.delete_item 7 9) 11, ann_does (.create_item 8 bread) 12]

theorem ann_plays_the_board :
    (responses .sample back_and_forth shared_list).map (·.status_code) = [201, 201, 204, 201] ∧
      Replays (board_of shared_list.db) (turns .sample back_and_forth shared_list)
        (responses .sample back_and_forth shared_list)
        (board_of (run .sample back_and_forth shared_list).db) :=
  ⟨by decide,
    the_application_plays_the_board .sample shared_list the_shared_list_is_sound back_and_forth⟩

/-! ## The order of the requests -/

/-- The place on the board that a request is about. -/
def place (s : Step) : Option UUID :=
  match move_of s.draws s.call with
  | some (.on L _) => some L
  | _ => none

/-- Somebody, or nobody, comes with a task to a place. -/
structure Visit where
  place : UUID
  by_whom : Except Response UUID
  task : Task UUID UUID

def visit (db : DB) (s : Step) : Option Visit :=
  match move_of s.draws s.call with
  | some (.on L t) => some ⟨L, asked env s db, t⟩
  | _ => none

/-- The places of a board with the users `known`, where each new card has an id of its own. -/
def places_of (known : UUID → Bool) :
    Machine UUID (Option (Sheet UUID UUID)) Visit
      (Except Response (BoardMove × Except Refusal BoardReply)) where
  place v := v.place
  act v p :=
    match v.by_whom with
    | .error r => (p, .error r)
    | .ok u =>
      match v.task.act limits known (fun _ => true) u v.place p with
      | .error e => (p, .ok (.on v.place v.task, .error e))
      | .ok x => (x.1, .ok (.on v.place v.task, .ok x.2))

/-- The response gives the answer. -/
inductive Gives : Except Response (BoardMove × Except Refusal BoardReply) → Response → Prop where
  | refused (r : Response) : Gives (.error r) r
  | plays (m : BoardMove) (outcome : Except Refusal BoardReply) (r : Response)
      (answer : Says m outcome r) : Gives (.ok (m, outcome)) r

/-- The responses to the requests about a place. -/
def told (L : UUID) : List Step → World → List Response
  | [], _ => []
  | s :: steps, w =>
    if place s = some L then (s.handle env w).1 :: told L steps (s.after env w)
    else told L steps (s.after env w)

/-- The requests of a run draw ids that no item has. -/
structure FreshItems (steps : List Step) (db : DB) : Prop where
  apart : (steps.map (·.draws.row_id)).Nodup
  new : ∀ s ∈ steps, db.items.find s.draws.row_id = none

section
variable {env} {s : Step} {w : World} {db₀ : DB}

theorem asked_congr {db : DB} (h : SameAccounts db₀ db) (s : Step) :
    asked env s db = asked env s db₀ := by
  have hsession : ∀ session now,
      session_user env session now db = session_user env session now db₀ := by
    intro session now
    unfold session_user session_users
    rw [h.users, h.sessions]
  unfold asked
  simp only [hsession]

/-- A new card gets the id that the request draws. -/
theorem new_card_of_move {L i : UUID} {t : Task UUID UUID}
    (hm : move_of s.draws s.call = some (.on L t)) (hi : t.new_card = some i) :
    i = s.draws.row_id := by
  cases hcall : s.call <;> rw [hcall] at hm <;> cases hm <;> cases hi
  rfl

theorem fresh_after (hw : Sound w.db) {i : UUID} (hfree : w.db.items.find i = none)
    (hi : i ≠ s.draws.row_id) (hs : s.call.on_lists = true) :
    (s.after env w).db.items.find i = none := by
  have hboard := (turn_of_step env hw (s := s)).1
  rw [← free_iff (sound_after env hw s).valid, Board.free_eq_true, hboard]
  rw [← free_iff hw.valid, Board.free_eq_true] at hfree
  unfold turn
  cases hm : move_of s.draws s.call with
  | none =>
    rw [accounts_of_no_move hm] at hs
    cases hs
  | some m =>
    cases asked env s w.db with
    | error r => exact hfree
    | ok u =>
      refine free_after hfree u fun L t hmove hnew => hi ?_
      exact new_card_of_move (hmove ▸ hm) hnew

/-- A request works at its place, and at no other one. -/
theorem visit_of_step (hw : Sound w.db) (hsame : SameAccounts db₀ w.db)
    (hfree : w.db.items.find s.draws.row_id = none) (hs : s.call.on_lists = true) :
    visit env db₀ s = none ∧ place s = none ∧ sheet_at (s.after env w).db = sheet_at w.db ∨
      ∃ v, visit env db₀ s = some v ∧ place s = some v.place ∧
        sheet_at (s.after env w).db =
          (places_of (board_of db₀).known).step (sheet_at w.db) v ∧
        Gives ((places_of (board_of db₀).known).act v (sheet_at w.db v.place)).2
          (s.handle env w).1 := by
  have hknown : (board_of w.db).known = (board_of db₀).known := by
    unfold board_of
    rw [hsame.users]
  unfold visit place
  cases hm : move_of s.draws s.call with
  | none =>
    rw [accounts_of_no_move hm] at hs
    cases hs
  | some m =>
    have hturn := turn_of_step env hw (s := s)
    cases m with
    | list_lists =>
      refine Or.inl ⟨rfl, rfl, ?_⟩
      rcases handle_of_asked env hw hm with ⟨r, -, hhandle⟩ | ⟨u, -, hplays⟩
      · unfold Step.after
        rw [hhandle]
      · exact congrArg Board.sheets hplays.board
    | on L t =>
      refine Or.inr ⟨_, rfl, rfl, ?_⟩
      have hact : ∀ u, t.act limits (board_of w.db).known (board_of w.db).free u L
          ((board_of w.db).sheets L) =
          t.act limits (board_of db₀).known (fun _ => true) u L (sheet_at w.db L) := by
        intro u
        rw [hknown]
        refine act_congr_free (fun i hi => ?_) u _
        rw [new_card_of_move hm hi]
        exact (free_iff hw.valid _).mpr hfree
      have hasked : asked env s w.db = asked env s db₀ := asked_congr hsame s
      rcases handle_of_asked env hw hm with ⟨r, hr, hhandle⟩ | ⟨u, hu, hplays⟩
      · unfold Step.after
        rw [hhandle, ← hasked, hr]
        exact ⟨(Function.update_eq_self _ _).symm, .refused r⟩
      · have hsheets :
            sheet_at (s.after env w).db = ((board_of w.db).after limits u (.on L t)).sheets :=
          congrArg Board.sheets hplays.board
        have hanswer := hplays.answer
        simp only [Board.told, Board.play, hact] at hanswer
        simp only [Board.after, Board.play, hact] at hsheets
        rw [← hasked, hu]
        unfold Machine.step places_of
        dsimp only
        cases hdone : t.act limits (board_of db₀).known (fun _ => true) u L (sheet_at w.db L) with
        | error e =>
          rw [hdone] at hanswer hsheets
          exact ⟨hsheets.trans (Function.update_eq_self _ _).symm, .plays _ _ _ hanswer⟩
        | ok x =>
          rw [hdone] at hanswer hsheets
          exact ⟨hsheets, .plays _ _ _ hanswer⟩

variable (env) in
/-- A run of requests on the lists is a run of their visits. -/
theorem visits_of_run {steps : List Step} (hlists : ∀ s ∈ steps, s.call.on_lists = true)
    (hw : Sound w.db) (hsame : SameAccounts db₀ w.db) (hfresh : FreshItems steps w.db) :
    sheet_at (run env steps w).db =
        (places_of (board_of db₀).known).run (steps.filterMap (visit env db₀)) (sheet_at w.db) ∧
      SameAccounts db₀ (run env steps w).db ∧
      ∀ L, List.Forall₂ Gives
        ((places_of (board_of db₀).known).answers L (steps.filterMap (visit env db₀))
          (sheet_at w.db)) (told env L steps w) := by
  induction steps generalizing w with
  | nil => exact ⟨rfl, hsame, fun L => .nil⟩
  | cons s steps ih =>
    have hs := hlists s List.mem_cons_self
    have hapart : s.draws.row_id ∉ steps.map (·.draws.row_id) ∧
        (steps.map (·.draws.row_id)).Nodup := List.nodup_cons.mp hfresh.apart
    have hrest : FreshItems steps (s.after env w).db := by
      refine ⟨hapart.2, fun s' hs' => ?_⟩
      refine fresh_after hw (hfresh.new s' (List.mem_cons_of_mem _ hs')) (fun h => ?_) hs
      exact hapart.1 (h ▸ List.mem_map_of_mem hs')
    obtain ⟨hsheets, haccounts, htold⟩ := ih (fun s' hs' => hlists s' (List.mem_cons_of_mem _ hs'))
      (sound_after env hw s) (hsame.trans (same_accounts_of_list_call env hs w)) hrest
    rcases visit_of_step hw hsame (hfresh.new s List.mem_cons_self) hs with
      ⟨hvisit, hplace, hstep⟩ | ⟨v, hvisit, hplace, hstep, hgives⟩
    · rw [List.filterMap_cons_none hvisit, ← hstep]
      refine ⟨hsheets, haccounts, fun L => ?_⟩
      unfold told
      rw [if_neg (by rw [hplace]; simp)]
      exact htold L
    · rw [List.filterMap_cons_some hvisit]
      rw [hstep] at hsheets htold
      refine ⟨hsheets, haccounts, fun L => ?_⟩
      unfold told
      by_cases hL : v.place = L
      · subst hL
        rw [if_pos hplace, Machine.answers_cons (by rfl)]
        exact .cons hgives (htold _)
      · rw [if_neg (by rw [hplace]; simpa using hL), Machine.answers_cons_elsewhere hL]
        exact htold L

theorem place_of_visit {v : Visit} (h : visit env db₀ s = some v) : place s = some v.place := by
  unfold visit at h
  unfold place
  split at h <;> cases h
  simp [*]

theorem place_of_no_visit (h : visit env db₀ s = none) : place s = none := by
  unfold visit at h
  unfold place
  split at h
  · cases h
  · rfl

/-- The visits of a place are those of the requests about it. -/
theorem here_of_visits (known : UUID → Bool) (L : UUID) (steps : List Step) :
    (places_of known).here L (steps.filterMap (visit env db₀)) =
      (steps.filter fun s => decide (place s = some L)).filterMap (visit env db₀) := by
  induction steps with
  | nil => rfl
  | cons s steps ih =>
    cases hvisit : visit env db₀ s with
    | none =>
      rw [List.filterMap_cons_none hvisit, ih, List.filter_cons_of_neg]
      simp [place_of_no_visit hvisit]
    | some v =>
      have hplace := place_of_visit hvisit
      rw [List.filterMap_cons_some hvisit]
      by_cases hL : v.place = L
      · rw [Machine.here_cons hL, ih, List.filter_cons_of_pos (by simp [hplace, hL]),
          List.filterMap_cons_some hvisit]
      · rw [Machine.here_cons_elsewhere hL, ih, List.filter_cons_of_neg (by simp [hplace, hL])]

end

/-- The responses are the same, but perhaps for times and for the order of rows. -/
inductive Alike (r r' : Response) : Prop where
  | refused (same : r = r')
  | plays (m : BoardMove) (outcome : Except Refusal BoardReply) (first : Says m outcome r)
      (second : Says m outcome r')

theorem alike_of_gives {a : Except Response (BoardMove × Except Refusal BoardReply)}
    {r r' : Response} (h : Gives a r) (h' : Gives a r') : Alike r r' := by
  cases h with
  | refused => cases h'; exact .refused rfl
  | plays m outcome _ answer =>
    cases h' with
    | plays _ _ _ answer' => exact .plays m outcome answer answer'

theorem all_alike {as : List (Except Response (BoardMove × Except Refusal BoardReply))}
    {rs rs' : List Response} (h : List.Forall₂ Gives as rs) (h' : List.Forall₂ Gives as rs') :
    List.Forall₂ Alike rs rs' := by
  induction h generalizing rs' with
  | nil => cases h'; exact .nil
  | cons ha _ ih =>
    cases h' with
    | cons ha' hrest => exact .cons (alike_of_gives ha ha') (ih hrest)

/-- Two runs with the same requests on each list, in the same order on each list, leave the same
board and answer each of them alike, however the requests on different lists stand to each
other. -/
theorem only_the_order_on_each_list_matters (w : World) (sound : Sound w.db) (a b : List Step)
    (lists_a : ∀ s ∈ a, s.call.on_lists = true) (lists_b : ∀ s ∈ b, s.call.on_lists = true)
    (fresh_a : FreshItems a w.db) (fresh_b : FreshItems b w.db)
    (same : ∀ L, a.filter (fun s => decide (place s = some L)) =
      b.filter fun s => decide (place s = some L)) :
    board_of (run env a w).db = board_of (run env b w).db ∧
      ∀ L, List.Forall₂ Alike (told env L a w) (told env L b w) := by
  obtain ⟨hsheets, haccounts, htold⟩ :=
    visits_of_run env lists_a sound (.refl w.db) fresh_a
  obtain ⟨hsheets', haccounts', htold'⟩ :=
    visits_of_run env lists_b sound (.refl w.db) fresh_b
  have hhere : ∀ L, (places_of (board_of w.db).known).here L (a.filterMap (visit env w.db)) =
      (places_of (board_of w.db).known).here L (b.filterMap (visit env w.db)) := by
    intro L
    rw [here_of_visits, here_of_visits, same L]
  refine ⟨?_, fun L => ?_⟩
  · unfold board_of
    rw [haccounts.users, haccounts'.users, hsheets, hsheets', Machine.run_eq_of_here hhere]
  · have htoldL := htold L
    rw [Machine.answers_eq_of_here (hhere L)] at htoldL
    exact all_alike htoldL (htold' L)

/-- The same, one list after the other. -/
def list_by_list : List Step :=
  [ann_does (.create_list shopping) 8, ann_does (.create_item 8 bread) 12,
    ann_does (.create_item 7 bread) 10, ann_does (.delete_item 7 9) 11]

theorem ann_may_take_the_lists_one_by_one :
    ((told .sample 7 back_and_forth shared_list).map (·.status_code) = [201, 204] ∧
      (told .sample 8 back_and_forth shared_list).map (·.status_code) = [201, 201]) ∧
      board_of (run .sample back_and_forth shared_list).db =
        board_of (run .sample list_by_list shared_list).db := by
  have hsame : ∀ L, back_and_forth.filter (fun s => decide (place s = some L)) =
      list_by_list.filter fun s => decide (place s = some L) := by
    intro L
    by_cases h7 : L = 7
    · subst h7
      rfl
    by_cases h8 : L = 8
    · subst h8
      rfl
    have hnone : ∀ steps : List Step, (∀ s ∈ steps, place s = some 7 ∨ place s = some 8) →
        steps.filter (fun s => decide (place s = some L)) = [] := by
      intro steps hplaces
      rw [List.filter_eq_nil_iff]
      intro s hs
      rw [decide_eq_true_eq]
      rcases hplaces s hs with hs | hs
      · rw [hs, Option.some.injEq]
        exact Ne.symm h7
      · rw [hs, Option.some.injEq]
        exact Ne.symm h8
    rw [hnone back_and_forth (by decide), hnone list_by_list (by decide)]
  refine ⟨by decide, (only_the_order_on_each_list_matters .sample shared_list
    the_shared_list_is_sound back_and_forth list_by_list (by decide) (by decide) ⟨by decide, by decide⟩
    ⟨by decide, by decide⟩ hsame).1⟩

/-! ## A request that is sent again -/

/-- The request adds a row each time that it is sent. -/
def adds_row : Call → Bool
  | .create_list _ | .create_item _ _ => true
  | _ => false

/-- What the second one of two requests is answered, after the first one was answered `r`. -/
def AnsweredAgain (call : Call) (r r' : Response) : Prop :=
  if call.method = "DELETE" then r' = response_of .not_found
  else if call.method = "POST" then r' = response_of .already_shared
  else Alike r r'

section
variable {env} {s : Step} {db : DB} {w : World} {u : UUID}

theorem asked_eq_ok (h : asked env s db = .ok u) :
    dispatch s.call.method s.call.path s.request = .ok .forward ∧
      ∃ user, session_user env s.request.session (s.draws.now 0) db = .ok user ∧ user.id = u := by
  unfold asked at h
  split at h
  · cases h
  · cases h
  · rename_i hdispatch
    split at h
    · cases h
    · rename_i user huser
      cases h
      exact ⟨hdispatch, user, huser, rfl⟩

theorem asked_of_session (hdispatch : dispatch s.call.method s.call.path s.request = .ok .forward)
    {user : User} (huser : session_user env s.request.session (s.draws.now 0) db = .ok user) :
    asked env s db = .ok user.id := by
  unfold asked
  rw [hdispatch]
  dsimp only
  rw [huser]

theorem status_of_asked {r : Response} (h : asked env s db = .error r) : 400 ≤ r.status_code := by
  unfold asked at h
  split at h
  · rename_i e he
    cases h
    rw [dispatch_error he]
    decide
  · rename_i r' hr
    cases h
    obtain ⟨text, rfl⟩ := dispatch_answer hr
    simp [json]
  · split at h
    · rename_i e he
      cases h
      exact write_requests.session_user_error he
    · cases h

theorem status_of_refusal (e : Refusal) : 400 ≤ (response_of e).status_code := by
  cases e <;> decide

/-- The move does not depend on what the request draws. -/
theorem move_of_draws {call : Call} (h : adds_row call = false) (d d' : Draws) :
    move_of d call = move_of d' call := by
  cases call <;> first | rfl | cases h

theorem repeatable_of_call {call : Call} (h : adds_row call = false) {d : Draws} {m : BoardMove}
    (hm : move_of d call = some m) : m.repeatable = true := by
  cases call <;> cases hm <;> first | rfl | cases h

/-- The answer to the second move is the one of its method. -/
theorem answered_again {call : Call} (h : adds_row call = false) {d : Draws} {m : BoardMove}
    (hm : move_of d call = some m) {reply : BoardReply} {r r' : Response}
    (hr : Says m (.ok reply) r) (hr' : Says m (m.again reply) r') : AnsweredAgain call r r' := by
  cases call <;> cases hm <;> try cases h
  case delete_list | delete_item | revoke_share =>
    cases hr'
    rfl
  case create_share =>
    cases hr'
    rfl
  all_goals exact .plays _ _ hr hr'

end

/-- Whoever sends a request on the lists again, after it succeeded and while his session lasts,
changes nothing more: what he changed or read he is shown once more, what he deleted is not
found, and whom he invited has access already. Only a new list or item is made a second time. -/
theorem a_repeated_request_does_no_harm (w : World) (sound : Sound w.db) (s s' : Step)
    (call : s'.call = s.call) (request : s'.request = s.request) (lists : s.call.on_lists = true)
    (adds_nothing : adds_row s.call = false) (success : (s.handle env w).1.status_code < 400)
    (u : UUID) (session : SignedInAs env s w u) (session' : SignedInAs env s' (s.after env w) u) :
    board_of (s'.after env (s.after env w)).db = board_of (s.after env w).db ∧
      AnsweredAgain s.call (s.handle env w).1 (s'.handle env (s.after env w)).1 := by
  obtain ⟨user, huser, hid⟩ := session_user_of_signed_in_as session
  obtain ⟨user', huser', hid'⟩ := session_user_of_signed_in_as session'
  cases hm : move_of s.draws s.call with
  | none =>
    rw [accounts_of_no_move hm] at lists
    cases lists
  | some m =>
    have hm' : move_of s'.draws s'.call = some m := by
      rw [call, move_of_draws adds_nothing s'.draws s.draws, hm]
    have hrepeatable := repeatable_of_call adds_nothing hm
    rcases handle_of_asked env sound hm with ⟨r, hr, hhandle⟩ | ⟨v, hv, hplays⟩
    · have hstatus := status_of_asked hr
      rw [hhandle] at success
      dsimp only at success
      omega
    obtain ⟨hforward, x, hx, rfl⟩ := asked_eq_ok hv
    rw [huser] at hx
    cases hx
    have hasked' : asked env s' (s.after env w).db = .ok user.id := by
      rw [hid, ← hid']
      refine asked_of_session ?_ huser'
      rw [call, request]
      exact hforward
    rcases handle_of_asked env (sound_after env sound s) hm' with ⟨r, hr, -⟩ | ⟨v', hv', hplays'⟩
    · rw [hasked'] at hr
      cases hr
    rw [hasked'] at hv'
    cases hv'
    obtain ⟨hboard, hanswer⟩ := hplays
    obtain ⟨hboard', hanswer'⟩ := hplays'
    cases hplay : (board_of w.db).play limits user.id m with
    | error e =>
      simp only [Board.told, hplay, Except.map] at hanswer
      have hstatus := status_of_refusal e
      generalize (s.handle env w).1 = r at hanswer success
      cases hanswer
      omega
    | ok x =>
      obtain ⟨b', reply⟩ := x
      have hafter : board_of (s.after env w).db = b' := by
        refine hboard.trans ?_
        simp [Board.after, hplay]
      have hagain := play_again hplay hrepeatable
      rw [hafter] at hboard' hanswer' ⊢
      simp only [Board.told, hplay, Except.map] at hanswer
      simp only [Board.told, hagain] at hanswer'
      constructor
      · refine hboard'.trans ?_
        simp only [Board.after, hagain]
        cases m.again reply <;> rfl
      · refine answered_again adds_nothing hm hanswer ?_
        cases hreply : m.again reply with
        | error e => rw [hreply] at hanswer'; exact hanswer'
        | ok r => rw [hreply] at hanswer'; exact hanswer'

/-- Ann deletes the milk twice. -/
def ann_deletes_the_milk : Step := ann_does (.delete_item 7 9) 0

theorem ann_may_delete_twice :
    (ann_deletes_the_milk.handle .sample shared_list).1.status_code = 204 ∧
      AnsweredAgain (.delete_item 7 9) (ann_deletes_the_milk.handle .sample shared_list).1
        (ann_deletes_the_milk.handle .sample
          (ann_deletes_the_milk.after .sample shared_list)).1 := by
  have hstatus : (ann_deletes_the_milk.handle .sample shared_list).1.status_code = 204 := by decide
  refine ⟨hstatus, (a_repeated_request_does_no_harm .sample shared_list the_shared_list_is_sound
    ann_deletes_the_milk ann_deletes_the_milk rfl rfl rfl rfl (by rw [hstatus]; decide) 1 ?_ ?_).2⟩
  · exact ⟨_, ⟨"a", rfl, rfl⟩, rfl⟩
  · exact ⟨_, ⟨"a", rfl, rfl⟩, rfl⟩

end shared_todos.board_runs
