-- The server with many requests on their way: their handlers side by side on
-- one database, each SELECT, flush and COMMIT a step of its own. What a
-- handler computes between two statements happens with the statement before.
import SharedTodos.Sessions
import SharedTodos.Library.Interleave

open keyed_table transactions
open shared_todos.models shared_todos.http shared_todos.http.handler shared_todos.sessions

namespace shared_todos.server

abbrev Server (ι : Type) := System ι DB Change DbError RateStore Exn Response

abbrev Running := Thread DB Change DbError RateStore Exn Response

variable {ι : Type}

/-- The server at the arrival of the requests. -/
def serve (w : World) (handler : ι → Handler Response) : Server ι :=
  ⟨w.db, w.store, fun i => ⟨handler i, [], []⟩⟩

/-- The response of a request that is done. -/
def answer (c : Server ι) (i : ι) : Option Response :=
  match (c.threads i).prog with
  | .ret r => some r
  | .raise e => some e.response
  | _ => none

def status (c : Server ι) (i : ι) : Option Nat := (answer c i).map Response.status_code

theorem answer_ret {c : Server ι} {i : ι} {r : Response} (h : (c.threads i).prog = .ret r) :
    answer c i = some r := by
  unfold answer
  rw [h]

theorem answer_raise {c : Server ι} {i : ι} {e : Exn} (h : (c.threads i).prog = .raise e) :
    answer c i = some e.response := by
  unfold answer
  rw [h]

theorem answer_of_not_done {c : Server ι} {i : ι} (h : (c.threads i).prog.done = false) :
    answer c i = none := by
  unfold answer
  cases hp : (c.threads i).prog with
  | ret r => rw [hp] at h; cases h
  | raise e => rw [hp] at h; cases h
  | _ => rfl

/-! ## The steps of the parts of a handler -/

section
variable [DecidableEq ι] [Fintype ι] {c c' : Server ι} {i : ι} {now : Time}

theorem step_execute {β : Type} {q : DB → β} {k : β → Handler Response}
    (hp : (c.threads i).prog = (execute q >>= k)) (h : c.step i now = some c') :
    c' = c.put i ⟨k (q (c.view i)), (c.threads i).pending, c.view i :: (c.threads i).reads⟩ :=
  System.step_query hp h

theorem step_utc_now {k : Time → Handler Response} (hp : (c.threads i).prog = (utc_now >>= k))
    (h : c.step i now = some c') :
    c' = c.put i ⟨k now, (c.threads i).pending, (c.threads i).reads⟩ :=
  System.step_atomic hp h

theorem step_flush {st : Statement} {k : Handler Response}
    (hp : (c.threads i).prog = (do flush st; k)) (h : c.step i now = some c') :
    (∃ e, st (c.view i) = .error e ∧ c' = c.put i ⟨.raise (.db e), [], (c.threads i).reads⟩) ∨
    ∃ cs, st (c.view i) = .ok cs ∧ c.waits i cs = false ∧
      c' = c.put i ⟨k, (c.threads i).pending ++ cs, (c.threads i).reads⟩ :=
  System.step_write hp h

/-- The first statement of a transaction, when the committed state accepts it. -/
theorem step_flush_accepted {st : Statement} {cs : List Change} {k : Handler Response}
    (hp : (c.threads i).prog = (do flush st; k)) (hpending : (c.threads i).pending = [])
    (hst : st c.db = .ok cs) (h : c.step i now = some c') :
    c' = c.put i ⟨k, cs, (c.threads i).reads⟩ := by
  rw [← System.view_of_nothing_pending hpending] at hst
  rcases step_flush hp h with ⟨e, he, -⟩ | ⟨ds, hds, -, rfl⟩
  · rw [hst] at he
    cases he
  · rw [hst] at hds
    cases hds
    rw [hpending]
    rfl

theorem step_commit {k : Handler Response} (hp : (c.threads i).prog = (do commit; k))
    (h : c.step i now = some c') :
    c' = { c.put i ⟨k, [], (c.threads i).reads⟩ with db := c.view i } :=
  System.step_commit hp h

/-- The commit of one change. -/
theorem step_commit_one {a : Change} {k : Handler Response}
    (hp : (c.threads i).prog = (do commit; k)) (hpending : (c.threads i).pending = [a])
    (h : c.step i now = some c') :
    c' = { c.put i ⟨k, [], (c.threads i).reads⟩ with db := a.apply c.db } := by
  have hview : c.view i = a.apply c.db := by
    unfold System.view
    rw [hpending]
    rfl
  rw [step_commit hp h, hview]

theorem step_refresh {ρ : Type} {q : DB → Option ρ} {k : ρ → Handler Response}
    (hp : (c.threads i).prog = (refresh q >>= k)) (h : c.step i now = some c') :
    (q (c.view i) = none ∧ c' = c.put i
      ⟨.raise .invalid_request, (c.threads i).pending, c.view i :: (c.threads i).reads⟩) ∨
    ∃ r, q (c.view i) = some r ∧ c' = c.put i
      ⟨k r, (c.threads i).pending, c.view i :: (c.threads i).reads⟩ := by
  have hs := System.step_query hp h
  cases hq : q (c.view i) with
  | none =>
    rw [hq] at hs
    exact Or.inl ⟨rfl, hs⟩
  | some r =>
    rw [hq] at hs
    exact Or.inr ⟨r, rfl, hs⟩

end

/-! ## The end of a handler that opens a session -/

section
variable (env : Env)

def commit_and_answer (r : Response) : Handler Response := do
  commit
  return r

def insert_and_answer (s : Session) (r : Response) : Handler Response := do
  flush (insert_session s)
  commit_and_answer r

/-- It opens a session with the first token that the request has drawn. -/
def open_and_answer (user_id : UUID) (d : Draws) (reply : String → Response) :
    Handler Response := do
  let token ← create_session env user_id (d.token_urlsafe 0) d.session_id
  return reply token

/-- The session that such a handler opens. -/
def own_session (user_id : UUID) (d : Draws) (now : Time) : Session :=
  new_session env user_id (d.token_urlsafe 0) d.session_id now

/-- The parts of `create_session`. -/
theorem open_and_answer_eq (user_id : UUID) (d : Draws) (reply : String → Response) :
    open_and_answer env user_id d reply = utc_now >>= fun now =>
      insert_and_answer (own_session env user_id d now) (reply (d.token_urlsafe 0)) := by
  unfold open_and_answer create_session insert_and_answer commit_and_answer own_session
  simp only [Prog.bind_assoc]
  rfl

end

end shared_todos.server
