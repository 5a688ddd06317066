-- Two edits of one item side by side. The flush of an edit sets the columns that it
-- changes against the row that it loaded, so an assignment of a loaded value is lost
-- when the other edit has changed the column since. The outcome is that of one edit
-- after the other exactly when no such loss mixes the two.
import SharedTodos.WriteRequests
import SharedTodos.Library.DirtyColumn
import Mathlib.Data.Fintype.Sum
import Mathlib.Data.List.ReduceOption

open keyed_table transactions dirty_column
open shared_todos.models shared_todos.http shared_todos.http.handler
open shared_todos.sessions shared_todos.authz shared_todos.items
open shared_todos.server shared_todos.write_requests

namespace shared_todos.item_races

variable (env : Env)

/-! ## The columns of an item -/

/-- The columns that an edit may set. -/
structure Values where
  content : String
  completed : Bool
  order : Int
deriving DecidableEq

def values (item : Item) : Values := ⟨item.content, item.completed, item.order⟩

/-- The columns after an edit that runs alone. -/
def assign (body : ItemUpdate) (v : Values) : Values :=
  ⟨body.content.getD v.content, body.completed.getD v.completed, body.order.getD v.order⟩

/-- The columns after an edit that loaded other ones. -/
def merge (body : ItemUpdate) (loaded stored : Values) : Values :=
  ⟨(dirty body.content loaded.content).getD stored.content,
    (dirty body.completed loaded.completed).getD stored.completed,
    (dirty body.order loaded.order).getD stored.order⟩

/-- The second edit sets back no column that it loaded and that has changed since. -/
def KeepsAll (second : ItemUpdate) (loaded stored : Values) : Prop :=
  Kept second.content loaded.content stored.content ∧
    Kept second.completed loaded.completed stored.completed ∧
    Kept second.order loaded.order stored.order

/-- A column that both edits set and that the second one changes, they set alike. -/
def AgreesOnAll (first second : ItemUpdate) (loaded : Values) : Prop :=
  Agreed first.content second.content loaded.content ∧
    Agreed first.completed second.completed loaded.completed ∧
    Agreed first.order second.order loaded.order

instance (second : ItemUpdate) (loaded stored : Values) :
    Decidable (KeepsAll second loaded stored) := inferInstanceAs (Decidable (_ ∧ _ ∧ _))

instance (first second : ItemUpdate) (loaded : Values) :
    Decidable (AgreesOnAll first second loaded) := inferInstanceAs (Decidable (_ ∧ _ ∧ _))

theorem values_eq {a b : Values} :
    a = b ↔ a.content = b.content ∧ a.completed = b.completed ∧ a.order = b.order := by
  constructor
  · rintro rfl
    exact ⟨rfl, rfl, rfl⟩
  · rintro ⟨h₁, h₂, h₃⟩
    cases a
    cases b
    simp_all

theorem merge_loaded (body : ItemUpdate) (v : Values) : merge body v v = assign body v := by
  unfold merge assign
  rw [dirty_getD, dirty_getD, dirty_getD]

theorem merge_last_iff (second : ItemUpdate) (loaded stored : Values) :
    merge second loaded stored = assign second stored ↔ KeepsAll second loaded stored := by
  rw [values_eq]
  exact and_congr (second_last_iff _ _ _)
    (and_congr (second_last_iff _ _ _) (second_last_iff _ _ _))

theorem merge_first_iff (first second : ItemUpdate) (loaded : Values) :
    merge second loaded (assign first loaded) = assign first (assign second loaded) ↔
      AgreesOnAll first second loaded := by
  rw [values_eq]
  exact and_congr (second_first_iff _ _ _)
    (and_congr (second_first_iff _ _ _) (second_first_iff _ _ _))

/-- The flush of an edit, with the columns that it loaded, on the columns that are stored. -/
theorem values_after_flush (db : DB) {loaded : Item} {body : ItemUpdate} {now : Time} {db' : DB}
    {cs : List Change}
    (h : update_item_row loaded.id (changed_columns loaded body) now db' = .ok cs) :
    ((Prog.applyAll cs db).items.find loaded.id).map values =
      (db.items.find loaded.id).map (fun item => merge body (values loaded) (values item)) := by
  rcases update_item_row_ok h with ⟨rfl, hnone⟩ | ⟨rfl, -⟩
  · rw [Prog.applyAll_nil]
    congr 1
    funext item
    -- The edit changes no column of the row that it loaded.
    have h₁ : dirty body.content (values loaded).content = none := congrArg ItemPatch.content hnone
    have h₂ : dirty body.completed (values loaded).completed = none :=
      congrArg ItemPatch.completed hnone
    have h₃ : dirty body.order (values loaded).order = none := congrArg ItemPatch.order hnone
    unfold merge
    rw [h₁, h₂, h₃]
    rfl
  · simp only [applyAll_one, Change.apply, Table.find_update, if_true, Option.map_map]
    rfl

/-- What an edit leaves that runs alone and is answered with a 200. -/
theorem edited_alone (list_id item_id : UUID) (body : ItemUpdate) (request : Request) (d : Draws)
    (clock : Nat → Time) (w : World) {item : Item} (hitem : w.db.items.find item_id = some item)
    (hstatus : (perform (update_item env list_id item_id body request d) clock w).1.status_code =
      200) :
    ((perform (update_item env list_id item_id body request d) clock w).2.db.items.find
      item_id).map values = some (assign body (values item)) := by
  rw [update_item_effect] at hstatus ⊢
  cases hgate : gate env .update_item list_id request.session (clock 0) w.db with
  | error e =>
    have herror := gate_error hgate
    rw [hgate, proceed_error] at hstatus
    exact absurd hstatus (by dsimp only; omega)
  | ok perm =>
    rw [hgate] at hstatus
    dsimp only [proceed_ok] at hstatus ⊢
    rw [hitem] at hstatus ⊢
    dsimp only at hstatus ⊢
    split at hstatus
    · cases hstatus
    · rename_i hlist
      rw [if_neg hlist]
      have hid := Table.key_of_find hitem
      cases hst : update_item_row item.id (changed_columns item body) d.db_now w.db with
      | error e =>
        rw [attempt_error hst] at hstatus
        cases hstatus
      | ok cs =>
        rw [attempt_ok hst]
        have hvalues := values_after_flush w.db hst
        rw [hid, hitem, Option.map_some, merge_loaded] at hvalues
        rw [← hvalues]
        cases hrow : (w.commit cs).db.items.find item.id with
        | none => rfl
        | some row => rfl

/-! ## Two edits -/

variable {ι : Type}

/-- Two edits of one item, beside other requests. -/
structure Edits (ι : Type) where
  world : World
  /-- The row at the start. -/
  item : Item
  list_id : Bool → UUID
  body : Bool → ItemUpdate
  request : Bool → Request
  draws : Bool → Draws
  others : ι → Handler Response

/-- The requests at their arrival. -/
def edits (e : Edits ι) : Server (Bool ⊕ ι) :=
  serve e.world fun
    | .inl b => update_item env (e.list_id b) e.item.id (e.body b) (e.request b) (e.draws b)
    | .inr j => e.others j

namespace Edits

variable (e : Edits ι)

/-- One of the edits. -/
def edit (b : Bool) : WriteRequest :=
  ⟨e.list_id b, .update_item e.item.id (e.body b), e.request b, e.draws b⟩

/-- The columns of the item. -/
def stored (db : DB) : Option Values := (db.items.find e.item.id).map values

def start : Values := values e.item

/-- The columns after one edit. -/
def once (b : Bool) : Values := assign (e.body b) e.start

/-- The columns after both edits, one after the other. -/
def serial (first : Bool) : Values := assign (e.body !first) (e.once first)

/-- What the edit loaded: its last read shows it. -/
def loaded (c : Server (Bool ⊕ ι)) (b : Bool) : Option Values :=
  (c.threads (.inl b)).reads.head?.bind e.stored

/-- The other requests commit no change of the item. -/
def OthersLeave (c : Server (Bool ⊕ ι)) : Bool ⊕ ι → Bool
  | .inl _ => true
  | .inr j => !(c.threads (.inr j)).prog.committing ||
    decide ((c.view (.inr j)).items.find e.item.id = c.db.items.find e.item.id)

/-- The edit sets back nothing that has changed since it loaded the item, or it agrees
with the other edit on what both set. -/
def Clear (b : Bool) (loaded stored : Values) : Prop :=
  KeepsAll (e.body b) loaded stored ∨ AgreesOnAll (e.body !b) (e.body b) loaded

instance (b : Bool) (loaded stored : Values) : Decidable (e.Clear b loaded stored) :=
  inferInstanceAs (Decidable (_ ∨ _))

def clear (c : Server (Bool ⊕ ι)) (b : Bool) : Bool :=
  (e.loaded c b).all fun l => (e.stored c.db).all fun r => decide (e.Clear b l r)

end Edits

/-- The commit of an edit, and whether it was clear to commit. -/
structure Commit where
  who : Bool
  clear : Bool
deriving DecidableEq

def note (e : Edits ι) (c : Server (Bool ⊕ ι)) : Bool ⊕ ι → Time → Option Commit
  | .inl b, _ => if (c.threads (.inl b)).prog.committing then some ⟨b, e.clear c b⟩ else none
  | .inr _, _ => none

/-! ## The course of a run -/

/-- An edit that has not committed. -/
inductive Before (e : Edits ι) (b : Bool) (t : Running) : Prop where
  | looking (g : Handler Plan) (at_gate : (e.edit b).Looking env g t)
  | flushed (plan : Plan) (open_transaction : (e.edit b).Flushed env plan t)
  | failing (plan : Plan) (error : DbError) (rejected : (e.edit b).Failing env plan error t)
  | failed (x : Exn) (prog : t.prog = .raise x) (status : x.response.status_code ≠ 200)

/-- An edit that has. -/
inductive After (e : Edits ι) (b : Bool) (t : Running) : Prop where
  | replying (plan : Plan) (committed : (e.edit b).Replying env plan t)
  | ended (done : t.prog.done = true)

/-- The commits of a run with what they have made of the item. -/
inductive Story (e : Edits ι) (c : Server (Bool ⊕ ι)) : List Commit → Prop where
  | none (row : e.stored c.db = some e.start) (before : ∀ b, Before env e b (c.threads (.inl b)))
      (saw : ∀ b, ∀ s ∈ (c.threads (.inl b)).reads, e.stored s = some e.start) :
    Story e c []
  | one (f : Bool) (row : e.stored c.db = some (e.once f))
      (after : After env e f (c.threads (.inl f)))
      (before : Before env e (!f) (c.threads (.inl !f)))
      (saw : ∀ s ∈ (c.threads (.inl !f)).reads,
        e.stored s = some e.start ∨ e.stored s = some (e.once f)) :
    Story e c [⟨f, true⟩]
  | both (f : Bool) (l : Values) (loaded : l = e.start ∨ l = e.once f)
      (row : e.stored c.db = some (merge (e.body !f) l (e.once f)))
      (after : ∀ b, After env e b (c.threads (.inl b))) :
    Story e c [⟨f, true⟩, ⟨!f, decide (e.Clear (!f) l (e.once f))⟩]

section
variable {env} {e : Edits ι} {c c' : Server (Bool ⊕ ι)} {b : Bool} {now : Time}

theorem planned_update {list_id item_id : UUID} {d : Draws} {gate seen : List DB}
    {body : ItemUpdate} {plan : Plan}
    (h : Planned list_id d gate (.update_item item_id body) seen plan) :
    ∃ s item, seen = s :: gate ∧ s.items.find item_id = some item ∧
      plan = update_item_plan item body d := by
  cases h with
  | update_item _ _ s item found on_list => exact ⟨s, item, rfl, found, rfl⟩

theorem plan_of_edit {seen : List DB} {plan : Plan} (h : (e.edit b).Ready env seen plan) :
    ∃ s rest item, seen = s :: rest ∧ s.items.find e.item.id = some item ∧
      plan = update_item_plan item (e.body b) (e.draws b) := by
  obtain ⟨gate, perm, -, hplanned⟩ := h
  obtain ⟨s, item, hseen, hfound, hplan⟩ := planned_update hplanned
  exact ⟨s, gate, item, hseen, hfound, hplan⟩

/-- An edit before its commit has not answered with a 200. -/
theorem not_ok_of_before (h : Before env e b (c.threads (.inl b))) :
    status c (.inl b) ≠ some 200 := by
  have hstatus : ∀ {r : Response}, r.status_code ≠ 200 → answer c (.inl b) = some r →
      status c (.inl b) ≠ some 200 := by
    intro r hr ha
    unfold status
    rw [ha]
    simpa using hr
  intro hok
  obtain ⟨r, ha, hr⟩ := Option.map_eq_some_iff.mp hok
  cases h with
  | looking g at_gate =>
    obtain ⟨x, hx, rfl⟩ := answer_of_looking at_gate ha
    have hstatus := hx.status
    omega
  | flushed plan open_transaction =>
    rw [answer_of_not_done (by rw [open_transaction.prog]; rfl)] at ha
    cases ha
  | failing plan error rejected =>
    obtain ⟨gate, perm, -, hplanned⟩ := rejected.ready
    have hfail := failure_status hplanned error
    rw [answer_of_failing rejected ha] at hr
    omega
  | failed x prog status =>
    rw [answer_raise prog] at ha
    cases ha
    exact status hr

variable [DecidableEq ι] [Fintype ι]

omit [DecidableEq ι] [Fintype ι] in
theorem not_committing_of_after (h : After env e b (c.threads (.inl b))) :
    (c.threads (.inl b)).prog.committing = false := by
  cases h with
  | replying plan committed => exact committed.not_committing
  | ended done =>
    cases hp : (c.threads (.inl b)).prog with
    | commit k => rw [hp] at done; cases done
    | _ => rfl

/-- An edit that has not committed and does not commit now. -/
theorem before_of_step (h : Before env e b (c.threads (.inl b)))
    (hcommitting : (c.threads (.inl b)).prog.committing = false)
    (hs : c.step (.inl b) now = some c') : Before env e b (c'.threads (.inl b)) := by
  cases h with
  | looking g at_gate =>
    cases (looking_step at_gate hs).2 with
    | looked g' after read => exact .looking g' after
    | flushed plan planned accepted after reads => exact .flushed plan after
    | rejected plan x planned refused after reads => exact .failing plan x after
  | flushed plan open_transaction =>
    rw [open_transaction.prog] at hcommitting
    cases hcommitting
  | failing plan error rejected =>
    obtain ⟨gate, perm, -, hplanned⟩ := rejected.ready
    have hfail := failure_status hplanned error
    exact .failed (plan.failure error) (failing_step rejected hs).2 (by omega)
  | failed x prog status =>
    exact absurd hs (System.not_step_of_done (by rw [prog]; rfl))

theorem after_of_step (h : After env e b (c.threads (.inl b)))
    (hs : c.step (.inl b) now = some c') : After env e b (c'.threads (.inl b)) := by
  cases h with
  | replying plan committed =>
    rcases replying_step committed hs with ⟨-, ⟨r, -, hprog⟩ | ⟨-, hprog⟩⟩
    · exact .ended (by rw [hprog]; rfl)
    · exact .ended (by rw [hprog]; rfl)
  | ended done =>
    exact absurd hs (System.not_step_of_done done)

/-- The commit of an edit. -/
theorem commit_of_step (h : Before env e b (c.threads (.inl b)))
    (hcommitting : (c.threads (.inl b)).prog.committing = true)
    (hs : c.step (.inl b) now = some c') :
    After env e b (c'.threads (.inl b)) ∧
      ∃ s ∈ (c.threads (.inl b)).reads, ∃ l, e.loaded c b = some l ∧ e.stored s = some l ∧
        e.stored c'.db = (e.stored c.db).map (merge (e.body b) l) := by
  cases h with
  | looking g at_gate =>
    rw [at_gate.not_committing] at hcommitting
    cases hcommitting
  | failing plan error rejected =>
    rw [rejected.not_committing] at hcommitting
    cases hcommitting
  | failed x prog status =>
    rw [prog] at hcommitting
    cases hcommitting
  | flushed plan open_transaction =>
    obtain ⟨hdb, hreplying, -⟩ := flushed_step open_transaction hs
    obtain ⟨s, rest, item, hreads, hfound, rfl⟩ := plan_of_edit open_transaction.ready
    obtain ⟨db, hflush⟩ := open_transaction.pending
    have hid := Table.key_of_find hfound
    have hs' : e.stored s = some (values item) := by
      unfold Edits.stored
      rw [hfound]
      rfl
    refine ⟨.replying _ hreplying, s, by rw [hreads]; simp, values item, ?_, hs', ?_⟩
    · unfold Edits.loaded
      rw [hreads]
      exact hs'
    · have hvalues := values_after_flush c.db hflush
      rw [hid] at hvalues
      unfold Edits.stored
      rw [hdb, Option.map_map]
      exact hvalues

omit [DecidableEq ι] [Fintype ι] in
/-- A step that leaves the item alone, and commits no edit. -/
theorem story_stays {told : List Commit} (h : Story env e c told)
    (hrow : e.stored c'.db = e.stored c.db)
    (hbefore : ∀ b, Before env e b (c.threads (.inl b)) → Before env e b (c'.threads (.inl b)))
    (hafter : ∀ b, After env e b (c.threads (.inl b)) → After env e b (c'.threads (.inl b)))
    (hreads : ∀ b, ∀ s ∈ (c'.threads (.inl b)).reads,
      s ∈ (c.threads (.inl b)).reads ∨ e.stored s = e.stored c.db) : Story env e c' told := by
  cases h with
  | none row before saw =>
    refine .none (hrow.trans row) (fun b => hbefore b (before b)) ?_
    intro b s hs
    rcases hreads b s hs with hs | hs
    · exact saw b s hs
    · exact hs.trans row
  | one f row after before saw =>
    refine .one f (hrow.trans row) (hafter f after) (hbefore (!f) before) ?_
    intro s hs
    rcases hreads (!f) s hs with hs | hs
    · exact saw s hs
    · exact Or.inr (hs.trans row)
  | both f l loaded row after =>
    exact .both f l loaded (hrow.trans row) fun b => hafter b (after b)

/-- A step of another request. -/
theorem story_of_other {told : List Commit} (h : Story env e c told) {j : ι}
    (hok : e.OthersLeave c (.inr j) = true) (hs : c.step (.inr j) now = some c') :
    Story env e c' told := by
  have hothers : ∀ b, c'.threads (.inl b) = c.threads (.inl b) :=
    fun b => System.step_others hs (by simp)
  refine story_stays h ?_ ?_ ?_ ?_
  · unfold Edits.stored
    rcases System.db_of_step hs with ⟨-, hdb⟩ | ⟨hcommitting, hdb⟩
    · rw [hdb]
    · have hsame : (c.view (.inr j)).items.find e.item.id = c.db.items.find e.item.id := by
        simpa [Edits.OthersLeave, hcommitting] using hok
      rw [hdb, hsame]
  · intro b hb
    rw [hothers]
    exact hb
  · intro b hb
    rw [hothers]
    exact hb
  · intro b s hmem
    rw [hothers] at hmem
    exact Or.inl hmem

/-- What the next read of an edit shows: it has no open transaction before its commit. -/
theorem view_of_edit (h : Before env e b (c.threads (.inl b)) ∨ After env e b (c.threads (.inl b)))
    (hcommitting : (c.threads (.inl b)).prog.committing = false)
    (hs : c.step (.inl b) now = some c') : c.view (.inl b) = c.db := by
  have hdone := System.not_done_of_step hs
  apply System.view_of_nothing_pending
  rcases h with h | h
  · cases h with
    | looking g at_gate => exact at_gate.pending
    | flushed plan open_transaction =>
      rw [open_transaction.prog] at hcommitting
      cases hcommitting
    | failing plan error rejected => exact rejected.pending
    | failed x prog status =>
      rw [prog] at hdone
      cases hdone
  · cases h with
    | replying plan committed => exact committed.pending
    | ended done =>
      rw [done] at hdone
      cases hdone

/-- A step of an edit that commits nothing. -/
theorem story_of_edit {told : List Commit} (h : Story env e c told)
    (hphase : Before env e b (c.threads (.inl b)) ∨ After env e b (c.threads (.inl b)))
    (hcommitting : (c.threads (.inl b)).prog.committing = false)
    (hs : c.step (.inl b) now = some c') : Story env e c' told := by
  have hothers : ∀ {a}, a ≠ b → c'.threads (.inl a) = c.threads (.inl a) :=
    fun ha => System.step_others hs (by simpa using ha)
  have hdb : c'.db = c.db := by
    rcases System.db_of_step hs with ⟨-, hdb⟩ | ⟨h, -⟩
    · exact hdb
    · rw [hcommitting] at h
      cases h
  refine story_stays h (by rw [hdb]) ?_ ?_ ?_
  · intro a ha
    by_cases hab : a = b
    · subst hab
      exact before_of_step ha hcommitting hs
    · rw [hothers hab]
      exact ha
  · intro a ha
    by_cases hab : a = b
    · subst hab
      exact after_of_step ha hs
    · rw [hothers hab]
      exact ha
  · intro a s hmem
    by_cases hab : a = b
    · subst hab
      rcases System.reads_of_step hs s hmem with hmem | rfl
      · exact Or.inl hmem
      · exact Or.inr (by rw [view_of_edit hphase hcommitting hs])
    · rw [hothers hab] at hmem
      exact Or.inl hmem

omit [DecidableEq ι] [Fintype ι] in
theorem phase_of_story {told : List Commit} (h : Story env e c told) (b : Bool) :
    Before env e b (c.threads (.inl b)) ∨ After env e b (c.threads (.inl b)) := by
  cases h with
  | none row before saw => exact Or.inl (before b)
  | one f row after before saw =>
    rcases Bool.eq_or_eq_not b f with rfl | rfl
    · exact Or.inr after
    · exact Or.inl before
  | both f l loaded row after => exact Or.inr (after b)

/-- The commit of an edit. -/
theorem story_of_commit {told : List Commit} (h : Story env e c told)
    (hcommitting : (c.threads (.inl b)).prog.committing = true)
    (hs : c.step (.inl b) now = some c') :
    Story env e c' (told ++ [⟨b, e.clear c b⟩]) := by
  have hother : c'.threads (.inl !b) = c.threads (.inl !b) := System.step_others hs (by simp)
  have hnot : ∀ a, a = b → ¬ After env e a (c.threads (.inl a)) := by
    rintro a rfl hafter
    rw [not_committing_of_after hafter] at hcommitting
    cases hcommitting
  cases h with
  | none row before saw =>
    obtain ⟨hafter, s, hmem, l, hloaded, hl, hrow⟩ := commit_of_step (before b) hcommitting hs
    have hstart := saw b s hmem
    rw [hl] at hstart
    cases hstart
    have hclear : e.clear c b = true := by
      unfold Edits.clear
      rw [hloaded, row]
      exact decide_eq_true (Or.inl ⟨kept_loaded _ _, kept_loaded _ _, kept_loaded _ _⟩)
    rw [hclear]
    refine .one b ?_ hafter (hother ▸ before (!b)) ?_
    · rw [hrow, row, Option.map_some, merge_loaded]
      rfl
    · intro t ht
      rw [hother] at ht
      exact Or.inl (saw (!b) t ht)
  | one f row after before saw =>
    rcases Bool.eq_or_eq_not b f with rfl | rfl
    · exact absurd after (hnot b rfl)
    obtain ⟨hafter, s, hmem, l, hloaded, hl, hrow⟩ := commit_of_step before hcommitting hs
    have hclear : e.clear c (!f) = decide (e.Clear (!f) l (e.once f)) := by
      unfold Edits.clear
      rw [hloaded, row]
      rfl
    rw [hclear]
    refine .both f l ?_ ?_ ?_
    · have hsaw := saw s hmem
      rw [hl] at hsaw
      exact hsaw.imp Option.some.inj Option.some.inj
    · rw [hrow, row]
      rfl
    · intro a
      rcases Bool.eq_or_eq_not a f with rfl | rfl
      · rw [Bool.not_not] at hother
        rw [hother]
        exact after
      · exact hafter
  | both f l loaded row after => exact absurd (after b) (hnot b rfl)

theorem story_of_run {log : List (Option Commit)}
    (hstored : e.world.db.items.find e.item.id = some e.item)
    (h : System.Logged (fun c i _ => e.OthersLeave c i = true) (note e) (edits env e) log c) :
    Story env e c log.reduceOption := by
  induction h with
  | start =>
    refine .none ?_ ?_ ?_
    · unfold Edits.stored
      change (e.world.db.items.find e.item.id).map values = _
      rw [hstored]
      rfl
    · intro b
      exact .looking _ (looking_at_arrival (e.edit b))
    · intro b s hs
      cases hs
  | step i now before meets takes ih =>
    rename_i log c c'
    rw [List.reduceOption_append]
    cases i with
    | inl b =>
      cases hcommitting : (c.threads (.inl b)).prog.committing with
      | true =>
        have hnote : note e c (.inl b) now = some ⟨b, e.clear c b⟩ := by simp [note, hcommitting]
        rw [hnote]
        exact story_of_commit ih hcommitting takes
      | false =>
        have hnote : note e c (.inl b) now = none := by simp [note, hcommitting]
        rw [hnote]
        simpa using story_of_edit ih (phase_of_story ih b) hcommitting takes
    | inr j =>
      have hnote : note e c (.inr j) now = none := rfl
      rw [hnote]
      simpa using story_of_other ih meets takes

end

/-! ## The law -/

/-- What the second edit leaves, and when it is what one edit after the other leaves. -/
theorem merged_is_serial_iff (e : Edits ι) (f : Bool) {l : Values}
    (hloaded : l = e.start ∨ l = e.once f) :
    (∃ first, some (merge (e.body !f) l (e.once f)) = some (e.serial first)) ↔
      e.Clear (!f) l (e.once f) := by
  rcases hloaded with rfl | rfl
  · constructor
    · rintro ⟨first, h⟩
      have h := Option.some.inj h
      rcases Bool.eq_or_eq_not first f with rfl | rfl
      · exact Or.inl ((merge_last_iff _ _ _).mp h)
      · refine Or.inr ((merge_first_iff _ _ _).mp ?_)
        unfold Edits.serial at h
        rw [Bool.not_not] at h ⊢
        exact h
    · rintro (h | h)
      · exact ⟨f, congrArg some ((merge_last_iff _ _ _).mpr h)⟩
      · rw [Bool.not_not] at h
        refine ⟨!f, congrArg some ?_⟩
        unfold Edits.serial
        rw [Bool.not_not]
        exact (merge_first_iff _ _ _).mpr h
  · constructor
    · intro _
      exact Or.inl ⟨kept_loaded _ _, kept_loaded _ _, kept_loaded _ _⟩
    · intro _
      exact ⟨f, congrArg some (merge_loaded _ _)⟩

/-- Two edits that are both answered with a 200, while nobody else writes the item,
leave it as one of them after the other would, if and only if each was clear to
commit: it set back nothing that had changed since it loaded the item, or it agreed
with the other one on what both set. -/
theorem edits_are_serial_iff_clear [DecidableEq ι] [Fintype ι] (env : Env) (e : Edits ι)
    (hstored : e.world.db.items.find e.item.id = some e.item) (log : List (Option Commit))
    (c : Server (Bool ⊕ ι))
    (h : System.Logged (fun c i _ => e.OthersLeave c i = true) (note e) (edits env e) log c)
    (hok : ∀ b, status c (.inl b) = some 200) :
    (∃ first, e.stored c.db = some (e.serial first)) ↔ ∀ m, some m ∈ log → m.clear = true := by
  have hstory := story_of_run hstored h
  simp only [← List.reduceOption_mem_iff]
  revert hstory
  generalize log.reduceOption = told
  intro hstory
  cases hstory with
  | none row before saw => exact absurd (hok true) (not_ok_of_before (before true))
  | one f row after before saw => exact absurd (hok !f) (not_ok_of_before before)
  | both f l loaded row after =>
    have hclear : (∀ m, m ∈ [⟨f, true⟩, ⟨!f, decide (e.Clear (!f) l (e.once f))⟩] →
        Commit.clear m = true) ↔ e.Clear (!f) l (e.once f) := by simp
    rw [hclear, row]
    exact merged_is_serial_iff e f loaded

/-! ## Two edits that mix -/

/-- Ann buys bread and ticks the item off, and Bob edits it too. -/
def both_edit (second : ItemUpdate) : Edits Empty where
  world := shared_list
  item := ⟨9, 7, "milk", false, 0, 0, 0⟩
  list_id _ := 7
  body
    | false => ⟨some "bread", by decide, some true, none⟩
    | true => second
  request
    | false => signed_in_as "a"
    | true => signed_in_as "b"
  draws _ := .sample "x" 0
  others := Empty.elim

/-- Both load the item, then Ann's edit goes on to its end, and then Bob's. -/
def side_by_side : List ((Bool ⊕ Empty) × Time) :=
  (List.replicate 5 false ++ List.replicate 5 true ++ List.replicate 3 false ++
    List.replicate 3 true).map fun b => (.inl b, 0)

/-- Bob moves the item. -/
def bob_moves : Edits Empty := both_edit ⟨none, by decide, none, some 5⟩

/-- Bob buys butter, and says that it is still to be done. -/
def bob_reopens : Edits Empty := both_edit ⟨some "butter", by decide, some false, none⟩

theorem an_edit_and_a_move_are_serial :
    ∃ log c, System.record (fun c i _ => bob_moves.OthersLeave c i) (note bob_moves) []
        (edits .sample bob_moves) side_by_side = some (log, c) ∧
      ∃ first, bob_moves.stored c.db = some (bob_moves.serial first) := by
  have hrun : (System.record (fun c i _ => bob_moves.OthersLeave c i) (note bob_moves) []
      (edits .sample bob_moves) side_by_side).map (fun r =>
        (r.1.all (fun o => o.all Commit.clear), status r.2 (.inl false), status r.2 (.inl true))) =
      some (true, some 200, some 200) := by decide
  obtain ⟨⟨log, c⟩, hc, hstatus⟩ := Option.map_eq_some_iff.mp hrun
  obtain ⟨hclear, hstatus⟩ := Prod.mk.inj hstatus
  obtain ⟨hann, hbob⟩ := Prod.mk.inj hstatus
  refine ⟨log, c, hc, ?_⟩
  refine (edits_are_serial_iff_clear .sample bob_moves (by decide) log c
    (System.logged_of_record .start hc) ?_).mpr ?_
  · rintro (_ | _)
    · exact hann
    · exact hbob
  · intro m hm
    exact List.all_eq_true.mp hclear (some m) hm

/-- His text is kept, and what he says of the rest is lost. -/
theorem two_edits_mix :
    ¬ ∀ log c, System.Logged (fun c i _ => bob_reopens.OthersLeave c i = true) (note bob_reopens)
        (edits .sample bob_reopens) log c →
      (∀ b, status c (.inl b) = some 200) →
      ∃ first, bob_reopens.stored c.db = some (bob_reopens.serial first) := by
  have hrun : (System.record (fun c i _ => bob_reopens.OthersLeave c i) (note bob_reopens) []
      (edits .sample bob_reopens) side_by_side).map (fun r =>
        (status r.2 (.inl false), status r.2 (.inl true), bob_reopens.stored r.2.db)) =
      some (some 200, some 200, some ⟨"butter", true, 0⟩) := by decide
  obtain ⟨⟨log, c⟩, hc, hstatus⟩ := Option.map_eq_some_iff.mp hrun
  obtain ⟨hann, hstatus⟩ := Prod.mk.inj hstatus
  obtain ⟨hbob, hstored⟩ := Prod.mk.inj hstatus
  dsimp only at hstored
  intro h
  obtain ⟨first, hserial⟩ := h log c (System.logged_of_record .start hc) (by
    rintro (_ | _)
    · exact hann
    · exact hbob)
  rw [hstored] at hserial
  revert hserial
  cases first <;> decide

end shared_todos.item_races
