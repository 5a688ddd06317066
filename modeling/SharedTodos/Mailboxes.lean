-- One account for one mailbox. Register stores an address as `EmailStr` writes it,
-- with a lower-case domain; the callback of Google stores and looks up the claim as it
-- came. So the law holds as long as no account is created from a claim that is
-- written in another way.
import SharedTodos.GoogleAccounts

open keyed_table transactions
open shared_todos.models shared_todos.http shared_todos.http.handler
open shared_todos.sessions shared_todos.rate_limiter shared_todos.auth shared_todos.oauth
open shared_todos.app shared_todos.accounts shared_todos.google_accounts

namespace shared_todos.mailboxes

variable (env : Env) (normal_form : String → String)

/-! ## The law and its condition -/

/-- No two users have emails of one normal form. -/
def OnePerMailbox (db : DB) : Prop :=
  ∀ a ∈ db.users.rows, ∀ b ∈ db.users.rows, normal_form a.email = normal_form b.email → a = b

/-- Every email is stored in its normal form. -/
def AllNormal (db : DB) : Prop := ∀ a ∈ db.users.rows, normal_form a.email = a.email

/-- What `EmailStr` does to the address of a register request: it is the normal form. -/
def RegistersNormal (s : Step) : Prop :=
  ∀ body, s.call = .register body → normal_form body.email.val = body.email.val

/-- A callback that creates an account reports the normal form of its email. -/
def ReportsNormal (s : Step) (w : World) : Prop :=
  ∀ who, Verified env s who → users_by_identity who w.db = [] →
    insert_user (google_user who s.draws) w.db = .ok [.insert_user (google_user who s.draws)] →
    normal_form who.email = who.email

/-- Every callback of the run does so. -/
def AllReportNormal : List Step → World → Prop
  | [], _ => True
  | s :: steps, w => ReportsNormal env normal_form s w ∧ AllReportNormal steps (s.after env w)

/-- The registration of a mailbox that has an account adds none. -/
def RegistersOnce (w : World) : Prop :=
  ∀ (s : Step) (body : RegisterRequest) (a : User), s.call = .register body →
    RegistersNormal normal_form s → a ∈ w.db.users.rows →
    normal_form a.email = normal_form body.email.val → (s.after env w).db.users = w.db.users

/-- The callback for a mailbox whose account is not linked links it, and adds none. -/
def LinksOnce (w : World) : Prop :=
  ∀ (s : Step) (who : Identity) (a : User), Verified env s who →
    normal_form who.email = who.email → text_fits 256 who.google_sub → a ∈ w.db.users.rows →
    normal_form a.email = normal_form who.email → a.google_sub = none →
    (∀ b ∈ w.db.users.rows, b.google_sub ≠ some who.google_sub) →
    (s.after env w).db.users = ((Change.set_google_sub a.id who.google_sub).apply w.db).users

/-- The mailbox of the account gets a second one as soon as it registers. -/
def DoubledByRegister (w : World) (a : User) : Prop :=
  ∀ (s : Step) (body : RegisterRequest), s.call = .register body →
    RegistersNormal normal_form s → body.email.val = normal_form a.email →
    (s.handle env w).1.status_code = 201 → ¬ OnePerMailbox normal_form (s.after env w).db

section
variable {env : Env} {normal_form : String → String} {s : Step} {w : World}

/-! ## Every stored email stays normal -/

/-- One account per mailbox, from the unique index on the emails as they are stored. -/
theorem one_per_mailbox_of_normal {db : DB} (hv : Valid db) (h : AllNormal normal_form db) :
    OnePerMailbox normal_form db := by
  intro a ha b hb hab
  rw [h a ha, h b hb] at hab
  exact hv.unique_email a ha b hb hab

theorem normal_of_insert {u : User} {db : DB} {cs : List Change} (hu : normal_form u.email = u.email)
    (h : AllNormal normal_form db) (hcs : insert_user u db = .ok cs) :
    AllNormal normal_form ((Change.insert_user u).apply db) := by
  obtain ⟨-, -, hfree, -⟩ := insert_user_ok hcs
  intro a ha
  rcases (Table.mem_insert_of_free hfree a).mp ha with ha | rfl
  · exact h a ha
  · exact hu

theorem normal_of_link {id : UUID} {sub : String} {db : DB} (h : AllNormal normal_form db) :
    AllNormal normal_form ((Change.set_google_sub id sub).apply db) := by
  intro a ha
  simp only [Change.apply, Table.mem_update] at ha
  obtain ⟨b, hb, rfl⟩ := ha
  split <;> exact h b hb

theorem normal_of_reset (id : UUID) (hash : String) {db : DB} (h : AllNormal normal_form db) :
    AllNormal normal_form ((Change.set_password_hash id hash).apply db) := by
  intro a ha
  simp only [Change.apply, Table.mem_update] at ha
  obtain ⟨b, hb, rfl⟩ := ha
  split <;> exact h b hb

theorem normal_of_entrance {u : UUID} {r : Response} {w₁ : World} (he : Entrance env s w u r w₁)
    (hreg : RegistersNormal normal_form s) (hrep : ReportsNormal env normal_form s w)
    (h : AllNormal normal_form w.db) : AllNormal normal_form w₁.db := by
  cases he with
  | registered body call unknown inserted => exact normal_of_insert (hreg body call) h inserted
  | google_created query who call checked unknown inserted =>
    exact normal_of_insert (hrep who ⟨query, call, checked⟩ unknown inserted) h inserted
  | google_linked query who user call checked found unlinked linked => exact normal_of_link h
  | logged_in body user hash call => exact h
  | google_found query who user call => exact h

theorem normal_after (hreg : RegistersNormal normal_form s)
    (hrep : ReportsNormal env normal_form s w) (h : AllNormal normal_form w.db) :
    AllNormal normal_form (s.after env w).db := by
  unfold Step.after
  have hd := account_deed_of_step env s w
  revert hd
  generalize (s.handle env w).1 = r, (s.handle env w).2 = w'
  intro hd
  cases hd with
  | idle same quiet =>
    intro a ha
    rw [same.users] at ha
    exact h a ha
  | entered entrance opened =>
    have hentrance := normal_of_entrance entrance hreg hrep h
    exact hentrance
  | stopped entrance e failed => exact normal_of_entrance entrance hreg hrep h
  | logged_out token call cookie given => exact h
  | reset_requested body user call => exact h
  | password_reset body prt user call found user_found =>
    exact normal_of_reset user.id (hash_password env body.new_password s.draws.salt) h

theorem normal_after_run (steps : List Step) {w : World} (h : AllNormal normal_form w.db)
    (hreg : ∀ s ∈ steps, RegistersNormal normal_form s)
    (hrep : AllReportNormal env normal_form steps w) :
    AllNormal normal_form (run env steps w).db := by
  induction steps generalizing w with
  | nil => exact h
  | cons s steps ih =>
    have hafter := normal_after (hreg s List.mem_cons_self) hrep.1 h
    exact ih hafter (fun s hs => hreg s (List.mem_cons_of_mem _ hs)) hrep.2

/-! ## The two orders of arrival -/

theorem registers_once (hv : Valid w.db) (h : AllNormal normal_form w.db) :
    RegistersOnce env normal_form w := by
  intro s body a call hreg ha hmail
  rw [h a ha, hreg body call] at hmail
  have hfound : users_by_email body.email.val w.db = [a] := by
    rw [← hmail]
    exact users_by_email_eq hv ha
  unfold Step.after
  rcases handle_cases env s w with ⟨r, hr, -⟩ | hr
  · rw [hr]
  · rw [hr, call]
    unfold handler_of
    rw [register_effect, hfound]
    rfl

/-- The lookup of a callback for a mailbox that has an account finds that account,
when the subject has none. -/
theorem found_by_mailbox {who : Identity} {a : User} (hv : Valid w.db)
    (h : AllNormal normal_form w.db) (hnormal : normal_form who.email = who.email)
    (ha : a ∈ w.db.users.rows) (hmail : normal_form a.email = normal_form who.email)
    (hsub : ∀ b ∈ w.db.users.rows, b.google_sub ≠ some who.google_sub) :
    users_by_identity who w.db = [a] := by
  rw [h a ha, hnormal] at hmail
  apply Table.select_eq_singleton ha (by simp [hmail])
  intro x hx hp
  rw [decide_eq_true_eq] at hp
  exact hv.unique_email x hx a ha ((hp.resolve_left (hsub x hx)).trans hmail.symm)

/-- The session that ends a callback may meet a row with its draws; the accounts stay. -/
theorem users_after_session (x : Session) (w : World) (r : Response) :
    (attempt (insert_session x) w fun w' => (r, w')).2.db.users = w.db.users := by
  cases hs : insert_session x w.db with
  | error e =>
    rw [attempt_error hs]
  | ok cs =>
    obtain ⟨rfl, -⟩ := insert_session_ok hs
    rw [attempt_ok hs]
    rfl

theorem links_once (hv : Valid w.db) (h : AllNormal normal_form w.db) :
    LinksOnce env normal_form w := by
  intro s who a hwho hnormal hfits ha hmail hunlinked hsub
  have hfound := found_by_mailbox hv h hnormal ha hmail hsub
  have hlink : update_google_sub a.id who.google_sub w.db =
      .ok [.set_google_sub a.id who.google_sub] := by
    unfold update_google_sub
    rw [if_neg (not_not.mpr hfits), if_neg (by simp [Table.find_of_mem ha]), if_neg]
    rintro ⟨v, hv, -, hvs⟩
    exact hsub v hv hvs
  unfold Step.after
  rw [verified_effect hwho, sign_in_effect, hfound]
  change (if a.google_sub = none then _ else _ : Response × World).2.db.users = _
  rw [if_pos hunlinked, link_google_user_effect, attempt_ok hlink, open_session_effect,
    users_after_session]
  rfl

/-! ## An email that is stored in another form -/

/-- A callback that creates an account from an email that is not normal. -/
theorem stored_as_reported (h : ¬ ReportsNormal env normal_form s w) :
    ∃ a ∈ (s.after env w).db.users.rows, normal_form a.email ≠ a.email := by
  unfold ReportsNormal at h
  push Not at h
  obtain ⟨who, hwho, hnone, hinsert, hother⟩ := h
  refine ⟨google_user who s.draws, ?_, hother⟩
  obtain ⟨-, -, hfree, -⟩ := insert_user_ok hinsert
  unfold Step.after
  rw [verified_effect hwho, sign_in_effect, hnone]
  change _ ∈ (perform (create_google_user env who s.draws) s.draws.now w).2.db.users.rows
  rw [create_google_user_effect, attempt_ok hinsert, open_session_effect, users_after_session]
  exact (Table.mem_insert_of_free hfree _).mpr (Or.inr rfl)

/-- The address of an answered registration has an account afterwards, and no account
is gone. -/
theorem after_registration {body : RegisterRequest} (call : s.call = .register body)
    (hstatus : (s.handle env w).1.status_code = 201) :
    (∀ a ∈ w.db.users.rows, a ∈ (s.after env w).db.users.rows) ∧
      ∃ b ∈ (s.after env w).db.users.rows, b.email = body.email.val := by
  unfold Step.after
  rcases handle_cases env s w with ⟨r, hr, hrefused⟩ | hr
  · rw [hr] at hstatus
    rcases hrefused with rfl | ⟨text, rfl⟩ <;> cases hstatus
  rw [hr, call] at hstatus ⊢
  unfold handler_of at hstatus ⊢
  rw [register_effect] at hstatus ⊢
  cases hrows : one_or_none (users_by_email body.email.val w.db) with
  | error e =>
    rw [hrows, one_or_none_error hrows] at hstatus
    cases hstatus
  | ok existing =>
    rw [hrows] at hstatus
    cases existing with
    | some u =>
      have hu : u ∈ users_by_email body.email.val w.db := by simp [one_or_none_ok hrows]
      unfold users_by_email at hu
      rw [Table.mem_select, decide_eq_true_eq] at hu
      obtain ⟨hu, hemail⟩ := hu
      exact ⟨fun a ha => ha, u, hu, hemail⟩
    | none =>
      dsimp only [proceed] at hstatus ⊢
      rw [register_new_effect] at hstatus ⊢
      cases hi : insert_user (new_user env body s.draws) w.db with
      | error e =>
        rw [attempt_error hi] at hstatus
        cases hstatus
      | ok cs =>
        obtain ⟨rfl, -, hfree, -⟩ := insert_user_ok hi
        rw [attempt_ok hi] at hstatus ⊢
        have hmem := Table.mem_insert_of_free hfree
        have hnew := (hmem (new_user env body s.draws)).mpr (Or.inr rfl)
        cases hs : insert_session (new_session env s.draws.row_id (s.draws.token_urlsafe 0)
            s.draws.session_id (s.draws.now 0))
            (w.commit [.insert_user (new_user env body s.draws)]).db with
        | error e =>
          rw [attempt_error hs] at hstatus
          cases hstatus
        | ok cs =>
          obtain ⟨rfl, -⟩ := insert_session_ok hs
          rw [attempt_ok hs]
          exact ⟨fun a ha => (hmem a).mpr (Or.inl ha), new_user env body s.draws, hnew, rfl⟩

theorem doubled_by_register {a : User} (ha : a ∈ w.db.users.rows)
    (hother : normal_form a.email ≠ a.email) : DoubledByRegister env normal_form w a := by
  intro s body call hreg hmail hstatus hone
  obtain ⟨hkept, b, hb, hemail⟩ := after_registration call hstatus
  have hsame : a = b := by
    apply hone a (hkept a ha) b hb
    rw [hemail, hreg body call, hmail]
  rw [hsame, hemail] at hother
  exact hother (hreg body call)

end

/-- One account for one mailbox, in every run that creates the accounts of Google from
normal emails only; a mailbox that has an account meets no second one by either way in.
And a callback that creates an account from another email leaves one that is doubled by
the registration of its mailbox. -/
theorem one_account_per_mailbox (env : Env) (normal_form : String → String) (steps : List Step)
    (hreg : ∀ s ∈ steps, RegistersNormal normal_form s) :
    (AllReportNormal env normal_form steps .empty →
      OnePerMailbox normal_form (run env steps .empty).db ∧
        RegistersOnce env normal_form (run env steps .empty) ∧
        LinksOnce env normal_form (run env steps .empty)) ∧
      ∀ s, ¬ ReportsNormal env normal_form s (run env steps .empty) →
        ∃ a ∈ (s.after env (run env steps .empty)).db.users.rows,
          DoubledByRegister env normal_form (s.after env (run env steps .empty)) a := by
  have hv := valid_of_reachable env ⟨steps, rfl⟩
  constructor
  · intro hrep
    have hempty : AllNormal normal_form World.empty.db := by
      intro a ha
      cases ha
    have hnormal := normal_after_run steps hempty hreg hrep
    exact ⟨one_per_mailbox_of_normal hv hnormal, registers_once hv hnormal, links_once hv hnormal⟩
  · intro s hs
    obtain ⟨a, ha, hother⟩ := stored_as_reported hs
    exact ⟨a, ha, doubled_by_register ha hother⟩

/-! ## Two spellings of one domain -/

/-- The letters after the `@` in lower case. -/
def lower_domain (email : String) : String :=
  local_part email ++
    String.ofList ((email.toList.dropWhile fun c => c != '@').map Char.toLower)

/-- Ann registers, and Google reports the address as it was stored. -/
theorem ann_has_one_account :
    OnePerMailbox lower_domain (run .sample
      [ann_registers "a" 1, google_calls_back "s1 ann@example.com" "c" 3] .empty).db := by
  refine ((one_account_per_mailbox .sample lower_domain
    [ann_registers "a" 1, google_calls_back "s1 ann@example.com" "c" 3] ?_).1 ?_).1
  · intro s hs body call
    rcases List.mem_pair.mp hs with rfl | rfl
    · cases call
      decide
    · cases call
  · refine ⟨?_, ?_, trivial⟩
    · rintro who ⟨query, call, -⟩
      cases call
    · rintro who ⟨query, call, checked⟩ hnone
      cases call
      have hwho : check_callback .sample ⟨some "code", some ".nonce", none⟩
          (google_calls_back "s1 ann@example.com" "c" 3).request
          (google_calls_back "s1 ann@example.com" "c" 3).draws =
            .passed ⟨"s1", "ann@example.com", "ann"⟩ := by decide
      rw [hwho] at checked
      cases checked
      intro _
      decide

/-- Google reports her domain with a capital letter: she gets a second account. -/
theorem ann_has_two_accounts :
    (∀ s ∈ [ann_registers "a" 1, google_calls_back "s1 ann@Example.com" "c" 3],
      RegistersNormal lower_domain s) ∧
    ¬ OnePerMailbox lower_domain (run .sample
      [ann_registers "a" 1, google_calls_back "s1 ann@Example.com" "c" 3] .empty).db := by
  constructor
  · intro s hs body call
    rcases List.mem_pair.mp hs with rfl | rfl
    · cases call
      decide
    · cases call
  · intro hone
    have husers : (run .sample [ann_registers "a" 1,
        google_calls_back "s1 ann@Example.com" "c" 3] .empty).db.users.rows.map User.email =
          ["ann@example.com", "ann@Example.com"] := by decide
    obtain ⟨a, ha, hea⟩ := List.mem_map.mp (husers ▸ List.mem_cons_self)
    obtain ⟨b, hb, heb⟩ := List.mem_map.mp (husers ▸ List.mem_cons_of_mem _ List.mem_cons_self)
    have hab := hone a ha b hb (by rw [hea, heb]; decide)
    rw [hab, heb] at hea
    exact absurd hea (by decide)

end shared_todos.mailboxes
