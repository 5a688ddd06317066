-- The limiter behind a proxy that appends the address of its peer to the header
-- `X-Forwarded-For`. The key is the first entry of the header, which the client
-- has written where he sent one. A client whose header names his own address
-- first is limited as one address; another one chooses his key for each login.
import SharedTodos.WindowHistory

open keyed_table transactions sliding_window
open shared_todos.models shared_todos.http shared_todos.http.handler
open shared_todos.rate_limiter shared_todos.auth shared_todos.app
open shared_todos.login_limits shared_todos.window_history

namespace shared_todos.proxy_buckets

/-! ## The proxy -/

/-- The client as the proxy sees it: a text with neither a comma nor a blank
around it, as every address is. -/
structure Peer where
  address : String
  nonempty : address ≠ ""
  plain : first_address address = address

/-- The header that the proxy passes on, by the one that the client sent. -/
def appended (peer : Peer) : Option String → String
  | none => peer.address
  | some header => header ++ ", " ++ peer.address

/-- The request as the backend gets it. -/
def proxied (proxy : String) (peer : Peer) (header : Option String) (request : Request) : Request :=
  { request with x_forwarded_for := some (appended peer header), client_host := some proxy }

/-- The client sent no header, or one whose first entry is his address. -/
def Honest (peer : Peer) (header : Option String) : Prop :=
  ∀ text, header = some text → first_address text = peer.address

section
variable {env : Env} {proxy : String} {peer : Peer} {request : Request}

/-- The entries that the proxy appends do not reach the first one. -/
theorem first_address_appended (text address : String) :
    first_address (text ++ ", " ++ address) = first_address text := by
  have htake : ((text ++ ", " ++ address).toList.takeWhile fun c => c != ',') =
      text.toList.takeWhile fun c => c != ',' := by
    have hcomma : ", ".toList = [',', ' '] := rfl
    rw [String.toList_append, String.toList_append, hcomma, List.append_assoc, List.takeWhile_append]
    split
    · rename_i hall
      have hself := (List.takeWhile_prefix (l := text.toList) fun c => c != ',').eq_of_length hall
      rw [hself]
      simp
    · rfl
  unfold first_address
  rw [htake]

theorem client_ip_without_header (htrust : env.settings.trust_proxy = true) :
    client_ip env (proxied proxy peer none request) = peer.address := by
  unfold client_ip
  simp only [htrust, if_true, proxied, appended, if_neg peer.nonempty]
  exact peer.plain

/-- The client chooses the key. -/
theorem client_ip_with_header (htrust : env.settings.trust_proxy = true) (text : String) :
    client_ip env (proxied proxy peer (some text) request) = first_address text := by
  have hne : text ++ ", " ++ peer.address ≠ "" := by
    intro h
    have hlength := congrArg String.length h
    simp only [String.length_append, String.length_empty] at hlength
    have hcomma : ", ".length = 2 := rfl
    omega
  unfold client_ip
  simp only [htrust, if_true, proxied, appended, if_neg hne]
  exact first_address_appended text peer.address

theorem client_ip_iff_honest (htrust : env.settings.trust_proxy = true) (header : Option String) :
    client_ip env (proxied proxy peer header request) = peer.address ↔ Honest peer header := by
  cases header with
  | none =>
    refine iff_of_true (client_ip_without_header htrust) ?_
    intro text h
    cases h
  | some text =>
    rw [client_ip_with_header htrust]
    constructor
    · intro h other hother
      cases hother
      exact h
    · intro h
      exact h text rfl

end

/-! ## The logins of one client -/

variable (env : Env)

/-- A login of the client: the header that he sends, and the rest of the request. -/
structure Try where
  header : Option String
  step : Step

/-- The login as the backend gets it. -/
def Try.sent (proxy : String) (peer : Peer) (t : Try) : Step :=
  { t.step with request := proxied proxy peer t.header t.step.request }

/-- Every login is refused by the limiter, or gets to the verification and fails. -/
def AllFail : List Step → World → Prop
  | [], _ => True
  | s :: steps, w =>
    ((s.handle env w).1.status_code = 401 ∨ (s.handle env w).1.status_code = 429) ∧
      AllFail steps (s.after env w)

/-- When the logins that got to the verification were verified. -/
def verified_at : List Step → World → List Time
  | [], _ => []
  | s :: steps, w =>
    (if (s.handle env w).1.status_code = 429 then [] else [s.draws.now 1]) ++
      verified_at steps (s.after env w)

section
variable {env} {ip : String} {steps : List Step} {s : Step} {w : World} {fs : List Time}

theorem verified_at_append (a b : List Step) (w : World) :
    verified_at env (a ++ b) w = verified_at env a w ++ verified_at env b (run env a w) := by
  induction a generalizing w with
  | nil => rfl
  | cons s a ih =>
    simp only [List.cons_append, verified_at, ih, List.append_assoc]
    rfl

theorem allFail_snoc :
    AllFail env (steps ++ [s]) w ↔ AllFail env steps w ∧
      ((s.handle env (run env steps w)).1.status_code = 401 ∨
        (s.handle env (run env steps w)).1.status_code = 429) := by
  induction steps generalizing w with
  | nil => simp [AllFail]
  | cons a steps ih =>
    simp only [List.cons_append, AllFail, ih, and_assoc]
    rfl

/-- One failed login more from the address. -/
theorem on_record_of_failed (hrun : Sequential (steps ++ [s])) (hip : client_ip env s.request = ip)
    (hfails : (s.handle env w).1.status_code = 401 ∨ (s.handle env w).1.status_code = 429)
    (h : OnRecord env ip (readings steps) fs w.store) :
    OnRecord env ip (readings (steps ++ [s]))
      (fs ++ if (s.handle env w).1.status_code = 429 then [] else [s.draws.now 1])
      (s.after env w).store := by
  obtain ⟨body, call⟩ := hrun.logins s (by simp)
  obtain ⟨hlater, hstep⟩ := hrun.last
  subst hip
  rw [readings_snoc]
  unfold Step.after
  rcases judged_of_login call w with
    ⟨-, answer, hw⟩ | ⟨hopen, -, answer, hw⟩ | ⟨-, -, answer, -⟩ | ⟨-, -, answer, -, -⟩
  · have h429 : (s.handle env w).1.status_code = 429 := by rw [answer]; rfl
    rw [if_pos h429, List.append_nil]
    exact h.later (by rw [hw])
  · rw [if_neg (by omega), hw]
    exact h.written hlater hstep (Nat.not_le.mp hopen) (Or.inr rfl) (Function.update_self ..)
  · omega
  · omega

/-- Failed logins from one address, in any state of the limiter. -/
theorem bounded_of_failed (hrun : Sequential steps)
    (hip : ∀ s ∈ steps, client_ip env s.request = ip) (hfails : AllFail env steps w) :
    OnRecord env ip (readings steps) (verified_at env steps w) (run env steps w).store := by
  induction steps using List.reverseRecOn with
  | nil => exact ⟨fun _ _ => List.nil_sublist _, bounded_nil⟩
  | append_singleton past s ih =>
    obtain ⟨hpast, hlast⟩ := allFail_snoc.mp hfails
    have h := ih hrun.past (fun s hs => hip s (List.mem_append_left _ hs)) hpast
    rw [verified_at_append, run_append]
    simp only [verified_at, List.append_nil]
    exact on_record_of_failed hrun (hip s (by simp)) hlast h

end

/-! ## The buckets -/

/-- Behind the proxy the key of a login is the address of the client, as it is
without a header, exactly if the header is honest; and in every run of failed
logins of the client with honest headers, no more than the limit get to the
verification in an interval that is shorter than the window. -/
theorem bucket_of_the_peer (env : Env) (htrust : env.settings.trust_proxy = true) (proxy : String)
    (peer : Peer) :
    (∀ request header, client_ip env (proxied proxy peer header request) =
      client_ip env (proxied proxy peer none request) ↔ Honest peer header) ∧
    ∀ (tries : List Try) (w : World), (∀ t ∈ tries, Honest peer t.header) →
      Sequential (tries.map (Try.sent proxy peer)) →
      AllFail env (tries.map (Try.sent proxy peer)) w →
      Bounded (limit env) (window env) (verified_at env (tries.map (Try.sent proxy peer)) w) := by
  constructor
  · intro request header
    rw [client_ip_without_header htrust]
    exact client_ip_iff_honest htrust header
  · intro tries w hhonest hrun hfails
    have hip : ∀ s ∈ tries.map (Try.sent proxy peer), client_ip env s.request = peer.address := by
      intro s hs
      obtain ⟨t, ht, rfl⟩ := List.mem_map.mp hs
      exact (client_ip_iff_honest htrust t.header).mpr (hhonest t ht)
    exact (bounded_of_failed hrun hip hfails).bounded

/-! ### Two attempts behind a proxy -/

/-- The environment with two attempts, behind a proxy. -/
def behind_proxy : Env :=
  { two_attempts with settings := { two_attempts.settings with trust_proxy := true } }

def mallory : Peer := ⟨"203.0.113.7", by decide, by decide⟩

/-- A guess with a header of the client's own. -/
def guess_as (header : Option String) : Try := ⟨header, guess⟩

/-- Guesses with headers of the client's own are sequential, as they are at one time. -/
theorem sequential_guesses (headers : List (Option String)) :
    Sequential ((headers.map guess_as).map (Try.sent "10.1.1.1" mallory)) where
  logins s hs := by
    simp only [List.map_map, List.mem_map, Function.comp_apply] at hs
    obtain ⟨header, -, rfl⟩ := hs
    exact ⟨_, rfl⟩
  clock := by
    rw [List.pairwise_iff_forall_sublist]
    intro a b hab
    have hzero : ∀ r ∈ readings ((headers.map guess_as).map (Try.sent "10.1.1.1" mallory)),
        r = 0 := by
      intro r hr
      simp only [readings, List.mem_flatMap, List.mem_map, List.map_map, Function.comp_apply] at hr
      obtain ⟨s, ⟨header, -, rfl⟩, hr⟩ := hr
      simpa [Try.sent, guess_as, guess, ann_logs_in, Draws.sample] using hr
    rw [hzero a (hab.subset (by simp)), hzero b (hab.subset (by simp))]

/-- Three guesses with three headers get to the verification at one time. -/
theorem disguised_guesses_pass :
    ¬ ∀ (tries : List Try) (w : World), Sequential (tries.map (Try.sent "10.1.1.1" mallory)) →
      AllFail behind_proxy (tries.map (Try.sent "10.1.1.1" mallory)) w →
      Bounded (limit behind_proxy) (window behind_proxy)
        (verified_at behind_proxy (tries.map (Try.sent "10.1.1.1" mallory)) w) := by
  intro h
  have hthree := h ([some "10.0.0.1", some "10.0.0.2", some "10.0.0.3"].map guess_as)
    (run behind_proxy both_register .empty) (sequential_guesses _)
    ⟨by decide, by decide, by decide, trivial⟩ 0 0 (by decide)
  revert hthree
  decide

/-- Headers that begin with his own address, with and without blanks and further entries. -/
def own_headers : List (Option String) :=
  [some "203.0.113.7", some " 203.0.113.7 , 10.0.0.1", some "203.0.113.7,10.0.0.2"]

theorem own_headers_are_honest : ∀ header ∈ own_headers, Honest mallory header := by
  intro header hheader text htext
  subst htext
  have hfirst : ∀ header ∈ own_headers, ∀ text ∈ header,
      first_address text = mallory.address := by decide
  exact hfirst _ hheader text rfl

/-- With them he has two guesses. -/
theorem plain_guesses_bounded :
    Bounded 2 60000000 (verified_at behind_proxy
      ((own_headers.map guess_as).map (Try.sent "10.1.1.1" mallory))
      (run behind_proxy both_register .empty)) := by
  have hhonest : ∀ t ∈ own_headers.map guess_as, Honest mallory t.header := by
    intro t ht
    obtain ⟨header, hheader, rfl⟩ := List.mem_map.mp ht
    exact own_headers_are_honest header hheader
  exact (bucket_of_the_peer behind_proxy rfl "10.1.1.1" mallory).2 (own_headers.map guess_as)
    (run behind_proxy both_register .empty) hhonest (sequential_guesses _)
    ⟨by decide, by decide, by decide, trivial⟩

end shared_todos.proxy_buckets
