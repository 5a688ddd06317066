-- What the application is for, told without sessions, rows, statements and times: a board
-- of sheets. A sheet has an owner, guests who may read it or edit it too, and cards.
import SharedTodos.Library.Places

open places

namespace shared_todos.board

variable {U L I : Type}

/-! ## The sheets -/

inductive Guest where
  | editor
  | viewer
deriving DecidableEq

structure Card where
  content : String
  completed : Bool
  order : Int
deriving DecidableEq

/-- The owner of a sheet is never a guest of it. -/
@[ext] structure Sheet (U I : Type) where
  owner : U
  name : String
  guests : U → Option Guest
  cards : I → Option Card
  owner_is_no_guest : guests owner = none

/-- What one needs to be on a sheet to do something with it. -/
inductive Need where
  | reader
  | writer
  | owner
deriving DecidableEq

def Sheet.allows [DecidableEq U] (s : Sheet U I) (u : U) : Need → Bool
  | .reader => decide (u = s.owner ∨ s.guests u ≠ none)
  | .writer => decide (u = s.owner ∨ s.guests u = some .editor)
  | .owner => decide (u = s.owner)

namespace Sheet

def empty (owner : U) (name : String) : Sheet U I :=
  ⟨owner, name, fun _ => none, fun _ => none, rfl⟩

def rename (s : Sheet U I) (name : String) : Sheet U I := { s with name }

def set_card [DecidableEq I] (s : Sheet U I) (i : I) (card : Option Card) : Sheet U I :=
  { s with cards := Function.update s.cards i card }

/-- An entry for the owner is not made. -/
def set_guest [DecidableEq U] (s : Sheet U I) (u : U) (guest : Option Guest) : Sheet U I where
  owner := s.owner
  name := s.name
  guests := Function.update (Function.update s.guests u guest) s.owner none
  cards := s.cards
  owner_is_no_guest := Function.update_self ..

/-- A guest is not the owner. -/
theorem ne_owner_of_guest {s : Sheet U I} {u : U} {guest : Guest} (h : s.guests u = some guest) :
    u ≠ s.owner := by
  rintro rfl
  rw [s.owner_is_no_guest] at h
  cases h

theorem guests_set_guest [DecidableEq U] (s : Sheet U I) (u : U) (guest : Option Guest) (v : U) :
    (s.set_guest u guest).guests v =
      if v = s.owner then none else if v = u then guest else s.guests v := by
  simp [set_guest, Function.update_apply]

/-- Setting a guest once more changes nothing. -/
theorem set_guest_again [DecidableEq U] (s : Sheet U I) (u : U) (guest : Option Guest) :
    (s.set_guest u guest).set_guest u guest = s.set_guest u guest := by
  ext v
  · rfl
  · rfl
  · simp only [guests_set_guest]
    by_cases hv : v = s.owner
    · simp [set_guest, hv]
    · by_cases hu : v = u <;> simp [set_guest, hv, hu]
  · rfl

theorem set_card_again [DecidableEq I] (s : Sheet U I) (i : I) (card : Option Card) :
    (s.set_card i card).set_card i card = s.set_card i card := by
  simp [set_card, Function.update_idem]

end Sheet

/-- The values that a card gets, where they are given. -/
structure Edit where
  content : Option String
  completed : Option Bool
  order : Option Int

def Card.edited (c : Card) (e : Edit) : Card :=
  ⟨e.content.getD c.content, e.completed.getD c.completed, e.order.getD c.order⟩

/-! ## What one does with a sheet -/

inductive Work (U I : Type) where
  | get_list
  | rename_list (name : String)
  | delete_list
  | create_item (i : I) (content : String) (order : Int)
  | list_items
  | update_item (i : I) (edit : Edit)
  | delete_item (i : I)
  | create_share (u : U) (guest : Guest)
  | list_shares
  | change_role (u : U) (guest : Guest)
  | revoke_share (u : U)

def Work.need : Work U I → Need
  | .get_list | .list_items => .reader
  | .create_item .. | .update_item .. | .delete_item .. => .writer
  | .rename_list .. | .delete_list | .create_share .. | .list_shares | .change_role ..
  | .revoke_share .. => .owner

inductive Refusal where
  | not_found
  | yourself
  | already_shared
  | not_stored
deriving DecidableEq

inductive Reply (U L I : Type) where
  | list (l : L) (owner : U) (name : String)
  | lists (seen : L → Option (U × String))
  | item (l : L) (i : I) (card : Card)
  | items (l : L) (cards : I → Option Card)
  | share (l : L) (u : U) (guest : Guest)
  | shares (l : L) (guests : U → Option Guest)
  | done

/-- What can be written on a sheet. -/
structure Limits where
  name : String → Bool
  content : String → Bool
  order : Int → Bool

/-- A card is written again only where it changes. -/
def Limits.rewrites (fits : Limits) (old new : Card) : Bool :=
  (decide (new.content = old.content) || fits.content new.content) &&
    (decide (new.order = old.order) || fits.order new.order)

section
variable [DecidableEq U] [DecidableEq I] (fits : Limits) (known : U → Bool) (free : I → Bool)

/-- What becomes of a sheet at which somebody works who may do so. -/
def Work.done (l : L) (s : Sheet U I) :
    Work U I → Except Refusal (Option (Sheet U I) × Reply U L I)
  | .get_list => .ok (some s, .list l s.owner s.name)
  | .rename_list name =>
    if name = s.name ∨ fits.name name then .ok (some (s.rename name), .list l s.owner name)
    else .error .not_stored
  | .delete_list => .ok (none, .done)
  | .create_item i content order =>
    if fits.content content ∧ fits.order order ∧ free i then
      .ok (some (s.set_card i (some ⟨content, false, order⟩)), .item l i ⟨content, false, order⟩)
    else .error .not_stored
  | .list_items => .ok (some s, .items l s.cards)
  | .update_item i edit =>
    match s.cards i with
    | none => .error .not_found
    | some card =>
      if fits.rewrites card (card.edited edit) then
        .ok (some (s.set_card i (some (card.edited edit))), .item l i (card.edited edit))
      else .error .not_stored
  | .delete_item i =>
    match s.cards i with
    | none => .error .not_found
    | some _ => .ok (some (s.set_card i none), .done)
  | .create_share u guest =>
    if u = s.owner then .error .yourself
    else if ¬ known u then .error .not_found
    else
      match s.guests u with
      | some _ => .error .already_shared
      | none => .ok (some (s.set_guest u (some guest)), .share l u guest)
  | .list_shares => .ok (some s, .shares l s.guests)
  | .change_role u guest =>
    match s.guests u with
    | none => .error .not_found
    | some _ => .ok (some (s.set_guest u (some guest)), .share l u guest)
  | .revoke_share u =>
    match s.guests u with
    | none => .error .not_found
    | some _ => .ok (some (s.set_guest u none), .done)

/-- What somebody does at the place of a sheet. -/
inductive Task (U I : Type) where
  | create_list (name : String)
  | work (w : Work U I)

/-- To one who may not do it, the sheet is not there. -/
def Task.act (u : U) (l : L) :
    Task U I → Option (Sheet U I) → Except Refusal (Option (Sheet U I) × Reply U L I)
  | .create_list name, none =>
    if fits.name name then .ok (some (.empty u name), .list l u name) else .error .not_stored
  | .create_list _, some _ => .error .not_stored
  | .work _, none => .error .not_found
  | .work w, some s =>
    if s.allows u w.need then w.done fits known free l s else .error .not_found

end

/-! ## The board -/

/-- The sheets, and who may be a guest. -/
structure Board (U L I : Type) where
  known : U → Bool
  sheets : L → Option (Sheet U I)

inductive Move (U L I : Type) where
  | list_lists
  | on (l : L) (t : Task U I)

namespace Board

/-- No sheet has the card. -/
def Free (b : Board U L I) (i : I) : Prop := ∀ l s, b.sheets l = some s → s.cards i = none

/-- The sheets that somebody may read. -/
def seen_by [DecidableEq U] (b : Board U L I) (u : U) (l : L) : Option (U × String) :=
  (b.sheets l).bind fun s => if s.allows u .reader then some (s.owner, s.name) else none

section
variable [DecidableEq U] [DecidableEq L] [DecidableEq I] (fits : Limits)

open Classical in
noncomputable def free (b : Board U L I) (i : I) : Bool := decide (b.Free i)

omit [DecidableEq U] [DecidableEq L] [DecidableEq I] in
@[simp] theorem free_eq_true (b : Board U L I) (i : I) : b.free i = true ↔ b.Free i := by
  simp [free]

noncomputable def play (b : Board U L I) (u : U) :
    Move U L I → Except Refusal (Board U L I × Reply U L I)
  | .list_lists => .ok (b, .lists (b.seen_by u))
  | .on l t =>
    (t.act fits b.known b.free u l (b.sheets l)).map fun x =>
      ({ b with sheets := Function.update b.sheets l x.1 }, x.2)

/-- The board after a move. A refused move leaves it as it is. -/
noncomputable def after (b : Board U L I) (u : U) (m : Move U L I) : Board U L I :=
  match b.play fits u m with
  | .ok (b', _) => b'
  | .error _ => b

/-- What a move is told. -/
noncomputable def told (b : Board U L I) (u : U) (m : Move U L I) :
    Except Refusal (Reply U L I) := (b.play fits u m).map (·.2)

end

end Board

/-! ## What the work comes to -/

section
variable [DecidableEq U] [DecidableEq I]

/-- The work that can be done on a sheet, with what is left of the sheet and the reply. -/
inductive Does (fits : Limits) (known : U → Bool) (free : I → Bool) (l : L) (s : Sheet U I) :
    Work U I → Option (Sheet U I) → Reply U L I → Prop where
  | get_list : Does fits known free l s .get_list (some s) (.list l s.owner s.name)
  | rename_list (name : String) (writable : name = s.name ∨ fits.name name) :
    Does fits known free l s (.rename_list name) (some (s.rename name)) (.list l s.owner name)
  | delete_list : Does fits known free l s .delete_list none .done
  | create_item (i : I) (content : String) (order : Int) (unused : free i) :
    Does fits known free l s (.create_item i content order)
      (some (s.set_card i (some ⟨content, false, order⟩))) (.item l i ⟨content, false, order⟩)
  | list_items : Does fits known free l s .list_items (some s) (.items l s.cards)
  | update_item (i : I) (edit : Edit) (card : Card) (found : s.cards i = some card) :
    Does fits known free l s (.update_item i edit)
      (some (s.set_card i (some (card.edited edit)))) (.item l i (card.edited edit))
  | delete_item (i : I) (card : Card) (found : s.cards i = some card) :
    Does fits known free l s (.delete_item i) (some (s.set_card i none)) .done
  | create_share (u : U) (guest : Guest) (other : u ≠ s.owner) (member : known u) :
    Does fits known free l s (.create_share u guest) (some (s.set_guest u (some guest)))
      (.share l u guest)
  | list_shares : Does fits known free l s .list_shares (some s) (.shares l s.guests)
  | change_role (u : U) (guest old : Guest) (found : s.guests u = some old) :
    Does fits known free l s (.change_role u guest) (some (s.set_guest u (some guest)))
      (.share l u guest)
  | revoke_share (u : U) (old : Guest) (found : s.guests u = some old) :
    Does fits known free l s (.revoke_share u) (some (s.set_guest u none)) .done

variable {s : Sheet U I} {fits : Limits} {known : U → Bool} {free : I → Bool} {l : L}

theorem does_of_done {w : Work U I} {p : Option (Sheet U I)} {reply : Reply U L I}
    (h : w.done fits known free l s = .ok (p, reply)) : Does fits known free l s w p reply := by
  cases w with
  | get_list => cases h; exact .get_list
  | delete_list => cases h; exact .delete_list
  | list_items => cases h; exact .list_items
  | list_shares => cases h; exact .list_shares
  | rename_list name =>
    simp only [Work.done] at h
    split at h
    · cases h
      exact .rename_list name (by assumption)
    · cases h
  | create_item i content order =>
    simp only [Work.done] at h
    split at h
    · rename_i hfits
      cases h
      exact .create_item i content order hfits.2.2
    · cases h
  | update_item i edit =>
    simp only [Work.done] at h
    split at h
    · cases h
    · rename_i card hcard
      split at h
      · cases h
        exact .update_item i edit card hcard
      · cases h
  | delete_item i =>
    simp only [Work.done] at h
    split at h
    · cases h
    · rename_i card hcard
      cases h
      exact .delete_item i card hcard
  | create_share u guest =>
    simp only [Work.done] at h
    split at h
    · cases h
    rename_i hother
    split at h
    · cases h
    rename_i hknown
    split at h
    · cases h
    · cases h
      exact .create_share u guest hother (not_not.mp hknown)
  | change_role u guest =>
    simp only [Work.done] at h
    split at h
    · cases h
    · rename_i old hold
      cases h
      exact .change_role u guest old hold
  | revoke_share u =>
    simp only [Work.done] at h
    split at h
    · cases h
    · rename_i old hold
      cases h
      exact .revoke_share u old hold

/-! ### New cards -/

/-- The card that the work puts on the sheet as a new one. -/
def Work.new_card : Work U I → Option I
  | .create_item i _ _ => some i
  | _ => none

def Task.new_card : Task U I → Option I
  | .create_list _ => none
  | .work w => w.new_card

/-- The other cards of a sheet were there before. -/
theorem card_of_done {w : Work U I} {s' : Sheet U I} {reply : Reply U L I}
    (h : w.done fits known free l s = .ok (some s', reply)) {i : I} (hi : w.new_card ≠ some i)
    (hfree : s.cards i = none) : s'.cards i = none := by
  cases does_of_done h with
  | create_item j content order unused =>
    have hne : i ≠ j := fun h => hi (by rw [h]; rfl)
    simp [Sheet.set_card, Function.update_of_ne hne, hfree]
  | update_item j edit card found =>
    have hne : i ≠ j := by
      rintro rfl
      rw [hfree] at found
      cases found
    simp [Sheet.set_card, Function.update_of_ne hne, hfree]
  | delete_item j card found => simp [Sheet.set_card, Function.update_apply, hfree]
  | _ => exact hfree

/-- A free card stays free under the moves that do not put it on a sheet. -/
theorem free_after [DecidableEq L] {b : Board U L I} {i : I} (h : b.Free i) (u : U)
    {m : Move U L I} (hm : ∀ l t, m = .on l t → t.new_card ≠ some i) :
    (b.after fits u m).Free i := by
  cases m with
  | list_lists => exact h
  | on l t =>
    have hnew := hm l t rfl
    simp only [Board.after, Board.play]
    cases hact : t.act fits b.known b.free u l (b.sheets l) with
    | error e => exact h
    | ok x =>
      obtain ⟨p, reply⟩ := x
      intro l' s' hs'
      simp only [Except.map, Function.update_apply] at hs'
      split at hs'
      · subst hs'
        cases t with
        | create_list name =>
          cases hsheet : b.sheets l with
          | none =>
            rw [hsheet] at hact
            simp only [Task.act] at hact
            split at hact <;> cases hact
            rfl
          | some s =>
            rw [hsheet] at hact
            cases hact
        | work w =>
          cases hsheet : b.sheets l with
          | none =>
            rw [hsheet] at hact
            cases hact
          | some s =>
            rw [hsheet] at hact
            simp only [Task.act] at hact
            split at hact
            · exact card_of_done hact hnew (h l s hsheet)
            · cases hact
      · exact h l' s' hs'

/-- Only a new card asks whether its id is free. -/
theorem act_congr_free {free' : I → Bool} {t : Task U I} (h : ∀ i ∈ t.new_card, free i = free' i)
    (u : U) (p : Option (Sheet U I)) :
    t.act fits known free u l p = t.act fits known free' u l p := by
  cases t with
  | create_list name => cases p <;> rfl
  | work w =>
    cases p with
    | none => rfl
    | some s =>
      simp only [Task.act]
      cases w with
      | create_item i content order => simp only [Work.done, h i rfl]
      | _ => rfl

/-! ### The same work again -/

theorem edited_again (c : Card) (e : Edit) : (c.edited e).edited e = c.edited e := by
  obtain ⟨content, completed, order⟩ := e
  cases content <;> cases completed <;> cases order <;> rfl

theorem rewrites_same (fits : Limits) (c : Card) : fits.rewrites c c = true := by
  simp [Limits.rewrites]

/-- The work makes no new row. -/
def Work.repeatable : Work U I → Bool
  | .create_item .. => false
  | _ => true

/-- What one is told who does again what he has just done. -/
def Work.again (reply : Reply U L I) : Work U I → Except Refusal (Reply U L I)
  | .delete_list | .delete_item _ | .revoke_share _ => .error .not_found
  | .create_share _ _ => .error .already_shared
  | _ => .ok reply

/-- Work that left a sheet leaves it as it is when it is done again. -/
theorem done_again {w : Work U I} {s' : Sheet U I} {reply : Reply U L I}
    (h : w.done fits known free l s = .ok (some s', reply)) (hw : w.repeatable = true)
    (free' : I → Bool) :
    w.done fits known free' l s' = (w.again reply).map fun r => (some s', r) := by
  cases does_of_done h with
  | get_list => rfl
  | rename_list name writable => simp [Work.done, Work.again, Sheet.rename, Except.map]
  | create_item i content order unused => cases hw
  | list_items => rfl
  | update_item i edit card found =>
    have hcard : (s.set_card i (some (card.edited edit))).cards i = some (card.edited edit) := by
      simp [Sheet.set_card]
    simp [Work.done, Work.again, hcard, edited_again, rewrites_same, Sheet.set_card_again, Except.map]
  | delete_item i card found => simp [Work.done, Work.again, Sheet.set_card, Except.map]
  | create_share u guest other member =>
    have howner : (s.set_guest u (some guest)).owner = s.owner := rfl
    have hguest : (s.set_guest u (some guest)).guests u = some guest := by
      simp [Sheet.guests_set_guest, other]
    simp [Work.done, Work.again, howner, other, member, hguest, Except.map]
  | list_shares => rfl
  | change_role u guest old found =>
    have hguest : (s.set_guest u (some guest)).guests u = some guest := by
      simp [Sheet.guests_set_guest, Sheet.ne_owner_of_guest found]
    simp [Work.done, Work.again, hguest, Sheet.set_guest_again, Except.map]
  | revoke_share u old found =>
    have hguest : (s.set_guest u none).guests u = none := by simp [Sheet.guests_set_guest]
    simp [Work.done, Work.again, hguest, Except.map]

/-- Nobody loses by his own work what he needs to do it again. -/
theorem allows_after_done {w : Work U I} {s' : Sheet U I} {reply : Reply U L I} {u : U}
    (h : w.done fits known free l s = .ok (some s', reply)) (hu : s.allows u w.need = true) :
    s'.allows u w.need = true := by
  cases does_of_done h with
  | _ => exact hu

def Move.repeatable : Move U L I → Bool
  | .list_lists => true
  | .on _ (.create_list _) => false
  | .on _ (.work w) => w.repeatable

def Move.again (reply : Reply U L I) : Move U L I → Except Refusal (Reply U L I)
  | .on _ (.work w) => w.again reply
  | _ => .ok reply

/-- A move that is made again leaves the board as the first one left it. -/
theorem play_again [DecidableEq L] {b b' : Board U L I} {u : U} {m : Move U L I}
    {reply : Reply U L I} (h : b.play fits u m = .ok (b', reply)) (hm : m.repeatable = true) :
    b'.play fits u m = (m.again reply).map fun r => (b', r) := by
  cases m with
  | list_lists => cases h; rfl
  | on l t =>
    cases t with
    | create_list name => cases hm
    | work w =>
      cases hsheet : b.sheets l with
      | none =>
        simp only [Board.play, hsheet, Task.act, Except.map] at h
        cases h
      | some s =>
        simp only [Board.play, hsheet, Task.act] at h
        split at h
        · rename_i hallows
          cases hdone : w.done fits b.known b.free l s with
          | error e => rw [hdone] at h; cases h
          | ok x =>
            obtain ⟨p, answer⟩ := x
            rw [hdone] at h
            cases h
            have hplace : (Function.update b.sheets l p) l = p := Function.update_self ..
            cases p with
            | none =>
              cases does_of_done hdone
              simp [Board.play, Task.act, Move.again, Work.again, Except.map]
            | some s' =>
              have hagain := fun free' => done_again hdone hm free'
              simp only [Board.play, hplace, Task.act, allows_after_done hdone hallows, if_true,
                hagain, Move.again]
              cases w.again answer with
              | error e => rfl
              | ok r => simp [Except.map, Function.update_idem]
        · cases h

end

end shared_todos.board
