import Dialogue.Proofs.Session.Flight
import Dialogue.Proofs.Session.Taking
import Dialogue.Proofs.Session.Tickets

/-!
Replies.

A session replies to a ticket when it has handled the event that the ticket stands for. Before it
has taken that event it says nothing to the ticket (`Session.Silent`): neither has a reply been
given, nor is one left to do. So whoever has got a reply knows that the session has taken the event
(`World.Awaits.replied`), whatever else happened in between.
-/
namespace Dialogue

namespace Session

variable {s s' : Session} {ticket : Nat}

/-- Nothing was said to the ticket, and nothing is about to be. -/
structure Silent (ticket : Nat) (s : Session) : Prop where
  replies : ∀ reply, (ticket, reply) ∉ s.replies
  deeds : ∀ outcome, .reply ticket outcome ∉ s.deeds

theorem Silent.reply? (h : s.Silent ticket) : s.reply? ticket = none := by
  rw [Session.reply?, List.lookup_eq_none_iff]
  rintro ⟨other, reply⟩ hmem
  rw [bne_iff_ne]
  rintro rfl
  exact h.replies reply hmem

/-! ## Turns -/

@[simp] theorem cancelInFlight_replies (s : Session) : s.cancelInFlight.replies = s.replies := by
  unfold cancelInFlight
  split <;> rfl

@[simp] theorem perform_replies (s : Session) (e : Effect) :
    (s.perform e).1.replies = s.replies := by
  cases e with
  | invokeAction step invocation action => exact cancelInFlight_replies s
  | cancelAction invocation =>
    simp only [perform]
    split
    · exact cancelInFlight_replies s
    · rfl
  | _ => rfl

@[simp] theorem performAll_replies : ∀ (effects : List Effect) (s : Session),
    (s.performAll effects).1.replies = s.replies
  | [], _ => rfl
  | e :: rest, s => (performAll_replies rest (s.perform e).1).trans (perform_replies s e)

@[simp] theorem giveReply_deeds (s : Session) (ticket : Option Nat) (reply : Reply) :
    (s.giveReply ticket reply).deeds = s.deeds := by
  cases ticket <;> rfl

/-- A reply to one ticket says nothing to another. -/
theorem Silent.giveReply (h : s.Silent ticket) {other : Option Nat} (hne : other ≠ some ticket)
    (reply : Reply) : (s.giveReply other reply).Silent ticket where
  replies := by
    intro r hr
    cases other with
    | none => exact h.replies r hr
    | some other =>
      rcases List.mem_append.1 hr with hr | hr
      · exact h.replies r hr
      · cases List.mem_singleton.1 hr
        exact hne rfl
  deeds := by rw [giveReply_deeds]; exact h.deeds

theorem Silent.act {deed : Deed} {rest : List Deed} (h : s.Silent ticket)
    (hd : s.deeds = deed :: rest) : ({ s with deeds := rest }.act deed).1.Silent ticket := by
  have hrest : ({ s with deeds := rest } : Session).Silent ticket := by
    refine ⟨h.replies, fun outcome hmem => h.deeds outcome ?_⟩
    rw [hd]
    exact List.mem_cons_of_mem deed hmem
  cases deed with
  | effect e => exact ⟨by rw [Session.act, perform_replies]; exact hrest.replies,
      by rw [Session.act, perform_deeds]; exact hrest.deeds⟩
  | announce => exact ⟨hrest.replies, hrest.deeds⟩
  | reply other outcome =>
    show (({ s with deeds := rest } : Session).giveReply (some other) (.ok outcome)).Silent ticket
    refine hrest.giveReply (fun he => h.deeds outcome ?_) _
    cases he
    rw [hd]
    exact List.mem_cons_self

theorem Silent.handle (h : s.Silent ticket) {e : Envelope} (hne : e.ticket ≠ some ticket) :
    (s.handle e).Silent ticket := by
  unfold Session.handle
  split
  · exact h.giveReply hne _
  · next t _ =>
    refine ⟨h.replies, fun outcome hmem => hne ?_⟩
    rcases List.mem_append.1 hmem with hmem | hmem
    · -- Effects and the announcement are no replies.
      simp at hmem
    · obtain ⟨other, hother, he⟩ := List.mem_map.1 hmem
      cases he
      exact Option.mem_toList.1 hother

/-- A turn says nothing to the ticket unless it takes the event of the ticket. -/
theorem Silent.turn (h : s.Silent ticket) (hn : ∀ e, s.Takes e → e.ticket ≠ some ticket) :
    s.turn.1.Silent ticket := by
  rcases turn_cases s with ⟨deed, rest, hd, ht⟩ | ⟨hd, -, ht⟩ | ⟨e, rest, hd, hs, hq, ht⟩ | ht
  · rw [ht]; exact h.act hd
  · rw [ht]
    refine ⟨?_, ?_⟩
    · rw [show s.stop.replies = s.replies from cancelInFlight_replies s]
      exact h.replies
    · rw [show s.stop.deeds = s.deeds from cancelInFlight_deeds s]
      exact h.deeds
  · rw [ht]
    have hqueue : ({ s with queue := rest } : Session).Silent ticket := ⟨h.replies, h.deeds⟩
    exact hqueue.handle (hn e ⟨hd, hs, by rw [hq]; rfl⟩)
  · rw [ht]; exact h

theorem Beside.replies (h : s.Beside s') : s'.replies = s.replies := by
  cases h with
  | posted e =>
    unfold post
    split <;> rfl
  | _ => rfl

/-- What happens beside a session says nothing. -/
theorem Silent.beside (h : s.Silent ticket) (hb : s.Beside s') : s'.Silent ticket where
  replies := by rw [hb.replies]; exact h.replies
  deeds := by rw [hb.keeps.deeds]; exact h.deeds

/-! ## Tickets that are not given out yet -/

/-- Nothing was said to tickets that were not given out. -/
def Unspoken (s : Session) : Prop := ∀ ticket, s.tickets ≤ ticket → s.Silent ticket

theorem start_unspoken (id : String) (m : Machine) (metadata : Json.Fields) :
    (start id m metadata).1.Unspoken := by
  intro ticket _
  refine ⟨?_, ?_⟩
  · rw [show (start id m metadata).1.replies = [] from performAll_replies _ _]
    exact fun reply => List.not_mem_nil
  · rw [show (start id m metadata).1.deeds = [] from performAll_deeds _ _]
    exact fun outcome => List.not_mem_nil

theorem Next.tickets_le (h : s.Next s') : s.tickets ≤ s'.tickets := by
  rcases h.queue_cases with ⟨hn, -⟩ | ⟨x, hn, -⟩ | ⟨x, hn, -⟩
  · exact Nat.le_of_eq hn.symm
  · exact Nat.le_of_eq hn.symm
  · exact Nat.le_of_lt (by rw [hn]; exact Nat.lt_succ_self _)

theorem Next.unspoken (ticketed : s.Ticketed) (hs : s.Unspoken) (h : s.Next s') :
    s'.Unspoken := by
  intro ticket hle
  have hfree : s.tickets ≤ ticket := Nat.le_trans h.tickets_le hle
  have hsilent := hs ticket hfree
  rcases h.cases with rfl | h
  · refine hsilent.turn fun e htakes he => ?_
    -- What is in the queue has a ticket that was given out.
    have hgiven := ticketed e (List.mem_of_mem_head? htakes.queue) ticket he
    exact absurd hfree (Nat.not_le_of_lt hgiven)
  · exact hsilent.beside h

end Session

namespace World

variable {w : World} {sid : String} {moves : List Move} {ticket : Nat} {event : Event}
  {s : Session}

theorem run_unspoken (hw : w.Empty) (moves : List Move) {id : String} {s : Session}
    (hs : (w.run moves).session? id = some s) : s.Unspoken :=
  (run_session (P := fun s => s.Ticketed ∧ s.Unspoken)
    (fun id m metadata =>
      ⟨Session.start_ticketed id m metadata, Session.start_unspoken id m metadata⟩)
    (fun _ _ h hn => ⟨hn.ticketed h.1, hn.unspoken h.1 h.2⟩) hw moves id s hs).2

/-- The ticket stands for the event, and the session says nothing to it before it has taken the
event in the course of the moves. -/
structure Awaits (w : World) (sid : String) (moves : List Move) (ticket : Nat) (event : Event)
    (s : Session) : Prop where
  carries : s.Carries ticket event
  heard : s.Silent ticket ∨ event ∈ w.taken sid moves

/-- Whoever has got a reply knows that the event was taken. -/
theorem Awaits.replied (h : Awaits w sid moves ticket event s) {reply : Reply}
    (hr : s.reply? ticket = some reply) : event ∈ w.taken sid moves := by
  rcases h.heard with hsilent | htaken
  · rw [hsilent.reply?] at hr; cases hr
  · exact htaken

/-- An event that is submitted is awaited from then on. -/
theorem submit_awaits (ticketed : s.Ticketed) (unspoken : s.Unspoken) (event : Event)
    (site : Site) : Awaits w sid moves s.tickets event ((s.submit event).2.absorbed site) where
  carries := Session.submit_carries ticketed event site
  heard := by
    have hsilent := unspoken s.tickets (Nat.le_refl _)
    exact .inl ⟨hsilent.replies, hsilent.deeds⟩

theorem Awaits.move (hw : (w.run moves).Sound) (hs : (w.run moves).session? sid = some s)
    (h : Awaits w sid moves ticket event s) (mv : Move) :
    ∃ s', (w.run (moves ++ [mv])).session? sid = some s' ∧
      Awaits w sid (moves ++ [mv]) ticket event s' := by
  obtain ⟨s', hs', hmoved⟩ := move_cases hw hs mv
  refine ⟨s', by rw [run_concat, hs'], ?_⟩
  rcases hmoved with ⟨hl, rfl⟩ | ⟨-, hbeside⟩
  · refine ⟨Session.Next.turned.carries h.carries, ?_⟩
    rw [taken_concat]
    rcases h.heard with hsilent | htaken
    · by_cases hown : ∃ e, s.Takes e ∧ e.ticket = some ticket
      · -- The turn takes the event of the ticket, which is the one that was submitted with it.
        obtain ⟨e, htakes, he⟩ := hown
        have hevent := h.carries.only e (List.mem_of_mem_head? htakes.queue) he
        rw [takes_of_loops hl hs htakes, hevent]
        exact .inr (List.mem_append_right _ (List.mem_singleton_self _))
      · exact .inl (hsilent.turn fun e htakes he => hown ⟨e, htakes, he⟩)
    · exact .inr (List.mem_append_left _ htaken)
  · refine ⟨hbeside.next.carries h.carries, ?_⟩
    rw [taken_concat]
    exact h.heard.imp (fun hsilent => hsilent.beside hbeside) (List.mem_append_left _)

end World

end Dialogue
