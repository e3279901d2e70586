import Dialogue.Proofs.Session.Moves

/-!
Tickets.

A ticket is given out once, together with the event that it stands for. `Session.Carries` says that
an event in the queue with this ticket can be no other than this one; whatever happens to the
session later leaves that true (`Next.carries`).
-/
namespace Dialogue

namespace Session

/-- Tickets in the queue were given out. -/
def Ticketed (s : Session) : Prop :=
  ∀ e ∈ s.queue, ∀ ticket, e.ticket = some ticket → ticket < s.tickets

/-- The ticket was given out for this event and no other. -/
structure Carries (ticket : Nat) (event : Event) (s : Session) : Prop where
  given : ticket < s.tickets
  only : ∀ e ∈ s.queue, e.ticket = some ticket → e.event = event

variable {s s' : Session}

theorem start_ticketed (id : String) (m : Machine) (metadata : Json.Fields) :
    (start id m metadata).1.Ticketed := by
  intro e he
  rw [start_queue] at he
  cases he

theorem Next.ticketed (hs : s.Ticketed) (h : s.Next s') : s'.Ticketed := by
  intro e he ticket ht
  rcases h.queue_cases with ⟨hn, hq⟩ | ⟨x, hn, hq⟩ | ⟨x, hn, hq⟩
  · rw [hn]; exact hs e (hq.subset he) ticket ht
  · rw [hq] at he
    rcases List.mem_append.1 he with he | he
    · rw [hn]; exact hs e he ticket ht
    · rw [List.mem_singleton.1 he] at ht; cases ht
  · rw [hq] at he
    rw [hn]
    rcases List.mem_append.1 he with he | he
    · exact Nat.lt_succ_of_lt (hs e he ticket ht)
    · rw [List.mem_singleton.1 he] at ht
      cases ht
      exact Nat.lt_succ_self _

/-- An event that is submitted has its ticket for itself. -/
theorem submit_carries (hs : s.Ticketed) (event : Event) (site : Site) :
    Carries s.tickets event ((s.submit event).2.absorbed site) where
  given := Nat.lt_succ_self _
  only := by
    intro e he ht
    rcases List.mem_append.1 he with he | he
    · exact absurd (hs e he _ ht) (Nat.lt_irrefl _)
    · rw [List.mem_singleton.1 he]

theorem Next.carries {ticket : Nat} {event : Event} (hs : Carries ticket event s)
    (h : s.Next s') : Carries ticket event s' := by
  rcases h.queue_cases with ⟨hn, hq⟩ | ⟨x, hn, hq⟩ | ⟨x, hn, hq⟩
  · exact ⟨by rw [hn]; exact hs.given, fun e he => hs.only e (hq.subset he)⟩
  · refine ⟨by rw [hn]; exact hs.given, fun e he ht => ?_⟩
    rw [hq] at he
    rcases List.mem_append.1 he with he | he
    · exact hs.only e he ht
    · rw [List.mem_singleton.1 he] at ht; cases ht
  · refine ⟨by rw [hn]; exact Nat.lt_succ_of_lt hs.given, fun e he ht => ?_⟩
    rw [hq] at he
    rcases List.mem_append.1 he with he | he
    · exact hs.only e he ht
    · -- The new event has the next ticket, and this one was given out before.
      rw [List.mem_singleton.1 he] at ht
      cases ht
      exact absurd hs.given (Nat.lt_irrefl _)

end Session

namespace World

variable {w : World}

theorem run_ticketed (hw : w.Empty) (moves : List Move) {id : String} {s : Session}
    (hs : (w.run moves).session? id = some s) : s.Ticketed :=
  run_session Session.start_ticketed (fun _ _ h hn => hn.ticketed h) hw moves id s hs

end World

end Dialogue
