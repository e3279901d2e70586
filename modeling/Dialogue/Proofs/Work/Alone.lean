import Dialogue.Work.Host

/-!
Work that runs alone.

Running a program that goes on with the result of another one is running the one and then the other
(`runAlone_bind`). `Work.Gives` says of a program that its result does not depend on where it runs,
as long as requests are answered by a given endpoint, and that it leaves the cache as it is.
-/
namespace Dialogue

namespace Work

variable {α β : Type}

theorem runAlone_bind (cancelAtMs : Option Nat) (f : α → Work β) : ∀ (w : Work α) (s : Site),
    (w.bind f).runAlone cancelAtMs s =
      match w.runAlone cancelAtMs s with
      | (some a, s') => (f a).runAlone cancelAtMs s'
      | (none, s') => (none, s')
  | .done _, _ => rfl
  | .abort, _ => rfl
  | .ask q next, s => by
    simp only [bind, runAlone]
    exact runAlone_bind cancelAtMs f (next (s.answer q).1) (s.answer q).2
  | .wait ms heeds next, s => by
    simp only [bind, runAlone]
    -- Both sides wait alike, and go on with the same wake.
    split
    · exact runAlone_bind cancelAtMs f (next .cancelled) _
    · exact runAlone_bind cancelAtMs f (next .timeUp) _
    · rfl

/-- Wherever requests are answered by the endpoint, the work gives this result, and leaves the cache
as it is. -/
def Gives (reply : HttpRequest → HttpReply) (w : Work α) (a : α) : Prop :=
  ∀ s : Site, s.host.network = .endpoint reply →
    ∃ s', w.runAlone none s = (some a, s') ∧ s'.host.network = .endpoint reply ∧
      s'.host.cache = s.host.cache

namespace Gives

variable {reply : HttpRequest → HttpReply} {w : Work α} {a b : α}

theorem done (reply : HttpRequest → HttpReply) (a : α) : (Work.done a).Gives reply a :=
  fun s hn => ⟨s, rfl, hn, rfl⟩

theorem bind {f : α → Work β} {b : β} (hw : w.Gives reply a) (hf : (f a).Gives reply b) :
    (w.bind f).Gives reply b := by
  intro s hn
  obtain ⟨s', hrun, hn', hc'⟩ := hw s hn
  obtain ⟨s'', hrun', hn'', hc''⟩ := hf s' hn'
  refine ⟨s'', ?_, hn'', hc''.trans hc'⟩
  rw [runAlone_bind, hrun]
  exact hrun'

theorem send (reply : HttpRequest → HttpReply) (request : HttpRequest) (timeoutMs : Nat) :
    (Work.send request timeoutMs).Gives reply ((reply request).within timeoutMs).2 := by
  intro s hn
  have hanswer : s.answer (.send request) =
      (reply request, { s with host := { s.host with
        sent := s.host.sent ++ [(s.host.nowMs, request)] } }) := by
    simp only [Site.answer, Host.send, hn, Network.send]
    rfl
  unfold Work.send
  simp only [runAlone, hanswer]
  exact ⟨_, rfl, hn, rfl⟩

/-- Work gives one result. -/
theorem unique (h : w.Gives reply a) (h' : w.Gives reply b) : a = b := by
  let host : Host := { network := .endpoint reply }
  obtain ⟨s, hs, -⟩ := h { host, stores := { own := {}, shared := {}, owner := "" } } rfl
  obtain ⟨s', hs', -⟩ := h' { host, stores := { own := {}, shared := {}, owner := "" } } rfl
  rw [hs] at hs'
  exact Option.some.inj (congrArg Prod.fst hs')

end Gives

end Work

end Dialogue
