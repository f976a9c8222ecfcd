import TaskWatch.Proofs.Call.Runs
import TaskWatch.Proofs.Online.Answers

/-!
# Runs over a network

Rounds in one go over a network are courses online, whatever the network does with its state: all
that comes of a request is the reply.

* `Consults`: a check reads what one reply says, whatever network that came over.
* `Course.online`: a course whose readings come from replies is one online.
* `Leads.online`: so are runs in one go, such as those of `leads_runOut`.
-/

namespace TaskWatch.Monitor

open TaskWatch.Api
open TaskWatch.Resource

variable {T : Type}

/-- What a check reads over a network is what it reads from some reply. -/
def Consults (check : {σ : Type} → Network σ → Check σ T) : Prop :=
  ∀ {σ : Type} (net : Network σ) (t : T) (st : σ), ∃ reply,
    (check net t st).1.toOption = (check (.recording reply) t []).1.toOption

theorem consults_tasks (c : Client) : Consults fun net => taskCheck (c.backend net) := by
  intro σ net t st
  cases hlink : t.selfLink with
  | none =>
    have hquiet : c.taskLaw.request? t = none := Option.map_eq_none_iff.mpr hlink
    refine ⟨.nothing, ?_⟩
    rw [(c.taskLaw_governs.unlinked hquiet net st).1, (c.taskLaw_governs.unlinked hquiet _ []).1]
  | some link =>
    refine ⟨(net.send (c.request link.href taskMediaType) st).1, ?_⟩
    rw [(c.taskCheck_linked net st hlink).1, (c.taskCheck_linked _ [] hlink).1]
    rfl

variable {check : {σ : Type} → Network σ → Check σ T} {w₀ w : Scene T} {evs : List (Event T)}

/-- A course whose readings come from replies is one online. -/
theorem Course.online (h : Course Step w₀ evs w)
    (hall : ∀ e r, .answered e r ∈ evs →
      ∃ reply, r = (check (.recording reply) e.target []).1.toOption) :
    ∃ log, log.map Prod.fst = evs ∧ Course (Online.Step check) w₀ log w := by
  induction h with
  | refl => exact ⟨[], rfl, .refl⟩
  | @tail evs w w' ev prior next ih =>
    obtain ⟨log, rfl, hlog⟩ := ih fun e r hm => hall e r (List.mem_append_left _ hm)
    cases ev with
    | answered e r =>
      obtain ⟨reply, rfl⟩ := hall e r (List.mem_append_right _ List.mem_cons_self)
      exact ⟨_, by simp, hlog.tail (.read reply next)⟩
    | _ => exact ⟨log ++ [(_, [])], by simp, hlog.tail (.other next rfl)⟩

/-- **Runs over a network are courses online.** -/
theorem Leads.online {σ : Type} {net : Network σ} {s : Standing} {c c' : Call T}
    (hc : Consults check) (h : Leads (check net).Gives s c c') :
    ∃ log, Course (Online.Step check) ⟨c, s⟩ log ⟨c', s⟩ := by
  obtain ⟨evs, hcourse, hall⟩ := h
  obtain ⟨log, -, hlog⟩ := hcourse.online fun e r hm => by
    obtain ⟨st, rfl⟩ := hall e r hm
    exact hc net e.target st
  exact ⟨log, hlog⟩

end TaskWatch.Monitor
