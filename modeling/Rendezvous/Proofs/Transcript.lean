import Rendezvous.Proofs.Acceptance
import Rendezvous.Session

/-!
# What a session writes down

A session lists the calls on the stores by their texts. Only the call for the list of waits has the
text `find_paused`, since the other methods are no prefixes of it, and a cycle makes it once. So the
list of calls shows how many cycles were run (`Session.listings_cycle`).

Nothing that a procedure asks for has a bearing on the schedule or on those who wait
(`Session.run_keeps`).
-/

namespace Rendezvous

open Proc

/-! ## A cycle lists the waits once -/

/-- A request other than for the list of waits, with which every cycle begins and nothing else
does. -/
def Request.ListsNothing : Request → Prop
  | .events .paused => False
  | _ => True

namespace Engine

theorem asks_resume_listing (g : Engine) (e current : Record) :
    (g.resume e current).Asks Request.ListsNothing := by
  rcases g.resume_cases e current with ⟨entry, o, -, heq, -⟩ | ⟨-, -, -, heq⟩
  · rw [heq]
    exact ⟨trivial, fun _ => trivial⟩
  · rw [heq]
    exact ⟨trivial, asks_conclude_of (fun _ => trivial) fun _ => trivial⟩

theorem asks_accept_listing (g : Engine) (e : Record) :
    (g.accept e).Asks Request.ListsNothing := by
  cases hkey : Text.blank e.key with
  | true =>
      rw [accept_of_blank g hkey]
      exact ⟨trivial, fun _ => trivial⟩
  | false =>
      rw [accept_eq g hkey]
      refine asks_bind (fun _ => asks_bind (fun found => ?_) (asks_request trivial))
        (asks_bind (fun saved => ?_) (asks_request trivial))
      · match found with
        | .ok none | .error f => exact ⟨trivial, fun _ => trivial⟩
        | .ok (some current) => exact g.asks_resume_listing e current
      · cases saved with
        | ok => trivial
        | error f => exact ⟨trivial, fun _ => trivial⟩

theorem asks_wake_listing (g : Engine) (r : Record) : (g.wake r).Asks Request.ListsNothing := by
  unfold wake
  cases g.mailbox with
  | none => trivial
  | some mailbox =>
      dsimp only
      split
      · trivial
      · refine asks_bind (fun n => ?_) (asks_request trivial)
        split
        · trivial
        · refine asks_bind (fun _ => ?_) (asks_complete trivial fun _ => trivial)
          exact asks_bind (fun _ => asks_pure _) (asks_request trivial)

end Engine

namespace Poller

theorem asks_candidate_listing (wait : Record) : (candidate wait).Asks Request.ListsNothing := by
  unfold candidate
  cases wait.eventType with
  | some t => exact ⟨trivial, fun found => by cases found <;> trivial⟩
  | none => exact ⟨trivial, fun found => by cases found <;> trivial⟩

theorem asks_visit_listing (p : Poller) (acc : Tally) (wait : Record) :
    (p.visit acc wait).Asks Request.ListsNothing := by
  unfold visit
  dsimp only
  split
  · exact asks_bind (fun _ => asks_pure _) (p.engine.asks_wake_listing wait)
  · refine asks_bind (fun found => ?_) (asks_candidate_listing wait)
    match found with
    | .ok none => exact asks_pure _
    | .error f => exact ⟨trivial, fun _ => trivial⟩
    | .ok (some e) =>
        refine asks_bind (fun o => ?_) (p.engine.asks_accept_listing e)
        cases o with
        | resumeReady | lookupFailed | markFailed => exact asks_pure _
        | _ => exact ⟨trivial, fun _ => trivial⟩

theorem asks_visitAll_listing (p : Poller) : ∀ (waits : List Record) (acc : Tally),
    (p.visitAll acc waits).Asks Request.ListsNothing
  | [], acc => asks_pure acc
  | wait :: rest, acc => asks_bind (fun _ => asks_visitAll_listing p rest _)
      (p.asks_visit_listing acc wait)

/-- A cycle asks for the list of waits first and not again. So cycles can be counted by the calls of
the session. -/
theorem cycle_eq (p : Poller) : ∃ next, p.cycle = .ask (.events .paused) next
    ∧ ∀ waits, (next waits).Asks Request.ListsNothing := by
  refine ⟨_, rfl, fun waits => asks_bind (fun acc => ?report) ?visits⟩
  case report => exact ⟨trivial, fun _ => trivial⟩
  case visits =>
    match waits with
    | .ok waits => exact p.asks_visitAll_listing waits .zero
    | .error f => exact ⟨trivial, fun _ => trivial⟩

end Poller

/-! ## The calls of a session -/

namespace Session

/-- How often the waits were listed in this step, as the list of its calls shows. -/
def listings (s : Session) : Nat := s.calls.count "find_paused"

theorem prefix_callText (method : String) (arguments : List String) :
    method.toList <+: (callText method arguments).toList := by
  unfold callText
  cases arguments.filter (· ≠ "") with
  | nil => exact String.intercalate_singleton ▸ List.prefix_rfl
  | cons a l =>
      rw [String.intercalate_cons_cons, String.toList_append, String.toList_append,
        List.append_assoc]
      exact List.prefix_append _ _

theorem callText_ne {method : String} (h : ¬ method.toList <+: "find_paused".toList)
    (arguments : List String) : callText method arguments ≠ "find_paused" :=
  fun heq => h (heq ▸ prefix_callText method arguments)

theorem outrun_eq (s : Session) (c : EventCall) :
    ∃ state, s.outrun c = { s with state } := by
  unfold outrun
  split
  · split
    · exact ⟨_, rfl⟩
    · exact ⟨_, rfl⟩
  · exact ⟨_, rfl⟩

/-- The calls that answering a request adds to the list of the step: one for a call on a store, none
for others. -/
def texts : Request → List String
  | .events c => [callText c.method c.arguments]
  | .scenarios c => [callText c.method c.arguments]
  | _ => []

/-- All that answering a request changes. -/
theorem answer_eq (r : Request) (s : Session) :
    ∃ state eventFaults scenarioFaults log, (answer r s).2
      = { s with state, eventFaults, scenarioFaults, log, calls := texts r ++ s.calls } := by
  cases r with
  | events c =>
      rcases hcheck : s.eventFaults.check c.method c.arguments with ⟨fault, rules⟩
      simp only [answer, hcheck]
      cases fault with
      | some f => exact ⟨_, _, _, _, rfl⟩
      | none =>
          dsimp only
          obtain ⟨state, houtrun⟩ := outrun_eq { s with
            calls := callText c.method c.arguments :: s.calls, eventFaults := rules } c
          rw [houtrun]
          exact ⟨_, _, _, _, rfl⟩
  | scenarios c =>
      rcases hcheck : s.scenarioFaults.check c.method c.arguments with ⟨fault, rules⟩
      simp only [answer, hcheck]
      cases fault with
      | some f => exact ⟨_, _, _, _, rfl⟩
      | none => exact ⟨_, _, _, _, rfl⟩
  | _ => exact ⟨_, _, _, _, rfl⟩

theorem count_texts {r : Request} (h : r.ListsNothing) : (texts r).count "find_paused" = 0 := by
  refine List.count_eq_zero.mpr fun hm => ?_
  cases r with
  | events c =>
      refine callText_ne ?_ c.arguments (List.mem_singleton.mp hm).symm
      cases c with
      | paused => exact h.elim
      | _ => dsimp only [EventCall.method]; decide
  | scenarios c =>
      refine callText_ne ?_ c.arguments (List.mem_singleton.mp hm).symm
      cases c <;> (dsimp only [ScenarioCall.method]; decide)
  | _ => cases hm

theorem listings_answer (r : Request) (s : Session) :
    (answer r s).2.listings = s.listings + (texts r).count "find_paused" := by
  obtain ⟨_, _, _, _, hanswer⟩ := answer_eq r s
  rw [hanswer, Nat.add_comm]
  exact List.count_append

/-- Whatever a procedure asks for, the schedule and those who wait stay as they are. Procedures know
of neither. -/
theorem run_keeps {α : Type} : ∀ (p : Proc α) (s : Session),
    (Script.run p s).2.schedule = s.schedule ∧ (Script.run p s).2.waits = s.waits
  | .done _, _ => ⟨rfl, rfl⟩
  | .ask r next, s => by
      obtain ⟨_, _, _, _, hanswer⟩ := answer_eq r s
      have hrest := run_keeps (next (answer r s).1) (answer r s).2
      rw [hanswer] at hrest
      change (Script.run (next (answer r s).1) (answer r s).2).2.schedule = _
        ∧ (Script.run (next (answer r s).1) (answer r s).2).2.waits = _
      rwa [hanswer]

theorem listings_run {α : Type} : ∀ {p : Proc α}, p.Asks Request.ListsNothing →
    ∀ s : Session, (Script.run p s).2.listings = s.listings
  | .done _, _, _ => rfl
  | .ask r next, ⟨hr, hn⟩, s => by
      have hanswer := listings_answer r s
      rw [count_texts hr, Nat.add_zero] at hanswer
      exact (listings_run (hn _) (answer r s).2).trans hanswer

theorem listings_cycle (p : Poller) (s : Session) :
    (Script.run p.cycle s).2.listings = s.listings + 1 := by
  obtain ⟨next, heq, hnext⟩ := p.cycle_eq
  rw [heq]
  exact (listings_run (hnext _) (answer (.events .paused) s).2).trans (listings_answer _ s)

end Session

end Rendezvous
