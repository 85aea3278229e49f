import Rendezvous.Proofs.Renewing
import Rendezvous.Proofs.Waking

/-!
# What one poll cycle comes to

A cycle lists the waits of the moment and visits them one by one. The waits that it ends become
observations themselves, which later visits of the cycle find, and any call can fail. All the same
each wait fares by the store the cycle started from and by the calls made for itself
(`Poller.callsFor`), whatever becomes of the others (`sweep_exact`): until its turn comes its record
is as it was, and which observations of a type there are, and what the newest of them shows, is the
same as at the start (`RecordStore.Renewed`).
-/

namespace Rendezvous

open Proc

/-! ## Failures that are counted -/

def Request.SavesNothing : Request → Prop
  | .events (.save _) => False
  | _ => True

theorem Request.SparesRecords.savesNothing {r : Request} (h : r.SparesRecords) :
    r.SavesNothing := by
  cases r with
  | events c =>
      cases c with
      | save => exact h
      | _ => trivial
  | _ => trivial

theorem Placed.savesAside_append {l m : List Placed} :
    SavesAside (l ++ m) ↔ SavesAside l ∧ SavesAside m := List.forall_mem_append

section

variable {α : Type} {x : Exposure} {post : α → State → Prop} {s : State}

/-- A call is one of those that the procedure can make. -/
theorem Proc.asks_calls {ok : Request → Prop} : ∀ {p : Proc α} {s : State}, p.Asks ok →
    ∀ (faults : Nat → Option Fault), ∀ c ∈ calls x faults p s, ok c.call
  | .done _, _, _, _, c, hc => by cases hc
  | .ask r next, s, ⟨hr, hn⟩, faults, c, hc => by
      rw [calls] at hc
      rcases List.mem_append.mp hc with hc | hc
      · cases r with
        | events | scenarios =>
            obtain rfl := List.mem_singleton.mp hc
            exact hr
        | _ => cases hc
      · exact asks_calls (hn _) _ c hc

/-- A procedure that saves nothing goes as without faults, if all but saves are answered: there is
then no call that could fail. -/
theorem Proc.recounts_of_asks {p : Proc α} (hp : p.Asks Request.SavesNothing)
    (h : Leads (State.reply .none) post p s) :
    Recounts x (fun l a t => Placed.SavesAside l → post a t) p s := by
  intro faults haside
  have hanswered : ∀ c ∈ calls x faults p s, c.answered = true := by
    intro c hc
    refine (haside c hc).resolve_right ?_
    rintro ⟨e, he⟩
    have hsaves := asks_calls hp faults c hc
    rw [he] at hsaves
    exact hsaves
  rw [runFaulty_of_answered x faults p s hanswered]
  exact h.run

end

namespace Engine

theorem asks_settle (g : Engine) (e : Record) : (g.settle e).Asks Request.SavesNothing := by
  refine asks_bind (fun found => ?_) (asks_request trivial)
  match found with
  | .ok none | .error f => exact ⟨trivial, fun _ => trivial⟩
  | .ok (some current) =>
      rcases g.resume_cases e current with ⟨entry, o, -, heq, -⟩ | ⟨-, -, -, heq⟩
      · change (g.resume e current).Asks _
        rw [heq]
        exact ⟨trivial, fun _ => trivial⟩
      · change (g.resume e current).Asks _
        rw [heq]
        refine asks_bind (fun answer => ?_) (asks_request trivial)
        exact (g.asks_conclude e answer).mono fun _ => Request.SparesRecords.savesNothing

/-- Unless a call other than a save fails, it is found out whether the wait is over, and if so
that is recorded. -/
theorem recounts_accept (x : Exposure) (g : Engine) (e : Record) (s : State) :
    Recounts x (fun l o _ => Placed.SavesAside l → o ≠ .lookupFailed ∧ o ≠ .markFailed)
      (g.accept e) s := by
  cases hkey : Text.blank e.key with
  | true =>
      rw [accept_of_blank g hkey]
      exact recounts_note (recounts_done fun _ => by decide)
  | false =>
      rw [accept_eq g hkey]
      refine recounts_bind ((leads_persist x e s).recounts.mono fun l _ s₁ _ => ?_)
      refine (recounts_of_asks (g.asks_settle e) (leads_settle .none g e s₁)).mono ?_
      intro m o t hsettled haside
      cases hsettled (Placed.savesAside_append.mp haside).2 with
      | lookupFailed hx => cases hx
      | markFailed _ _ _ _ hx => cases hx
      | _ => decide

end Engine

namespace Poller

/-- Unless a call other than a save fails, a visit counts no error. -/
theorem recounts_visit (x : Exposure) (p : Poller) (acc : Tally) (wait : Record) (s : State) :
    Recounts x (fun l acc' _ => Placed.SavesAside l → acc'.errors = acc.errors)
      (p.visit acc wait) s := by
  unfold visit
  dsimp only
  split
  · exact recounts_bind ((Engine.leads_wake x p.engine wait s).recounts.mono fun _ _ _ _ =>
      recounts_done fun _ => rfl)
  · have hasks := (asks_candidate wait).mono fun _ h => h.sparesRecords.savesNothing
    refine recounts_bind ((recounts_of_asks hasks (leads_candidate .none wait s)).mono ?_)
    intro l found t hfound
    match found with
    | .ok none => exact recounts_done fun _ => rfl
    | .error f =>
        refine recounts_note (recounts_done fun haside => ?_)
        obtain ⟨-, h | ⟨hx, -⟩⟩ := hfound (Placed.savesAside_append.mp haside).1
        · cases h
        · cases hx
    | .ok (some e) =>
        refine recounts_bind ((Engine.recounts_accept x p.engine e t).mono fun m o u ho => ?_)
        have hm : ∀ {n : List Placed}, Placed.SavesAside (l ++ (m ++ n)) → Placed.SavesAside m :=
          fun h => (Placed.savesAside_append.mp (Placed.savesAside_append.mp h).2).1
        cases o with
        | resumeReady => exact recounts_done fun _ => rfl
        | lookupFailed => exact recounts_done fun h => absurd rfl (ho (hm h)).1
        | markFailed => exact recounts_done fun h => absurd rfl (ho (hm h)).2
        | _ => exact recounts_note (recounts_done fun _ => rfl)

/-! ## The visits of a cycle -/

/-- The calls that are made for the wait under `key`, when the waits are visited in turn. They
depend on what the visits before it have left. -/
def callsFor (p : Poller) (x : Exposure) (key : String) :
    (Nat → Option Fault) → Tally → List Record → State → List Placed
  | _, _, [], _ => []
  | faults, acc, wait :: rest, s =>
    if wait.key = key then calls x faults (p.visit acc wait) s
    else callsFor p x key (remaining x faults (p.visit acc wait) s)
      (runFaulty x faults (p.visit acc wait) s).1 rest (runFaulty x faults (p.visit acc wait) s).2

/-- The calls of a cycle that are made for the wait under `key`. The first call of the cycle, which
lists the waits, is made for none. -/
def ownCalls (p : Poller) (x : Exposure) (faults : Nat → Option Fault) (s : State)
    (key : String) : List Placed :=
  p.callsFor x key (fun n => faults (n + 1)) .zero s.events.paused s

section

variable {x : Exposure} {p : Poller}

theorem runFaulty_visitAll_cons (x : Exposure) (p : Poller) (faults : Nat → Option Fault)
    (acc : Tally) (wait : Record) (rest : List Record) (s : State) :
    runFaulty x faults (p.visitAll acc (wait :: rest)) s
      = runFaulty x (remaining x faults (p.visit acc wait) s)
          (p.visitAll (runFaulty x faults (p.visit acc wait) s).1 rest)
          (runFaulty x faults (p.visit acc wait) s).2 := runFaulty_bind ..

/-- The calls made for the waits are all the calls there are; each belongs to one visit. -/
theorem calls_visitAll (x : Exposure) (p : Poller) : ∀ (waits : List Record)
    (faults : Nat → Option Fault) (acc : Tally) (s : State), (waits.map (·.key)).Nodup →
      calls x faults (p.visitAll acc waits) s
        = waits.flatMap fun wait => p.callsFor x wait.key faults acc waits s
  | [], _, _, _, _ => rfl
  | wait :: rest, faults, acc, s, hnodup => by
      obtain ⟨hnew, hrest⟩ := List.nodup_cons.mp hnodup
      have htail : ∀ w ∈ rest, p.callsFor x w.key faults acc (wait :: rest) s
          = p.callsFor x w.key (remaining x faults (p.visit acc wait) s)
              (runFaulty x faults (p.visit acc wait) s).1 rest
              (runFaulty x faults (p.visit acc wait) s).2 := by
        intro w hw
        have hne : wait.key ≠ w.key := fun heq => hnew (List.mem_map.mpr ⟨w, hw, heq.symm⟩)
        rw [callsFor, if_neg hne]
      have hcons : p.visitAll acc (wait :: rest)
          = (p.visit acc wait >>= fun acc' => p.visitAll acc' rest) := rfl
      rw [hcons, calls_bind, calls_visitAll x p rest _ _ _ hrest, List.flatMap_cons,
        List.flatMap_congr htail, callsFor, if_pos rfl]

/-- Visits to others do not touch a record, however they go, as each is about the key of its
wait. -/
theorem find?_visitAll {key : String} {waits : List Record} (hne : ∀ w ∈ waits, w.key ≠ key)
    (faults : Nat → Option Fault) (acc : Tally) (s : State) :
    (runFaulty x faults (p.visitAll acc waits) s).2.events.find? key = s.events.find? key := by
  refine ((leads_visitAll (x := x) (p := p) (J := fun _ rest t => (∀ w ∈ rest, w.key ≠ key)
    ∧ t.events.find? key = s.events.find? key) ?_ waits acc s ⟨hne, rfl⟩).runFaulty faults).2
  intro _ wait rest t _ u ⟨hothers, ht⟩ hv
  refine ⟨fun w hw => hothers w (List.mem_cons_of_mem _ hw), ?_⟩
  exact (hv.find?_other (hothers wait List.mem_cons_self).symm).trans ht

/-- The waits that are still to be visited are as they were listed: each is kept unchanged under a
key of its own until its turn comes. -/
structure Pending (waits : List Record) (s : RecordStore) : Prop where
  nodup : (waits.map (·.key)).Nodup
  kept : ∀ w ∈ waits, s.find? w.key = some w
  paused : ∀ w ∈ waits, w.paused = true

theorem pending_paused {s : RecordStore} (hs : s.Keyed) : Pending s.paused s where
  nodup := RecordStore.nodup_paused hs
  kept w hw := by
    obtain ⟨⟨key, hkey⟩, -⟩ := RecordStore.mem_paused.mp hw
    rwa [hs key w hkey]
  paused w hw := (RecordStore.mem_paused.mp hw).2

/-- All calls of a cycle but the one that lists the waits are made for one of them. -/
theorem calls_sweep (x : Exposure) (p : Poller) {faults : Nat → Option Fault}
    (h : faults 0 = none) {s : State} (hs : s.events.Keyed) :
    calls x faults p.sweep s = ⟨.events .paused, true⟩
      :: s.events.paused.flatMap fun wait => p.ownCalls x faults s wait.key := by
  have hfirst : calls x faults p.sweep s = ⟨.events .paused, true⟩
      :: calls x (fun n => faults (n + 1)) (p.visitAll .zero s.events.paused) s := by
    have hask : p.sweep = .ask (.events .paused) fun waits => match waits with
        | .ok waits => p.visitAll .zero waits
        | .error f => do
          note (p.entry .warn "Failed to list paused contexts" [("error", .shown f.message)])
          return { Tally.zero with errors := 1 } := rfl
    rw [hask, calls, h, State.reply_nofault]
    rfl
  rw [hfirst, calls_visitAll x p _ _ _ _ (RecordStore.nodup_paused hs)]
  rfl

theorem Pending.visit {wait : Record} {rest : List Record} {acc acc' : Tally} {s t : State}
    (h : Pending (wait :: rest) s.events) (hv : p.Visited x acc wait s acc' t) :
    Pending rest t.events where
  nodup := (List.nodup_cons.mp h.nodup).2
  kept w hw := by
    have hne : w.key ≠ wait.key := fun heq =>
      (List.nodup_cons.mp h.nodup).1 (List.mem_map.mpr ⟨w, hw, heq⟩)
    exact (hv.find?_other hne).trans (h.kept w (List.mem_cons_of_mem _ hw))
  paused w hw := h.paused w (List.mem_cons_of_mem _ hw)

/-- What every visit to a wait keeps, as it was listed, the visits keep. Waits that are still to
come stay as they were listed, so each visit finds its own that way. -/
theorem keeps_visitAll {P : State → Prop}
    (hvisit : ∀ acc wait s acc' t, p.Visited x acc wait s acc' t →
      s.events.find? wait.key = some wait → wait.paused = true → P s → P t)
    {waits : List Record} {s : State} (h : Pending waits s.events) (hs : P s)
    (faults : Nat → Option Fault) (acc : Tally) :
    P (runFaulty x faults (p.visitAll acc waits) s).2 := by
  refine ((leads_visitAll (x := x) (p := p) (J := fun _ rest t => Pending rest t.events ∧ P t) ?_
    waits acc s ⟨h, hs⟩).runFaulty faults).2
  rintro _ wait rest t _ u ⟨hpending, ht⟩ hv
  have hkept := hpending.kept wait List.mem_cons_self
  have hpaused := hpending.paused wait List.mem_cons_self
  exact ⟨hpending.visit hv, hvisit _ wait t _ u hv hkept hpaused ht⟩

theorem renewed_visitAll (x : Exposure) (p : Poller) {waits : List Record} {s : State}
    (h : Pending waits s.events) (faults : Nat → Option Fault) (acc : Tally) :
    s.events.Renewed (runFaulty x faults (p.visitAll acc waits) s).2.events :=
  keeps_visitAll (P := fun t => s.events.Renewed t.events)
    (fun _ _ _ _ _ hv hw hp ht => ht.trans (hv.renewed hw hp)) h .rfl faults acc

/-- The turn of a wait: the visit finds the wait as it was listed, in a store that has been renewed
since, and decides what becomes of its record in the cycle. -/
structure Turned (p : Poller) (x : Exposure) (s : State) (wait : Record) (own : List Placed)
    (acc acc' : Tally) (before after final : State) : Prop where
  renewed : s.events.Renewed before.events
  kept : before.events.find? wait.key = some wait
  visited : p.Visited x acc wait before acc' after
  errors : Placed.SavesAside own → acc'.errors = acc.errors
  answered : (∀ c ∈ own, c.answered = true) → p.Visited .none acc wait before acc' after
  rest : after.events.Renewed final.events
  settled : final.events.find? wait.key = after.events.find? wait.key

theorem exists_turn (x : Exposure) (p : Poller) {wait : Record} : ∀ (waits : List Record)
    (faults : Nat → Option Fault) (acc : Tally) (s : State), Pending waits s.events →
      wait ∈ waits → ∃ acc₁ acc₂ s₁ s₂, Turned p x s wait (p.callsFor x wait.key faults acc waits s)
        acc₁ acc₂ s₁ s₂ (runFaulty x faults (p.visitAll acc waits) s).2
  | [], _, _, _, _, hm => by cases hm
  | head :: rest, faults, acc, s, h, hm => by
      have hhead := (leads_visit x p acc head s).runFaulty faults
      have hrest := h.visit hhead
      rw [runFaulty_visitAll_cons]
      rcases List.mem_cons.mp hm with rfl | hm
      · refine ⟨acc, _, s, _, .rfl, h.kept wait List.mem_cons_self, hhead, ?_, ?_,
          renewed_visitAll x p hrest _ _, ?_⟩
        · rw [callsFor, if_pos rfl]
          exact recounts_visit x p acc wait s faults
        · rw [callsFor, if_pos rfl]
          intro hanswered
          rw [runFaulty_of_answered x faults _ s hanswered]
          exact (leads_visit .none p acc wait s).run
        · refine find?_visitAll (fun w hw heq => ?_) _ _ _
          exact (List.nodup_cons.mp h.nodup).1 (List.mem_map.mpr ⟨w, hw, heq⟩)
      · have hne : head.key ≠ wait.key := fun heq =>
          (List.nodup_cons.mp h.nodup).1 (List.mem_map.mpr ⟨wait, hm, heq.symm⟩)
        obtain ⟨acc₁, acc₂, s₁, s₂, hturn⟩ := exists_turn x p rest
          (remaining x faults (p.visit acc head) s) _ _ hrest hm
        have hrenewed := hhead.renewed (h.kept head List.mem_cons_self)
          (h.paused head List.mem_cons_self)
        refine ⟨acc₁, acc₂, s₁, s₂, hrenewed.trans hturn.renewed, hturn.kept, hturn.visited,
          ?_, ?_, hturn.rest, hturn.settled⟩
        · rw [callsFor, if_neg hne]
          exact hturn.errors
        · rw [callsFor, if_neg hne]
          exact hturn.answered

end

namespace Turned

variable {p : Poller} {x : Exposure} {s before after final : State} {wait : Record}
  {own : List Placed} {acc acc' : Tally} {eventType : String}

/-- The cycle ends with the wait as it was, or with what the event that was taken up for it has made
of it. -/
theorem ends (h : Turned p x s wait own acc acc' before after final) (hp : wait.paused = true) :
    (final.events.find? wait.key = some wait ∧ (wait.ready = false → acc'.errors = acc.errors →
        before.events.candidate? wait = none))
      ∨ ∃ e q ready, final.events.find? wait.key = some { q with ready := ready }
        ∧ Left x acc wait e before acc' q ready := by
  rw [h.settled]
  rcases h.visited.left h.kept hp with ⟨hsame, -, hnone⟩ | ⟨e, q, ready, hq, hleft⟩
  · exact .inl ⟨hsame ▸ h.kept, hnone⟩
  · exact .inr ⟨e, q, ready, hq, hleft⟩

/-- A wait that was made ready had an event taken up for it. -/
theorem candidate_of_resumed (h : Turned p x s wait own acc acc' before after final)
    (hp : wait.paused = true) (hready : wait.ready = false)
    (hflag : final.events.isReady wait.key = true) :
    ∃ e, before.events.candidate? wait = some e := by
  rcases h.ends hp with ⟨hfinal, -⟩ | ⟨e, q, ready, -, hleft⟩
  · rw [RecordStore.isReady, hfinal] at hflag
    exact absurd (hready.symm.trans hflag) (by decide)
  · exact ⟨e, hleft.candidate⟩

/-- If the calls made for it are answered, a wait that finds something is made ready: what is taken
up is of its type, and nobody else makes it ready in between. -/
theorem resumes (h : Turned p x s wait own acc acc' before after final) (hp : wait.paused = true)
    (hready : wait.ready = false) (hkey : Text.blank wait.key = false)
    (hown : Placed.SavesAside own) {e : Record} (he : before.events.candidate? wait = some e) :
    final.events.isReady wait.key = true := by
  rcases h.ends hp with ⟨-, hnone⟩ | ⟨_, q, ready, hfinal, hleft⟩
  · cases he.symm.trans (hnone hready (h.errors hown))
  · rw [RecordStore.isReady, hfinal, hleft.resumed hkey (h.errors hown)]
    rfl

theorem resumed_iff (h : Turned p x s wait own acc acc' before after final)
    (hp : wait.paused = true) (hready : wait.ready = false) (hkey : Text.blank wait.key = false)
    (hown : Placed.SavesAside own) (ht : wait.eventType = some eventType) :
    final.events.isReady wait.key = true
      ↔ ∃ e, s.events.Observes wait.order eventType e := by
  constructor
  · intro hflag
    obtain ⟨e, he⟩ := h.candidate_of_resumed hp hready hflag
    obtain ⟨r, hr, -⟩ := RecordStore.newest_of_candidate? ht he
    obtain ⟨r', hr', -⟩ := h.renewed.shown _ _ r hr.observes
    exact ⟨r', hr'⟩
  · rintro ⟨e, he⟩
    obtain ⟨e', he', -⟩ := h.renewed.observes he
    obtain ⟨c, hc⟩ := RecordStore.candidate?_of_observes ht he'
    exact h.resumes hp hready hkey hown hc

/-- Another observation of the order is enough for a wait without a type. -/
theorem resumed_of_other (h : Turned p x s wait own acc acc' before after final)
    (hp : wait.paused = true) (hready : wait.ready = false) (hkey : Text.blank wait.key = false)
    (hown : Placed.SavesAside own) (ht : wait.eventType = none) {key : String} {r : Record}
    (hr : s.events.find? key = some r) (hne : r.key ≠ wait.key) (ho : r.order = wait.order)
    (hobs : r.isObserved = true) : final.events.isReady wait.key = true := by
  obtain ⟨q, hq, hrq⟩ := h.renewed.kept key r hr
  obtain ⟨c, hc⟩ := RecordStore.candidate?_of_other ht hq (hrq.order_eq.trans ho)
    (hrq.observed hobs) (hrq.key_eq ▸ hne)
  exact h.resumes hp hready hkey hown hc

/-- A wait that was made ready, with all calls answered, has taken the event in that was taken up
for it. -/
theorem takes (h : Turned p x s wait own acc acc' before after final)
    (hp : wait.paused = true) (hready : wait.ready = false) (hkey : Text.blank wait.key = false)
    (hown : ∀ c ∈ own, c.answered = true) (hflag : final.events.isReady wait.key = true) :
    ∃ e q, before.events.candidate? wait = some e ∧ final.events.find? wait.key = some q
      ∧ q.observedAt = e.observedAt ∧ q.payload = e.payload := by
  rw [RecordStore.isReady, h.settled] at hflag
  rw [h.settled]
  rcases (h.answered hown).left h.kept hp with ⟨hsame, -, -⟩ | ⟨e, q, ready, hq, hleft⟩
  · rw [hsame, h.kept] at hflag
    exact absurd (hready.symm.trans hflag) (by decide)
  · have ha := RecordStore.awaits_of_candidate? hleft.candidate
    have hobs : e.isObserved = true := by
      obtain ⟨r, -, -, hobs, rfl, -⟩ := RecordStore.candidate?_some hleft.candidate
      exact hobs
    rcases hleft.taken with ⟨-, rfl⟩ | ⟨-, hblank | hx⟩
    · exact ⟨e, _, hleft.candidate, hq, Record.merge_observedAt ha hobs, Record.merge_payload ha⟩
    · exact absurd (hkey.symm.trans hblank) (by decide)
    · cases hx

/-- A wait for a type then shows what was newest at the start. Visits before it may have copied
observations, but made none up and none newer. -/
theorem shows_newest (h : Turned p x s wait own acc acc' before after final)
    (hp : wait.paused = true) (hready : wait.ready = false) (hkey : Text.blank wait.key = false)
    (hown : ∀ c ∈ own, c.answered = true) (ht : wait.eventType = some eventType)
    (hflag : final.events.isReady wait.key = true) :
    ∃ q e, final.events.find? wait.key = some q ∧ s.events.Newest wait.order eventType e
      ∧ q.observedAt = e.observedAt ∧ q.payload = e.payload := by
  obtain ⟨e, q, he, hq, hqtime, hqpayload⟩ := h.takes hp hready hkey hown hflag
  obtain ⟨r, hr, rfl⟩ := RecordStore.newest_of_candidate? ht he
  obtain ⟨r', hr', htime, hpayload⟩ := h.renewed.newest hr
  exact ⟨q, r', hq, hr', hqtime.trans htime.symm, hqpayload.trans hpayload.symm⟩

/-- A wait that is ready, or that finds nothing of its type, stays as it was. -/
theorem unchanged (h : Turned p x s wait own acc acc' before after final)
    (hp : wait.paused = true) (hnone : wait.ready = true ∨ ∃ eventType,
      wait.eventType = some eventType ∧ ∀ e, ¬ s.events.Observes wait.order eventType e) :
    final.events.find? wait.key = some wait := by
  rcases h.ends hp with ⟨hfinal, -⟩ | ⟨e, q, ready, -, hleft⟩
  · exact hfinal
  · rcases hnone with hready | ⟨eventType, ht, hnone⟩
    · exact absurd (hleft.unready.symm.trans hready) (by decide)
    · obtain ⟨r, hr, -⟩ := RecordStore.newest_of_candidate? ht hleft.candidate
      obtain ⟨r', hr', -⟩ := h.renewed.shown _ _ r hr.observes
      exact absurd hr' (hnone r')

end Turned

/-! ## The counts of a cycle -/

section

variable {x : Exposure} {p : Poller}

/-- A visit counts the wait, and that it was ready or became so. -/
theorem Visited.counts {acc acc' : Tally} {wait : Record} {s t : State}
    (h : p.Visited x acc wait s acc' t) (hw : s.events.find? wait.key = some wait)
    (hp : wait.paused = true) : acc'.paused = acc.paused + 1
      ∧ acc'.skipped = acc.skipped + wait.ready.toNat
      ∧ acc'.resumed = acc.resumed + (!wait.ready && t.events.isReady wait.key).toNat := by
  have hcounts : acc'.paused = acc.paused + 1 ∧ acc'.skipped = acc.skipped + wait.ready.toNat := by
    cases h with
    | ready hr => rw [hr]; exact ⟨rfl, rfl⟩
    | lookupFailed hr | nothing hr => rw [hr]; exact ⟨rfl, rfl⟩
    | @delegated _ o _ hr => rw [hr]; cases o <;> exact ⟨rfl, rfl⟩
  refine ⟨hcounts.1, hcounts.2, ?_⟩
  rcases h.left hw hp with ⟨hsame, hresumed, -⟩ | ⟨e, q, ready, hq, hleft⟩
  · rw [hsame, RecordStore.isReady, hw, hresumed]
    cases hready : wait.ready <;> simp [hready]
  · rw [RecordStore.isReady, hq, hleft.unready, hleft.counted]
    rfl

theorem counts_visitAll (x : Exposure) (p : Poller) : ∀ (waits : List Record)
    (faults : Nat → Option Fault) (acc : Tally) (s : State), Pending waits s.events →
      let r := runFaulty x faults (p.visitAll acc waits) s
      r.1.paused = acc.paused + waits.length
        ∧ r.1.skipped = acc.skipped + waits.countP (·.ready)
        ∧ r.1.resumed = acc.resumed
          + waits.countP fun w => !w.ready && r.2.events.isReady w.key
  | [], _, _, _, _ => ⟨rfl, rfl, rfl⟩
  | wait :: rest, faults, acc, s, h => by
      have hvisit := (leads_visit x p acc wait s).runFaulty faults
      obtain ⟨hpaused, hskipped, hresumed⟩ := hvisit.counts (h.kept wait List.mem_cons_self)
        (h.paused wait List.mem_cons_self)
      obtain ⟨hpaused', hskipped', hresumed'⟩ := counts_visitAll x p rest
        (remaining x faults (p.visit acc wait) s) (runFaulty x faults (p.visit acc wait) s).1 _
        (h.visit hvisit)
      have hother : ∀ w ∈ rest, w.key ≠ wait.key := fun w hw heq =>
        (List.nodup_cons.mp h.nodup).1 (List.mem_map.mpr ⟨w, hw, heq⟩)
      have hlast : ((runFaulty x faults (p.visitAll acc (wait :: rest)) s).2.events.isReady
          wait.key) = (runFaulty x faults (p.visit acc wait) s).2.events.isReady wait.key := by
        rw [RecordStore.isReady, runFaulty_visitAll_cons, find?_visitAll hother,
          ← RecordStore.isReady]
      dsimp only
      rw [List.length_cons, List.countP_cons, List.countP_cons, hlast]
      rw [runFaulty_visitAll_cons]
      refine ⟨by omega, ?_, ?_⟩
      · rw [hskipped', hskipped]
        cases wait.ready <;> simp
        omega
      · rw [hresumed', hresumed]
        cases (!wait.ready && (runFaulty x faults (p.visit acc wait) s).2.events.isReady wait.key)
          <;> simp
        omega

end

end Poller

/-! ## The cycle as a whole -/

/-- **A poll cycle is exact, wait by wait.** Take any store that writes have made, any mailboxes,
and any pattern of failing calls in which the waits can be listed. A wait that is not ready, has a
key and whose own calls are answered, be it without its save, is ready after the cycle exactly if an
observation of its order and type was there when the cycle began; one without a type is ready if an
observation of its order was there under another key. With its save answered too, a wait for a type
then shows the newest observation there was. A record that is no wait or was ready, or that is a
wait for a type of which nothing was observed, is as it was. The cycle counts the waits, those that
were ready and those that have become so. -/
theorem sweep_exact (x : Exposure) (p : Poller) {s : State} {ws : List RecordStore.Write}
    (hs : s.events = .ofWrites ws) {faults : Nat → Option Fault} (hlist : faults 0 = none) :
    let acc := (runFaulty x faults p.sweep s).1
    let t := (runFaulty x faults p.sweep s).2
    (∀ key wait, s.events.find? key = some wait → wait.paused = true → wait.ready = false →
      Text.blank key = false → Placed.SavesAside (p.ownCalls x faults s key) →
        (∀ eventType, wait.eventType = some eventType →
          (t.events.isReady key = true ↔ ∃ e, s.events.Observes wait.order eventType e)
          ∧ ((∀ c ∈ p.ownCalls x faults s key, c.answered = true) →
            t.events.isReady key = true → ∃ q e, t.events.find? key = some q
              ∧ s.events.Newest wait.order eventType e
              ∧ q.observedAt = e.observedAt ∧ q.payload = e.payload))
        ∧ (wait.eventType = none → ∀ k r, k ≠ key → s.events.find? k = some r →
          r.order = wait.order → r.isObserved = true → t.events.isReady key = true))
    ∧ (∀ key r, s.events.find? key = some r →
      (r.paused = false ∨ r.ready = true ∨ ∃ eventType, r.eventType = some eventType
        ∧ ∀ e, ¬ s.events.Observes r.order eventType e) → t.events.find? key = some r)
    ∧ acc.paused = s.events.paused.length ∧ acc.skipped = s.events.paused.countP (·.ready)
    ∧ acc.resumed = s.events.paused.countP fun w => !w.ready && t.events.isReady w.key := by
  have hkeyed : s.events.Keyed := hs ▸ RecordStore.keyed_ofWrites ws
  have hpending := Poller.pending_paused hkeyed
  rw [Poller.runFaulty_sweep x p hlist]
  dsimp only
  have turn : ∀ key wait, s.events.find? key = some wait → wait.paused = true →
      wait.key = key ∧ ∃ acc₁ acc₂ s₁ s₂, Poller.Turned p x s wait (p.ownCalls x faults s key)
        acc₁ acc₂ s₁ s₂
        (runFaulty x (fun n => faults (n + 1)) (p.visitAll .zero s.events.paused) s).2 := by
    intro key wait hw hp
    have hkey : wait.key = key := hkeyed key wait hw
    subst hkey
    have hm : wait ∈ s.events.paused := RecordStore.mem_paused.mpr ⟨⟨_, hw⟩, hp⟩
    exact ⟨rfl, Poller.exists_turn x p _ _ _ s hpending hm⟩
  refine ⟨fun key wait hw hp hready hblank hown => ?_, fun key r hr hcase => ?_, ?_⟩
  · obtain ⟨rfl, acc₁, acc₂, s₁, s₂, hturn⟩ := turn key wait hw hp
    refine ⟨fun eventType ht => ⟨hturn.resumed_iff hp hready hblank hown ht, fun hall hflag =>
      hturn.shows_newest hp hready hblank hall ht hflag⟩, fun ht k r hne hr ho hobs => ?_⟩
    exact hturn.resumed_of_other hp hready hblank hown ht hr (hkeyed k r hr ▸ hne) ho hobs
  · cases hp : r.paused with
    | true =>
        obtain ⟨rfl, acc₁, acc₂, s₁, s₂, hturn⟩ := turn key r hr hp
        refine hturn.unchanged hp (hcase.resolve_left ?_)
        simp [hp]
    | false =>
        have hunvisited : ∀ w ∈ s.events.paused, w.key ≠ key := by
          intro w hw heq
          obtain ⟨-, hwp⟩ := RecordStore.mem_paused.mp hw
          have hw' := hpending.kept w hw
          rw [heq, hr] at hw'
          obtain rfl := Option.some.inj hw'
          exact absurd (hp.symm.trans hwp) (by decide)
        exact (Poller.find?_visitAll hunvisited _ _ _).trans hr
  · obtain ⟨hpaused, hskipped, hresumed⟩ :=
      Poller.counts_visitAll x p s.events.paused (fun n => faults (n + 1)) .zero s hpending
    exact ⟨hpaused.trans (Nat.zero_add _), hskipped.trans (Nat.zero_add _),
      hresumed.trans (Nat.zero_add _)⟩

/-- Two orders that are waited for and have been shipped, each under the key of its wait. -/
def twoShipments : State :=
  { State.initial fun _ => ⟨0, 1, fun _ => 0⟩ with
    events := .ofWrites [.pause (.placeholder "a" "ORD1" (some "SHIPPED") default) default,
      .pause (.placeholder "b" "ORD2" (some "SHIPPED") default) default,
      .save (.observed "ORD1" "SHIPPED" .null default),
      .save (.observed "ORD2" "SHIPPED" .null default)] }

/-- Faults of a cycle in which the look-up for the first wait fails, and so does the save for the
second. -/
def spotty : Nat → Option Fault := fun n => if n = 1 ∨ n = 4 then some ⟨"unreachable"⟩ else none

theorem second_shipment_found : spotty 0 = none
    ∧ Placed.SavesAside ((Poller.mk "x" ⟨none⟩ 0).ownCalls .all spotty twoShipments "b")
    ∧ (runFaulty .all spotty (Poller.mk "x" ⟨none⟩ 0).sweep twoShipments).2.events.isReady "b"
      = true := by
  obtain ⟨wait, hw, hp, hready, ht, e, he⟩ : ∃ wait, twoShipments.events.find? "b" = some wait
      ∧ wait.paused = true ∧ wait.ready = false ∧ wait.eventType = some "SHIPPED"
      ∧ ∃ e, twoShipments.events.Observes wait.order "SHIPPED" e :=
    ⟨_, rfl, rfl, rfl, rfl, _, ⟨"ORD2::SHIPPED", rfl⟩, rfl, rfl, rfl⟩
  have hown : Placed.SavesAside
      ((Poller.mk "x" ⟨none⟩ 0).ownCalls .all spotty twoShipments "b") := by
    have hcalls : (Poller.mk "x" ⟨none⟩ 0).ownCalls .all spotty twoShipments "b"
        = [⟨.events (.latest "ORD2" "SHIPPED"), true⟩,
          ⟨.events (.save { Record.observed "ORD2" "SHIPPED" .null default with key := "b" }),
            false⟩,
          ⟨.events (.find "b"), true⟩, ⟨.events (.markReady "b"), true⟩] := rfl
    rw [hcalls]
    simp [Placed.SavesAside]
  have hlist : spotty 0 = none := rfl
  obtain ⟨hexact, -⟩ := sweep_exact .all (Poller.mk "x" ⟨none⟩ 0) (s := twoShipments) rfl hlist
  obtain ⟨htyped, -⟩ := hexact "b" wait hw hp hready (by decide) hown
  exact ⟨hlist, hown, (htyped _ ht).1.mpr ⟨e, he⟩⟩

end Rendezvous
