import Rendezvous.Proofs.Flags
import Rendezvous.Proofs.Routine
import Rendezvous.Proofs.Sweeping
import Rendezvous.Proofs.Verifying

/-!
# A wait is made ready once

Any number of threads work on one record store: they save events, pause waits, verify steps, hand
events to engines and poll, each engine with or without a mailbox, and every call may fail. Only
engines make records ready. However the threads mingle, of all the calls of `accept` on a key at
most one makes the wait ready, returns so and completes a mailbox (`accept_flips_once`).

The store counts flips by itself: a record is ready once a flip was answered, and a flip is answered
when the record was not ready. What is left is that each call lives on its own flip: without one it
neither completes a mailbox nor returns that the wait is ready (`Proc.Affords`). That only waits
become ready rests on what is never taken back: a call that has seen a wait under its key flips
the record of a wait.
-/

namespace Rendezvous

open Proc

/-! ## Flips -/

/-- The flips that are answered are the ones that happen. -/
theorem State.flipped_reply (x : Exposure) (fault : Option Fault) (r : Request) (s : State)
    (key : String) : (Mark.of r (State.reply x fault r s).1).count (.flipped key)
      + (s.events.isReady key).toNat = ((State.reply x fault r s).2.events.isReady key).toNat := by
  by_cases hr : r.LeavesFlags
  · have hm : (Mark.of r (State.reply x fault r s).1).count (.flipped key) = 0 := by
      cases r with
      | events c => cases c <;> first | rfl | exact hr.elim
      | complete => simp [Mark.of]
      | _ => rfl
    rw [hm, State.isReady_reply hr, Nat.zero_add]
  · cases r with
    | events c =>
        cases c with
        | markReady k =>
            rcases State.reply_events x fault (.markReady k) s with he | ⟨-, f, he⟩
            · rw [he]
              change _ = ((s.events.markReady k).2.isReady key).toNat
              rw [s.events.isReady_markReady k key, Nat.add_comm]
              refine congrArg _ ?_
              change (Mark.of (.events (.markReady k))
                (Except.ok (s.events.markReady k).1)).count _ = _
              cases (s.events.markReady k).1 with
              | true => simp [Mark.of, List.count_singleton]
              | false => rfl
            · rw [he]
              exact Nat.zero_add _
        | _ => exact absurd trivial hr
    | _ => exact absurd trivial hr

/-! ## What a call lives on -/

/-- Every completion, and every return that a wait is ready, has a flip of its own among the
marks. -/
def Mark.Covered (ms : List Mark) : Prop := ∀ key,
  ms.count (.completed key) ≤ ms.count (.flipped key)
    ∧ ms.count (.returned key .resumeReady) ≤ ms.count (.flipped key)

namespace Mark.Covered

variable {ms : List Mark} {key : String}

theorem nil : Covered [] := fun _ => ⟨Nat.le_refl _, Nat.le_refl _⟩

theorem returned (h : Covered ms) {o : Outcome} (ho : o ≠ .resumeReady) :
    Covered (.returned key o :: ms) := by
  intro k
  simpa [List.count_cons, ho] using h k

theorem flipped (h : Covered ms) : Covered (.flipped key :: ms) := by
  intro k
  obtain ⟨hc, hr⟩ := h k
  simp only [List.count_cons, beq_iff_eq, reduceCtorEq, if_false]
  omega

theorem completed (h : Covered ms) : Covered (.completed key :: .flipped key :: ms) := by
  intro k
  obtain ⟨hc, hr⟩ := h k
  simp only [List.count_cons, beq_iff_eq, reduceCtorEq, if_false, completed.injEq, flipped.injEq]
  omega

theorem flipped_returned (h : Covered ms) {o : Outcome} :
    Covered (.returned key o :: .flipped key :: ms) := by
  intro k
  obtain ⟨hc, hr⟩ := h k
  by_cases hk : key = k
  · subst hk
    by_cases ho : o = .resumeReady
    · subst ho
      simp
      omega
    · simp [ho]
      omega
  · simp only [List.count_cons, beq_iff_eq, reduceCtorEq, if_false, returned.injEq, flipped.injEq,
      hk, false_and]
    exact h k

theorem completed_returned (h : Covered ms) {o : Outcome} :
    Covered (.returned key o :: .completed key :: .flipped key :: ms) := by
  intro k
  obtain ⟨hc, -⟩ : _ ∧ _ := (h.completed : Covered (.completed key :: .flipped key :: ms)) k
  obtain ⟨-, hr⟩ : _ ∧ _ :=
    (h.flipped_returned : Covered (.returned key o :: .flipped key :: ms)) k
  simpa [List.count_cons] using And.intro hc hr

end Mark.Covered

namespace Proc

/-- A call on `key`, begun with the marks `ms`, keeps to `ok` at every request and when it
returns, whatever the answers. -/
def Keeping (ok : List Mark → Prop) (key : String) : List Mark → Proc Outcome → Prop
  | ms, .done o => ok (.returned key o :: ms)
  | ms, .ask r next => ∀ x, ok (Mark.of r x ++ ms) ∧ Keeping ok key (Mark.of r x ++ ms) (next x)

variable {ok : List Mark → Prop} {key : String} {ms : List Mark}

theorem keeping_note {entry : LogEntry} {f : Unit → Proc Outcome} (h : ok ms)
    (hf : Keeping ok key ms (f ())) : Keeping ok key ms (note entry >>= f) := fun _ => ⟨h, hf⟩

theorem keeping_complete {mailbox : MailboxId} {result : Record} {o : Outcome}
    (h : ok (.completed key :: ms)) (ho : ok (.returned key o :: .completed key :: ms)) :
    Keeping ok key ms (complete mailbox key result >>= fun _ => .done o) := by
  obtain ⟨entries, he⟩ := complete_eq mailbox key result
  rw [he]
  intro c
  refine ⟨h, ?_⟩
  change Keeping ok key (.completed key :: ms) (noting (entries c) c.delivered >>= fun _ => .done o)
  induction entries c with
  | nil => exact ho
  | cons entry _ ih => exact keeping_note h ih

end Proc

namespace Engine

variable {ms : List Mark}

theorem keeping_conclude (h : Mark.Covered ms) (g : Engine) (e : Record) (x : Except Fault Bool) :
    Mark.Covered (Mark.of (.events (.markReady e.key)) x ++ ms)
      ∧ Keeping Mark.Covered e.key (Mark.of (.events (.markReady e.key)) x ++ ms)
        (g.conclude e x) := by
  match x with
  | .ok true =>
      refine ⟨h.flipped, keeping_note h.flipped ?_⟩
      cases g.mailbox with
      | none => exact h.flipped_returned
      | some mailbox => exact keeping_complete h.completed h.completed_returned
  | .ok false => exact ⟨h, keeping_note h (h.returned (by decide))⟩
  | .error f => exact ⟨h, keeping_note h (h.returned (by decide))⟩

theorem keeping_resume (h : Mark.Covered ms) (g : Engine) (e current : Record) :
    Keeping Mark.Covered e.key ms (g.resume e current) := by
  rcases g.resume_cases e current with ⟨entry, o, ho, heq, -⟩ | ⟨-, -, -, heq⟩
  · rw [heq]
    exact keeping_note h (h.returned ho)
  · rw [heq]
    exact keeping_conclude h g e

theorem keeping_settle (h : Mark.Covered ms) (g : Engine) (e : Record) :
    Keeping Mark.Covered e.key ms (g.settle e) := by
  intro x
  refine ⟨h, ?_⟩
  match x with
  | .ok (some current) => exact keeping_resume h g e current
  | .ok none => exact keeping_note h (h.returned (by decide))
  | .error f => exact keeping_note h (h.returned (by decide))

/-- Every call of `accept` lives on its own flip: it completes a key or returns that a wait is ready
only after it was answered that it made it so. -/
theorem keeping_accept (h : Mark.Covered ms) (g : Engine) (e : Record) :
    Keeping Mark.Covered e.key ms (g.accept e) := by
  cases hkey : Text.blank e.key with
  | true =>
      rw [accept_of_blank g hkey]
      exact keeping_note h (h.returned (by decide))
  | false =>
      rw [accept_eq g hkey]
      intro x
      refine ⟨h, ?_⟩
      cases x with
      | ok => exact keeping_settle h g e
      | error f => exact keeping_note h (keeping_settle h g e)

end Engine

/-! ## What a call has seen -/

/-- What threads do to the flags and may rely on others to do: they take nothing back, and as long
as only waits are ready they keep it so. -/
def Interference.flags : Interference (Option Fault) State where
  reply := State.reply .all
  rely s t := s.events.Grows t.events ∧ (s.events.ReadyPaused → t.events.ReadyPaused)
  guar s t := s.events.Grows t.events ∧ (s.events.ReadyPaused → t.events.ReadyPaused)
  refl _ := ⟨.rfl, id⟩
  trans h h' := ⟨h.1.trans h'.1, h'.2 ∘ h.2⟩

theorem Interference.flags_calm {r : Request} (h : r.LeavesFlags) (c : Option Fault) (s : State) :
    flags.guar s (flags.reply c r s).2 ∧ flags.rely s (flags.reply c r s).2 :=
  have hs := And.intro (State.grows_reply .all c r s) (State.readyPaused_reply · h .all c)
  ⟨hs, hs⟩

namespace Engine

open Interference (flags flags_calm)

theorem asks_note (entry : LogEntry) (o : Outcome) :
    (note entry >>= fun _ => .done o).Asks Request.LeavesFlags := ⟨trivial, fun _ => trivial⟩

theorem under_calm {p : Proc Outcome} (h : p.Asks Request.LeavesFlags) (s : State) :
    Under flags (fun _ _ => True) p s :=
  under_of_asks (fun _ hr => flags_calm hr) h fun _ _ _ => trivial

/-- What was found under the key is a wait when the flag is set, however old the finding is, since a
wait stays one. -/
theorem under_resume {g : Engine} {e current : Record} {s : State}
    (h : s.events.find? e.key = some current) :
    Under flags (fun _ _ => True) (g.resume e current) s := by
  rcases g.resume_cases e current with ⟨entry, o, -, heq, -⟩ | ⟨hp, -, -, heq⟩
  · rw [heq]
    exact under_calm (asks_note _ _) s
  · rw [heq]
    refine under_request fun t ht c => ⟨⟨State.grows_reply .all c _ t, fun hs => ?_⟩,
      under_calm (g.asks_conclude e _).leavesFlags _⟩
    have hw : t.Written _ (flags.reply c (.events (.markReady e.key)) t).2.events :=
      State.written_reply .all c _ t
    generalize (flags.reply c (.events (.markReady e.key)) t).2.events = u at hw ⊢
    cases hw with
    | spared => exact hs
    | ready =>
        refine hs.markReady fun r hr => ?_
        obtain ⟨q, hq, hgrows⟩ := ht.1 _ _ h
        obtain rfl := Option.some.inj (hq.symm.trans hr)
        exact hgrows.paused hp

theorem under_settle (g : Engine) (e : Record) (s : State) :
    Under flags (fun _ _ => True) (g.settle e) s := by
  refine under_request fun t ht c => ⟨(flags_calm (r := .events (.find e.key)) trivial c t).1, ?_⟩
  change Under flags _ (match (State.reply .all c (.events (.find e.key)) t).1 with
    | .ok (some current) => _ | .ok none => _ | .error f => _) _
  rcases State.reply_events .all c (.find e.key) t with he | ⟨-, f, he⟩
  · rw [he]
    cases hr : t.events.find? e.key with
    | none =>
        simp only [State.answerEvents, hr]
        exact under_calm (asks_note _ _) _
    | some current =>
        simp only [State.answerEvents, hr]
        refine under_resume ?_
        change (State.reply .all c (.events (.find e.key)) t).2.events.find? e.key = some current
        rw [he]
        exact hr
  · rw [he]
    exact under_calm (asks_note _ _) _

theorem under_accept (g : Engine) (e : Record) (s : State) :
    Under flags (fun _ _ => True) (g.accept e) s := by
  cases hkey : Text.blank e.key with
  | true =>
      rw [accept_of_blank g hkey]
      exact under_calm (asks_note _ _) s
  | false =>
      rw [accept_eq g hkey]
      have hasks : (persist e).Asks Request.LeavesFlags := by
        refine ⟨trivial, fun x => ?_⟩
        cases x with
        | ok => trivial
        | error f => exact ⟨trivial, fun _ => trivial⟩
      exact under_bind (under_of_asks (fun _ hr => flags_calm hr) hasks
        fun _ t _ => under_settle g e t)

end Engine

/-! ## Threads -/

/-- What a thread may be set to do: one of the operations of the components, any number of which may
run at a time. -/
inductive Job
  | save (e : Record)
  | pause (context : Record)
  | verify (q : Question)
  | accept (g : Engine) (e : Record)
  | poll (p : Poller)

def Job.routine : Job → Routine Unit
  | .save e => .ask (.events (.save e)) fun _ => .done ()
  | .pause context => .ask (.events (.markPaused context)) fun _ => .done ()
  | .verify q => Routine.ofProc (Verifier.verify q) >>= fun _ => .done ()
  | .accept g e => .accept g e fun _ => .done ()
  | .poll p => p.rounds >>= fun _ => .done ()

def Job.proc : Job → Proc Unit
  | .save e => do let _ ← Proc.events (.save e)
  | .pause context => do let _ ← Proc.events (.markPaused context)
  | .verify q => do let _ ← Verifier.verify q
  | .accept g e => do let _ ← g.accept e
  | .poll p => do let _ ← p.sweep

theorem Job.inline_routine : ∀ t : Job, t.routine.inline = t.proc
  | .save _ | .pause _ | .accept _ _ => rfl
  | .verify q => by
      rw [routine, Routine.inline_bind, Routine.inline_ofProc]
      rfl
  | .poll p => by
      rw [routine, Routine.inline_bind, Poller.inline_rounds]
      rfl

theorem Verifier.asks_verify (q : Question) : (verify q).Asks Request.LeavesFlags :=
  asks_verify_of (fun _ h => h.sparesRecords.leavesFlags) fun _ => trivial

namespace Poller

theorem asks_call (p : Poller) (acc : Tally) (wait : Record) :
    (p.call acc wait).Asks Request.LeavesFlags := by
  unfold call
  dsimp only
  split
  · refine Routine.asks_ofProc (asks_bind (fun _ => asks_pure _) ?_)
    exact (p.engine.asks_wake wait).leavesFlags
  · refine Routine.asks_bind (fun found => ?_)
      (Routine.asks_ofProc (asks_candidate wait).sparesRecords.leavesFlags)
    match found with
    | .ok (some e) =>
        intro o
        cases o with
        | resumeReady | lookupFailed | markFailed => trivial
        | _ => exact ⟨trivial, fun _ => trivial⟩
    | .ok none => trivial
    | .error f => exact ⟨trivial, fun _ => trivial⟩

theorem asks_callAll (p : Poller) : ∀ (waits : List Record) (acc : Tally),
    (p.callAll acc waits).Asks Request.LeavesFlags
  | [], _ => trivial
  | wait :: rest, acc => Routine.asks_bind (fun acc => asks_callAll p rest acc)
      (asks_call p acc wait)

theorem asks_rounds (p : Poller) : p.rounds.Asks Request.LeavesFlags := by
  refine ⟨trivial, fun waits => ?_⟩
  cases waits with
  | ok waits => exact asks_callAll p waits _
  | error f => exact ⟨trivial, fun _ => trivial⟩

end Poller

/-- Only the calls of a thread make records ready. -/
theorem Job.asks_routine : ∀ t : Job, t.routine.Asks Request.LeavesFlags
  | .save _ | .pause _ => ⟨trivial, fun _ => trivial⟩
  | .accept _ _ => fun _ => trivial
  | .verify q => Routine.asks_bind (fun _ => Routine.asks_done _)
      (Routine.asks_ofProc (Verifier.asks_verify q))
  | .poll p => Routine.asks_bind (fun _ => Routine.asks_done _) (Poller.asks_rounds p)

/-! ## The assertion on a thread -/

namespace Thread

open Interference (flags flags_calm)

variable {α : Type}

/-- The thread's marks are covered, its calls keep them so, and outside of them it makes no record
ready. -/
def Sound (t : Thread α) (s : State) : Prop := Mark.Covered t.marks ∧ match t.position with
  | .outside rest => rest.Asks Request.LeavesFlags
  | .inside e rest next => Keeping Mark.Covered e.key t.marks rest
    ∧ Under flags (fun _ _ => True) rest s ∧ ∀ o, (next o).Asks Request.LeavesFlags

theorem Sound.rely {t : Thread α} {s s' : State} (hs : flags.rely s s') (h : t.Sound s) :
    t.Sound s' := by
  match t, h with
  | ⟨_, .outside _⟩, h => exact h
  | ⟨_, .inside _ _ _⟩, ⟨hm, hk, hu, hn⟩ => exact ⟨hm, hk, hu.rely hs, hn⟩

theorem Sound.advance (fault : Option Fault) {t : Thread α} {s : State} (h : t.Sound s) :
    flags.rely s (advance .all fault t s).2
      ∧ (advance .all fault t s).1.Sound (advance .all fault t s).2 := by
  match t, h with
  | ⟨_, .outside (.done _)⟩, h => exact ⟨flags.refl s, h⟩
  | ⟨_, .outside (.ask _ _)⟩, ⟨hm, hr, hn⟩ => exact ⟨(flags_calm hr fault s).2, hm, hn _⟩
  | ⟨_, .outside (.accept g e _)⟩, ⟨hm, hn⟩ =>
      exact ⟨flags.refl s, hm, Engine.keeping_accept hm g e, Engine.under_accept g e s, hn⟩
  | ⟨_, .inside _ (.done _) _⟩, ⟨_, hk, _, hn⟩ => exact ⟨flags.refl s, hk, hn _⟩
  | ⟨_, .inside _ (.ask _ _) _⟩, ⟨_, hk, hu, hn⟩ =>
      obtain ⟨hg, hu⟩ := hu.ask fault
      obtain ⟨hm, hk⟩ := hk _
      exact ⟨hg, hm, hk, hu, hn⟩

theorem count_flipped_advance (fault : Option Fault) {t : Thread α} {s : State} (h : t.Sound s)
    (key : String) : (advance .all fault t s).1.marks.count (.flipped key)
        + (s.events.isReady key).toNat
      = t.marks.count (.flipped key)
        + ((advance .all fault t s).2.events.isReady key).toNat := by
  match t, h with
  | ⟨_, .outside (.done _)⟩, _ => rfl
  | ⟨_, .outside (.ask _ _)⟩, ⟨_, hr, _⟩ =>
      simp only [Thread.advance, State.isReady_reply hr]
  | ⟨_, .outside (.accept _ _ _)⟩, _ => rfl
  | ⟨_, .inside _ (.done _) _⟩, _ => simp [Thread.advance]
  | ⟨_, .inside _ (.ask r _) _⟩, _ =>
      have hflip := State.flipped_reply .all fault r s key
      simp only [Thread.advance, List.count_append]
      omega

end Thread

/-! ## Pools of jobs -/

namespace Pool

open Interference (flags)

variable {α : Type}

def ofJobs (s : State) (jobs : List Job) : Pool (Thread Unit) :=
  ⟨s, jobs.map fun t => .start t.routine⟩

/-- Every state that the jobs reach, whatever the order of their requests, their threads reach. So
nothing is lost by looking at calls as calls. -/
theorem exists_run_ofJobs (x : Exposure) (s : State) (jobs : List Job) (schedule : List Choice) :
    ∃ cs, ((ofJobs s jobs).run (Thread.advance x) cs).remaining
      = (Pool.mk s (jobs.map Job.proc)).run (Proc.advance x) schedule := by
  have hstart : (ofJobs s jobs).remaining = ⟨s, jobs.map Job.proc⟩ := by
    refine congrArg (Pool.mk s) ?_
    rw [ofJobs, List.map_map]
    exact List.map_congr_left fun job _ => job.inline_routine
  exact exists_run_iff.mpr ⟨schedule, by rw [hstart]⟩

/-- The marks of one kind, when one thread goes on. -/
theorem count_flatMap_set (f : Thread α → List Mark) (m : Mark) {t : Thread α} (u : Thread α) :
    ∀ {l : List (Thread α)} {i : Nat}, l[i]? = some t →
      ((l.set i u).flatMap f).count m + (f t).count m = (l.flatMap f).count m + (f u).count m
  | [], _, h => by cases h
  | _ :: l, 0, h => by
      obtain rfl := Option.some.inj h
      simp only [List.set_cons_zero, List.flatMap_cons, List.count_append]
      omega
  | _ :: l, i + 1, h => by
      have := count_flatMap_set f m u (List.getElem?_cons_succ ▸ h)
      simp only [List.set_cons_succ, List.flatMap_cons, List.count_append]
      omega

theorem count_flatMap_le {f : Thread α → List Mark} {m n : Mark} :
    ∀ {l : List (Thread α)}, (∀ t ∈ l, (f t).count m ≤ (f t).count n) →
      (l.flatMap f).count m ≤ (l.flatMap f).count n
  | [], _ => Nat.le_refl _
  | t :: l, h => by
      simp only [List.flatMap_cons, List.count_append]
      exact Nat.add_le_add (h t List.mem_cons_self)
        (count_flatMap_le fun u hu => h u (List.mem_cons_of_mem _ hu))

theorem total_flipped_go {w : Pool (Thread α)} (h : w.Meets fun _ => Thread.Sound) (c : Choice)
    (key : String) (hw : w.total (.flipped key) = (w.state.events.isReady key).toNat) :
    (w.go (Thread.advance .all) c).total (.flipped key)
      = ((w.go (Thread.advance .all) c).state.events.isReady key).toNat := by
  cases c with
  | wait ms => exact hw
  | step i fault =>
      rw [go]
      cases hi : w.threads[i]? with
      | none => exact hw
      | some t =>
          have hcount := Thread.count_flipped_advance fault (h i t hi) key
          have hset := count_flatMap_set (·.marks) (.flipped key)
            (Thread.advance .all fault t w.state).1 hi
          simp only [total] at hw ⊢
          omega

theorem go_sound {w : Pool (Thread α)} (h : w.Meets fun _ => Thread.Sound) (c : Choice) :
    flags.rely w.state (w.go (Thread.advance .all) c).state
      ∧ (w.go (Thread.advance .all) c).Meets fun _ => Thread.Sound :=
  go_stays flags.refl (fun _ _ => ⟨.rfl, id⟩) (fun _ fault _ _ h => h.advance fault)
    (fun _ _ _ _ hs h => h.rely hs) h c

/-- Along a run from threads that are sound, the flips seen are the records ready. By induction on
the schedule, with one step of one thread at a time. -/
theorem run_sound {w : Pool (Thread α)} (h : w.Meets fun _ => Thread.Sound)
    (hw : ∀ key, w.total (.flipped key) = (w.state.events.isReady key).toNat)
    (schedule : List Choice) :
    let v := w.run (Thread.advance .all) schedule
    flags.rely w.state v.state ∧ (v.Meets fun _ => Thread.Sound)
      ∧ ∀ key, v.total (.flipped key) = (v.state.events.isReady key).toNat := by
  refine run_keeps (P := fun v => flags.rely w.state v.state ∧ (v.Meets fun _ => Thread.Sound)
    ∧ ∀ key, v.total (.flipped key) = (v.state.events.isReady key).toNat) ?_
    ⟨flags.refl _, h, hw⟩ schedule
  rintro v c ⟨hR, hL, hv⟩
  obtain ⟨hs, hL'⟩ := go_sound hL c
  exact ⟨flags.trans hR hs, hL', fun key => total_flipped_go hL c key (hv key)⟩

theorem sound_ofJobs (s : State) (jobs : List Job) :
    (ofJobs s jobs).Meets fun _ => Thread.Sound := by
  intro i t ht
  obtain ⟨job, -, rfl⟩ := List.mem_map.mp (List.mem_of_getElem? ht)
  exact ⟨.nil, job.asks_routine⟩

theorem total_ofJobs (s : State) (jobs : List Job) (m : Mark) :
    (ofJobs s jobs).total m = 0 := by
  refine List.count_eq_zero.mpr fun hm => ?_
  obtain ⟨t, ht, hm⟩ := List.mem_flatMap.mp hm
  obtain ⟨job, -, rfl⟩ := List.mem_map.mp ht
  cases hm

/-- What each thread has covered, the pool has covered. -/
theorem total_le_flipped {w : Pool (Thread α)} (h : w.Meets fun _ => Thread.Sound)
    (key : String) : w.total (.completed key) ≤ w.total (.flipped key)
      ∧ w.total (.returned key .resumeReady) ≤ w.total (.flipped key) := by
  have hcovered : ∀ t ∈ w.threads, Mark.Covered t.marks := fun t ht => by
    obtain ⟨i, hi⟩ := List.mem_iff_getElem?.mp ht
    exact (h i t hi).1
  exact ⟨count_flatMap_le fun t ht => (hcovered t ht key).1,
    count_flatMap_le fun t ht => (hcovered t ht key).2⟩

end Pool

/-- **A wait is made ready once.** From a store in which nothing is ready, whatever the threads do
and however they mingle: at most one call of `accept` on a key returns that the wait is ready; a
record is ready exactly when one flip was answered; it then stays ready; every ready record is that
of a wait; and at most one call completes a mailbox. -/
theorem accept_flips_once {s : State} (hs : ∀ key, s.events.isReady key = false)
    (jobs : List Job) (schedule : List Choice) (key : String) :
    let w := (Pool.ofJobs s jobs).run (Thread.advance .all) schedule
    w.total (.returned key .resumeReady) ≤ 1
      ∧ (w.state.events.isReady key = true ↔ w.total (.flipped key) = 1)
      ∧ (w.state.events.isReady key = true → ∀ later,
        (w.run (Thread.advance .all) later).state.events.isReady key = true)
      ∧ (∀ r, w.state.events.find? key = some r → r.ready = true → r.paused = true)
      ∧ w.total (.completed key) ≤ 1 := by
  intro w
  have hstart : ∀ key, (Pool.ofJobs s jobs).total (.flipped key)
      = (s.events.isReady key).toNat := fun key => by rw [Pool.total_ofJobs, hs key]; rfl
  obtain ⟨hrely, hsound, hflips⟩ :=
    Pool.run_sound (Pool.sound_ofJobs s jobs) hstart schedule
  have hcover := Pool.total_le_flipped hsound key
  have hone : w.total (.flipped key) ≤ 1 := by
    rw [hflips key]
    exact Bool.toNat_le _
  refine ⟨Nat.le_trans hcover.2 hone, ?_, fun hready later => ?_, fun r hr hready => ?_,
    Nat.le_trans hcover.1 hone⟩
  · rw [hflips key]
    cases w.state.events.isReady key <;> decide
  · exact (Pool.run_sound hsound hflips later).1.1.isReady hready
  · refine hrely.2 (fun k q hq hready => ?_) key r hr hready
    have hn := hs k
    rw [RecordStore.isReady, show s.events.find? k = some q from hq] at hn
    exact absurd (hn.symm.trans hready) (by decide)

/-- A wait, and two engines that are handed its event, one of them with a mailbox. -/
def race : List Job :=
  [.pause (.placeholder "ORD1::SHIPPED" "ORD1" (some "SHIPPED") default),
    .accept ⟨none⟩ (.observed "ORD1" "SHIPPED" .null default),
    .accept ⟨some 0⟩ (.observed "ORD1" "SHIPPED" .null default)]

/-- A schedule in which both engines find the wait before either of them makes it ready. -/
def sideBySide : List Choice :=
  .step 0 none :: (List.replicate 6 [.step 1 none, .step 2 none]).flatten

theorem race_flips_once :
    let w := (Pool.ofJobs (State.initial fun _ => ⟨0, 1, fun _ => 0⟩) race).run
      (Thread.advance .all) sideBySide
    w.total (.returned "ORD1::SHIPPED" .resumeReady) ≤ 1
      ∧ w.total (.flipped "ORD1::SHIPPED") = 1 := by
  obtain ⟨hreturned, hready, -⟩ :=
    accept_flips_once (s := State.initial fun _ => ⟨0, 1, fun _ => 0⟩) (fun _ => rfl) race
      sideBySide "ORD1::SHIPPED"
  exact ⟨hreturned, hready.mp (by rfl)⟩

end Rendezvous
