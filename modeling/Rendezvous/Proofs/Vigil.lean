import Rendezvous.Proofs.Attending
import Rendezvous.Proofs.Flipping
import Rendezvous.Session.Timers

/-!
# Waking means verified

A vigil verifies its event, waits for a receiver if it is not there, and verifies once more when the
receiver is resolved. It goes on among any number of other parties: they save events, pause waits,
verify, hand events to engines, poll, register receivers of their own and take them away, or keep
vigils too. No call fails.

If the key of its wait is used in an orderly way, a vigil comes back without its event only when its
time is up, and with its event when its receiver was resolved (`vigil_passes_or_times_out`). A
receiver is resolved only when the event is there to be found (`Interference.attending`), and nobody
takes it away but its owner, since no two parties have the same (`Pool.Guarded`).
-/

namespace Rendezvous

open Proc

/-! ## Vigils -/

/-- How a wait for a receiver ends, if it does. It is late when its time is up, which counts only
while the receiver is pending. -/
def Mailbox.wakeup? (a : Mailbox) (receiver : Nat) (late : Bool) : Option Wakeup :=
  match a.receivers[receiver]? with
  | some (.resolved _) => some .resolved
  | some .pending => if late then some .timedOut else none
  | _ => some .closed

/-- The waits of a session end in this way. -/
theorem Session.wakeup?_eq (s : Session) (w : Wait) : s.wakeup? w
    = (s.state.mailboxes w.mailbox).wakeup? w.receiver (w.deadline ≤ s.timer) := by
  unfold Session.wakeup? Mailbox.wakeup?
  rcases (s.state.mailboxes w.mailbox).receivers[w.receiver]? with _ | _ | _ | _ | _
  all_goals simp

namespace Verifier

def enter (v : Verifier) (result : Except Fault Verification) : Proc Stage :=
  match result, v.mailbox with
  | .ok (.notReady key), some mailbox => do return .waiting mailbox (← register mailbox key)
  | result, _ => return .finished result

/-- A verification with a mailbox starts in this way. -/
theorem start_eq (v : Verifier) (q : Question) : v.start q = verify q >>= v.enter := rfl

variable {v : Verifier}

theorem enter_of_passed {result : Except Fault Verification} (h : passed result = true) :
    v.enter result = .done (.finished result) := by
  match result, h with
  | .ok (.ready _), _ | .ok (.skipped _), _ => rfl

/-- Without a mailbox there is nothing to wait for. -/
theorem enter_of_none (h : v.mailbox = none) (result : Except Fault Verification) :
    v.enter result = .done (.finished result) := by
  unfold enter
  rw [h]
  cases result with
  | error f => rfl
  | ok verification => cases verification <;> rfl

theorem run_enter {mailbox : MailboxId} (h : v.mailbox = some mailbox) (key : String) (s : State) :
    run State.answer (v.enter (.ok (.notReady key))) s
      = (.waiting mailbox (s.register mailbox key).1.1, (s.register mailbox key).2) := by
  have hregister : run State.answer (register mailbox key) s
      = ((s.register mailbox key).1.1, (s.register mailbox key).2) := by
    change run State.answer (if (s.register mailbox key).1.2 then _ else _) _ = _
    split <;> rfl
  unfold enter
  rw [h]
  change run State.answer
    (register mailbox key >>= fun receiver => .done (Stage.waiting mailbox receiver)) s = _
  rw [run_bind, hregister]
  rfl

end Verifier

/-- What a vigil is kept for, how, and for how long at most. It stays the same while the vigil goes
through its stages. -/
structure Watch where
  verifier : Verifier
  question : Question
  timeout : Nat

/-- How far a call of `verify_or_wait` is. Its two verifications go on request by request, and
between them it waits for a receiver. -/
inductive Vigil
  | first (p : Proc (Except Fault Verification))
  | waiting (mailbox : MailboxId) (receiver since : Nat)
  /-- It goes on after the wait has ended. -/
  | second (how : Wakeup) (waited : Nat) (p : Proc (Except Fault Verification))
  /-- It waited in between or not. -/
  | ended (result : Except Fault Verification) (wait : Option (Wakeup × Nat))

/-- A vigil goes on by one step: a request of a verification, or the beginning or the end of its
wait. A receiver is registered, and taken away, in one step. -/
def Vigil.advance (a : Watch) : Vigil → State → Vigil × State
  | .first (.done result), s =>
    match run State.answer (a.verifier.enter result) s with
    | (.finished result, s) => (.ended result none, s)
    | (.waiting mailbox receiver, s) => (.waiting mailbox receiver s.clock, s)
  | .first p, s => (.first (Proc.advance .none none p s).1, (Proc.advance .none none p s).2)
  | .waiting mailbox receiver since, s =>
    match (s.mailboxes mailbox).wakeup? receiver (since + a.timeout ≤ s.clock) with
    | none => (.waiting mailbox receiver since, s)
    | some how =>
      (.second how (s.clock - since) (Verifier.finish a.question a.timeout how),
        s.setMailbox mailbox ((s.mailboxes mailbox).drop receiver))
  | .second how waited (.done result), s => (.ended result (some (how, waited)), s)
  | .second how waited p, s =>
    (.second how waited (Proc.advance .none none p s).1, (Proc.advance .none none p s).2)
  | .ended result wait, s => (.ended result wait, s)

/-! ## Parties -/

/-- One of those who share the state: somebody with a procedure to carry out, somebody who registers
a receiver and holds on to it, or a vigil. -/
inductive Party
  | busy (p : Proc Unit)
  /-- It is going to register a receiver. -/
  | caller (mailbox : MailboxId) (key : String)
  | holder (mailbox : MailboxId) (receiver : Nat)
  | vigil (a : Watch) (stage : Vigil)

def Proc.request? {α : Type} : Proc α → Option Request
  | .done _ => none
  | .ask r _ => some r

namespace Party

def advance : Pool.Stepper Party
  | _, .busy p, s => (.busy (Proc.advance .none none p s).1, (Proc.advance .none none p s).2)
  | _, .caller mailbox key, s =>
    (.holder mailbox (s.register mailbox key).1.1, (s.register mailbox key).2)
  | _, .holder mailbox receiver, s =>
    (.busy (.done ()), s.setMailbox mailbox ((s.mailboxes mailbox).drop receiver))
  | _, .vigil a stage, s => (.vigil a (stage.advance a s).1, (stage.advance a s).2)

def request? : Party → Option Request
  | .busy p => p.request?
  | .vigil _ (.first p) | .vigil _ (.second _ _ p) => p.request?
  | _ => none

/-- The receiver that the party has, if it has one. No other party drops it. -/
def owned : Party → Option (MailboxId × Nat)
  | .holder mailbox receiver | .vigil _ (.waiting mailbox receiver _) => some (mailbox, receiver)
  | _ => none

end Party

/-- What a party may be set to do. Whatever is no job must not write records, register receivers or
complete keys. -/
inductive Errand
  | job (j : Job)
  | aside (p : Proc Unit) (idle : p.Asks Request.Idle)
  | register (mailbox : MailboxId) (key : String)
  | watch (a : Watch)

def Errand.party : Errand → Party
  | .job j => .busy j.proc
  | .aside p _ => .busy p
  | .register mailbox key => .caller mailbox key
  | .watch a => .vigil a (.first (Verifier.verify a.question))

namespace Pool

def ofErrands (s : State) (errands : List Errand) : Pool Party := ⟨s, errands.map Errand.party⟩

def request? (w : Pool Party) : Choice → Option Request
  | .step i _ => w.threads[i]?.bind Party.request?
  | .wait _ => none

/-- Every request of the run is orderly when it is made. This is asked of a run, and not of its
parties one by one. -/
def Orderly (q : Question) : Pool Party → List Choice → Prop
  | _, [] => True
  | w, c :: cs => (∀ r ∈ w.request? c, r.Orderly q w.state.events)
      ∧ Orderly q (w.go Party.advance c) cs

instance decidableOrderly (q : Question) : ∀ (w : Pool Party) (schedule : List Choice),
    Decidable (w.Orderly q schedule)
  | _, [] => isTrue trivial
  | w, c :: cs =>
      have := decidableOrderly q (w.go Party.advance c) cs
      inferInstanceAs (Decidable ((∀ r ∈ w.request? c, r.Orderly q w.state.events)
        ∧ Orderly q (w.go Party.advance c) cs))

end Pool

/-! ## What a step does to the receivers -/

namespace State

/-- What a step of one party means to the others: nobody who is served goes without, but perhaps for
the receiver `owned`, which is the party's own. -/
structure Keeps (q : Question) (owned : Option (MailboxId × Nat)) (s t : State) : Prop where
  yields : s.Yields q t
  serves : s.Attends q → ∀ id receiver, owned ≠ some (id, receiver) → s.Serves q id receiver →
    t.Serves q id receiver
  length_le : ∀ id, (s.mailboxes id).receivers.length ≤ (t.mailboxes id).receivers.length

variable {q : Question} {s t : State} {owned : Option (MailboxId × Nat)}

theorem Keeps.refl (s : State) : s.Keeps q owned s :=
  ⟨⟨.rfl, id⟩, fun _ _ _ _ h => h, fun _ => Nat.le_refl _⟩

theorem keeps_wait (s : State) (ms : Nat) : s.Keeps q owned (s.wait ms) :=
  ⟨⟨.rfl, fun h => ⟨h.events, h.tracks, h.held⟩⟩, fun _ _ _ _ h => h, fun _ => Nat.le_refl _⟩

theorem length_setMailbox {i : MailboxId} {a : Mailbox}
    (h : (s.mailboxes i).receivers.length ≤ a.receivers.length) (id : MailboxId) :
    (s.mailboxes id).receivers.length ≤ ((s.setMailbox i a).mailboxes id).receivers.length := by
  by_cases hid : id = i
  · rw [hid, setMailbox_self]
    exact h
  · exact Nat.le_of_eq (by rw [setMailbox_ne s a hid])

theorem length_register (s : State) (i : MailboxId) (key : String) (id : MailboxId) :
    (s.mailboxes id).receivers.length
      ≤ ((s.register i key).2.mailboxes id).receivers.length := by
  refine length_setMailbox (a := ((s.mailboxes i).register (s.retention i) s.clock key).2) ?_ id
  rw [Mailbox.receivers_register, List.length_append]
  exact Nat.le_add_right ..

theorem length_answer (r : Request) (s : State) (id : MailboxId) :
    (s.mailboxes id).receivers.length ≤ ((answer r s).2.mailboxes id).receivers.length := by
  cases r with
  | events c => cases c <;> exact Nat.le_refl _
  | scenarios c => cases c <;> exact Nat.le_refl _
  | register i key => exact length_register s i key id
  | complete i key result =>
      refine length_setMailbox
        (a := ((s.mailboxes i).complete (s.retention i) s.clock key result).2) ?_ id
      exact Nat.le_of_eq (Mailbox.length_complete ..).symm
  | _ => exact Nat.le_refl _

theorem keeps_register (s : State) (i : MailboxId) (key : String) :
    s.Keeps q owned (s.register i key).2 where
  yields := ⟨.rfl, fun h => h.register i key⟩
  serves hs _ _ _ h := h.register hs i key
  length_le := length_register s i key

theorem keeps_drop (s : State) (i : MailboxId) (receiver : Nat) :
    s.Keeps q (some (i, receiver)) (s.setMailbox i ((s.mailboxes i).drop receiver)) where
  yields := ⟨.rfl, fun h => h.drop i receiver⟩
  serves _ _ _ hne h := h.drop fun heq => hne (congrArg some heq)
  length_le := length_setMailbox (Nat.le_of_eq List.length_set.symm)

theorem register_number (s : State) (i : MailboxId) (key : String) :
    (s.register i key).1.1 = (s.mailboxes i).receivers.length :=
  congrArg Prod.fst (Mailbox.register_fst ..)

theorem number_lt_register (s : State) (i : MailboxId) (key : String) :
    (s.register i key).1.1 < ((s.register i key).2.mailboxes i).receivers.length := by
  have hbox : (s.register i key).2.mailboxes i
      = ((s.mailboxes i).register (s.retention i) s.clock key).2 := setMailbox_self ..
  rw [register_number, hbox, Mailbox.receivers_register, List.length_append]
  exact Nat.lt_succ_self _

/-- What was held for the key of `q` reaches the new receiver only after the event came in, so a
receiver that is resolved at once is served, too. -/
theorem Attends.serves_register (hs : s.Attends q) (i : MailboxId) :
    (s.register i q.key).2.Serves q i (s.register i q.key).1.1 := by
  have hbox : (s.register i q.key).2.mailboxes i
      = ((s.mailboxes i).register (s.retention i) s.clock q.key).2 := setMailbox_self ..
  unfold Serves
  rw [register_number, hbox]
  cases h : (s.mailboxes i).unexpired (s.retention i) s.clock q.key with
  | none =>
      rw [Mailbox.live_register h]
      exact .inl (List.mem_append_right _ List.mem_cons_self)
  | some held =>
      refine .inr ⟨⟨held.result, ?_⟩, hs.held i held (Option.filter_eq_some_iff.mp h).1⟩
      rw [Mailbox.receivers_register, Mailbox.arrival, h, List.getElem?_concat_length]

/-- Who is served wakes up when the event is there, or when it is late. It is never woken for
nothing. -/
theorem Serves.wakeup? {id : MailboxId} {receiver : Nat} (h : s.Serves q id receiver) {late : Bool}
    {how : Wakeup} (hw : (s.mailboxes id).wakeup? receiver late = some how) :
    how = .resolved ∧ s.events.HasSeen q.key ∨ how = .timedOut ∧ late = true := by
  unfold Mailbox.wakeup? at hw
  rcases h with hl | ⟨⟨r, hr⟩, hseen⟩
  · rw [of_decide_eq_true (List.mem_filter.mp hl).2] at hw
    cases late with
    | false => cases hw
    | true => exact .inr ⟨(Option.some.inj hw).symm, rfl⟩
  · rw [hr] at hw
    exact .inl ⟨(Option.some.inj hw).symm, hseen⟩

end State

namespace Proc

variable {α : Type} {q : Question} {post : α → State → Prop}

/-- An orderly step of a procedure leaves all receivers to their owners. -/
theorem Attending.advance {p : Proc α} {s : State} (h : p.Attending q post s)
    (ho : ∀ r ∈ p.request?, r.Orderly q s.events) :
    s.Keeps q none (Proc.advance .none none p s).2
      ∧ (Proc.advance .none none p s).1.Attending q post (Proc.advance .none none p s).2 := by
  cases p with
  | done a => exact ⟨.refl s, h⟩
  | ask r next =>
      obtain ⟨⟨hy, hserves⟩, hn⟩ := h.ask (ho r rfl)
      rw [Proc.advance, State.reply_nofault]
      exact ⟨⟨hy, fun hs id receiver _ => hserves id receiver hs, State.length_answer r s⟩, hn⟩

end Proc

/-! ## What is known of a party -/

/-- The vigil has found its event, or it has waited for all of its time and answers that it is still
waiting. -/
def Watch.Kept (a : Watch) (result : Except Fault Verification) (wait : Option (Wakeup × Nat)) :
    Prop :=
  Verifier.passed result = true ∨ result = .ok (.notReady a.question.key)
    ∧ ∃ waited, wait = some (.timedOut, waited) ∧ a.timeout ≤ waited

/-- A vigil for `q` is served while it waits, and is kept in the end. One for another question only
has to do no harm. -/
def Vigil.Sound (q : Question) (a : Watch) : Vigil → State → Prop
  | .first p, s => p.Attending q (fun r _ =>
      Verifier.passed r = true ∨ r = .ok (.notReady a.question.key)) s
  | .waiting mailbox receiver _, s => a.question = q → s.Serves q mailbox receiver
  | .second how waited p, s =>
      p.Attending q (fun r _ => a.question = q → a.Kept r (some (how, waited))) s
  | .ended r wait, _ => a.question = q → a.verifier.mailbox.isSome = true → a.Kept r wait

/-- A party does no harm to the wait for `q`, and if it is a vigil it is a sound one. -/
def Party.Sound (q : Question) : Party → State → Prop
  | .busy p, s => p.Attending q (fun _ _ => True) s
  | .vigil a stage, s => stage.Sound q a s
  | _, _ => True

section

variable {q : Question} {s : State} (hq : q.order ≠ "") (hs : s.Attends q)

include hq hs

theorem Job.attending : ∀ j : Job, j.proc.Attending q (fun _ _ => True) s
  | .save _ | .pause _ => attending_request hq fun _ _ _ =>
      ⟨fun _ => trivial, fun _ => attending_done fun _ _ => trivial⟩
  | .verify q' => attending_bind ((Verifier.attending_verify hq hs q').mono fun _ _ _ =>
      attending_done fun _ _ => trivial)
  | .accept g e => attending_bind ((Engine.attending_accept hq hs g e).mono fun _ _ _ =>
      attending_done fun _ _ => trivial)
  | .poll p => attending_bind ((Poller.attending_sweep hq hs p).mono fun _ _ _ =>
      attending_done fun _ _ => trivial)

theorem Errand.sound : ∀ e : Errand, e.party.Sound q s
  | .job j => Job.attending hq hs j
  | .aside _ idle => (attending_idle hq idle).mono fun _ _ _ => trivial
  | .register _ _ => trivial
  | .watch a => (Verifier.attending_verify hq hs a.question).mono fun _ _ h => h.ended

/-- What a vigil for `q` does after it has waited brings the event, or it was late. -/
theorem Watch.attending_finish (a : Watch) {how : Wakeup} {waited : Nat}
    (h : a.question = q → how = .resolved ∧ s.events.HasSeen q.key
      ∨ how = .timedOut ∧ a.timeout ≤ waited) :
    (Verifier.finish a.question a.timeout how).Attending q
      (fun r _ => a.question = q → a.Kept r (some (how, waited))) s := by
  cases how with
  | resolved =>
      refine (Verifier.attending_verify hq hs a.question).mono fun r t hr heq => .inl ?_
      obtain ⟨-, hseen⟩ | ⟨hno, -⟩ := h heq
      · exact hr.seen heq hseen
      · cases hno
  | closed =>
      refine attending_done fun t _ heq => ?_
      obtain ⟨hno, -⟩ | ⟨hno, -⟩ := h heq
      · cases hno
      · cases hno
  | timedOut =>
      refine attending_note hq _ fun t _ heq => .inr ⟨rfl, waited, rfl, ?_⟩
      obtain ⟨hno, -⟩ | ⟨-, hle⟩ := h heq
      · cases hno
      · exact hle

end

/-! ## What a step does -/

/-- What a party that is about to go on at `s` becomes, and the state it leaves. Every kind of party
has one lemma that says this of it. -/
structure Party.Steps (q : Question) (p : Party) (s : State) (out : Party × State) : Prop where
  keeps : s.Keeps q p.owned out.2
  sound : out.1.Sound q out.2
  /-- It comes by no receiver but a new one. -/
  owned : ∀ o, out.1.owned = some o → p.owned = some o
    ∨ (s.mailboxes o.1).receivers.length ≤ o.2
      ∧ o.2 < (out.2.mailboxes o.1).receivers.length

namespace Party

variable {q : Question} {s : State}

theorem steps_self {p : Party} (h : p.Sound q s) : p.Steps q s (p, s) :=
  ⟨.refl s, h, fun _ => .inl⟩

/-- A party that has no receiver goes on and has none. -/
theorem steps_of_keeps {p : Party} {out : Party × State} (hp : p.owned = none)
    (ho : out.1.owned = none) (h : s.Keeps q none out.2) (hsound : out.1.Sound q out.2) :
    p.Steps q s out :=
  ⟨hp ▸ h, hsound, fun _ h => nomatch ho.symm.trans h⟩

theorem steps_register {p out : Party} {i : MailboxId} {key : String}
    (ho : out.owned = some (i, (s.register i key).1.1))
    (hsound : out.Sound q (s.register i key).2) : p.Steps q s (out, (s.register i key).2) where
  keeps := s.keeps_register i key
  sound := hsound
  owned o h := by
    obtain rfl := Option.some.inj (ho.symm.trans h)
    exact .inr ⟨Nat.le_of_eq (s.register_number i key).symm, s.number_lt_register i key⟩

/-- A vigil registers a receiver only after a verification in vain. A completion that came in
between the two is held for it. -/
theorem steps_enter {a : Watch} {r : Except Fault Verification} (hs : s.Attends q)
    (h : Verifier.passed r = true ∨ r = .ok (.notReady a.question.key)) :
    (Party.vigil a (.first (.done r))).Steps q s
      (.vigil a ((Vigil.first (.done r)).advance a s).1,
        ((Vigil.first (.done r)).advance a s).2) := by
  rcases h with hpassed | rfl
  · rw [Vigil.advance, Verifier.enter_of_passed hpassed]
    exact steps_of_keeps rfl rfl (.refl s) fun _ _ => .inl hpassed
  · cases hm : a.verifier.mailbox with
    | none =>
        rw [Vigil.advance, Verifier.enter_of_none hm]
        refine steps_of_keeps rfl rfl (.refl s) ?_
        intro _ hsome
        rw [hm] at hsome
        cases hsome
    | some m =>
        rw [Vigil.advance, Verifier.run_enter hm]
        refine steps_register rfl ?_
        intro heq
        subst heq
        exact hs.serves_register m

section

variable (hq : q.order ≠ "") (hs : s.Attends q)

include hq hs

theorem steps_wake {a : Watch} {m : MailboxId} {receiver since : Nat}
    (h : a.question = q → s.Serves q m receiver) :
    (Party.vigil a (.waiting m receiver since)).Steps q s
      (.vigil a ((Vigil.waiting m receiver since).advance a s).1,
        ((Vigil.waiting m receiver since).advance a s).2) := by
  unfold Vigil.advance
  dsimp only
  cases hw : (s.mailboxes m).wakeup? receiver (since + a.timeout ≤ s.clock) with
  | none => exact steps_self h
  | some how =>
      refine ⟨s.keeps_drop m receiver, ?_, fun o ho => (nomatch ho)⟩
      refine a.attending_finish hq (hs.drop m receiver) fun heq => ?_
      refine ((h heq).wakeup? hw).imp_right fun ⟨hhow, hlate⟩ => ⟨hhow, ?_⟩
      have := of_decide_eq_true hlate
      omega

theorem steps_vigil {a : Watch} {stage : Vigil} (h : stage.Sound q a s)
    (ho : ∀ r ∈ (Party.vigil a stage).request?, r.Orderly q s.events) :
    (Party.vigil a stage).Steps q s (.vigil a (stage.advance a s).1, (stage.advance a s).2) := by
  cases stage with
  | first p =>
      cases p with
      | done r => exact steps_enter hs h.ends
      | ask r next =>
          obtain ⟨hkeeps, hn⟩ := Attending.advance h ho
          exact steps_of_keeps rfl rfl hkeeps hn
  | waiting m receiver since => exact steps_wake hq hs h
  | second how waited p =>
      cases p with
      | done r => exact steps_of_keeps rfl rfl (.refl s) fun heq _ => h.ends heq
      | ask r next =>
          obtain ⟨hkeeps, hn⟩ := Attending.advance h ho
          exact steps_of_keeps rfl rfl hkeeps hn
  | ended r wait => exact steps_self h

/-- What any party does in one step, by its kind. From here on parties are all alike. -/
theorem steps_advance {p : Party} (h : p.Sound q s) (ho : ∀ r ∈ p.request?, r.Orderly q s.events)
    (fault : Option Fault) : p.Steps q s (Party.advance fault p s) := by
  cases p with
  | busy p =>
      obtain ⟨hkeeps, hn⟩ := Attending.advance h ho
      exact steps_of_keeps rfl rfl hkeeps hn
  | caller i key => exact steps_register rfl trivial
  | holder i receiver =>
      exact ⟨s.keeps_drop i receiver, attending_done fun _ _ => trivial, fun _ h => (nomatch h)⟩
  | vigil a stage => exact steps_vigil hq hs h ho

end

/-- A party minds nobody's step who has another receiver. -/
theorem Sound.rely {p : Party} {t : State} {owned : Option (MailboxId × Nat)} (h : p.Sound q s)
    (hs : s.Attends q) (hk : s.Keeps q owned t) (hne : ∀ o, p.owned = some o → owned ≠ some o) :
    p.Sound q t := by
  cases p with
  | busy p => exact Attending.rely h hk.yields
  | vigil a stage =>
      cases stage with
      | first p => exact Attending.rely h hk.yields
      | waiting m receiver since =>
          exact fun heq => hk.serves hs m receiver (hne _ rfl) (h heq)
      | second how waited p => exact Attending.rely h hk.yields
      | ended r wait => exact h
  | _ => trivial

end Party

/-! ## Runs -/

namespace Pool

/-- Every party has a receiver of its own, if any, and those of vigils for `q` are served. This is
what every step of the pool keeps. -/
structure Guarded (q : Question) (w : Pool Party) : Prop where
  attends : w.state.Attends q
  sound : w.Meets fun _ => Party.Sound q
  owned : w.Meets fun _ p s => ∀ o, p.owned = some o → o.2 < (s.mailboxes o.1).receivers.length
  apart : ∀ {i j : Nat} {p p' : Party} {o}, w.threads[i]? = some p → w.threads[j]? = some p' →
    p.owned = some o → p'.owned = some o → i = j

variable {q : Question} {w : Pool Party}

theorem guarded_ofErrands (hq : q.order ≠ "") (retention : MailboxId → Retention)
    (errands : List Errand) : (ofErrands (.initial retention) errands).Guarded q where
  attends := State.attends_initial q retention
  sound i p hp := by
    obtain ⟨e, -, rfl⟩ := List.mem_map.mp (List.mem_of_getElem? hp)
    exact e.sound hq (State.attends_initial q retention)
  owned i p hp o ho := by
    obtain ⟨e, -, rfl⟩ := List.mem_map.mp (List.mem_of_getElem? hp)
    cases e <;> cases ho
  apart {i j p p' o} hp _ ho _ := by
    obtain ⟨e, -, rfl⟩ := List.mem_map.mp (List.mem_of_getElem? hp)
    cases e <;> cases ho

/-- Nobody comes by a receiver that another party has. -/
theorem Guarded.not_owned (h : w.Guarded q) {i j : Nat} {p p' : Party} {out : Party × State}
    (hi : w.threads[i]? = some p) (hp : p.Steps q w.state out) (hij : j ≠ i)
    (hj : w.threads[j]? = some p') {o : MailboxId × Nat} (ho : p'.owned = some o) :
    out.1.owned ≠ some o := by
  intro hown
  rcases hp.owned o hown with hold | ⟨hnew, -⟩
  · exact hij (h.apart hj hi ho hold)
  · have hlt := h.owned j p' hj o ho
    omega

theorem Guarded.step (h : w.Guarded q) {i : Nat} {p : Party} (hi : w.threads[i]? = some p)
    {out : Party × State} (hp : p.Steps q w.state out) :
    Guarded q ⟨out.2, w.threads.set i out.1⟩ where
  attends := hp.keeps.yields.2 h.attends
  sound := by
    intro j p' hj
    rcases getElem?_set_cases hj with ⟨rfl, rfl⟩ | ⟨hij, hj'⟩
    · exact hp.sound
    · refine (h.sound j p' hj').rely h.attends hp.keeps ?_
      intro o ho hown
      exact hij (h.apart hj' hi ho hown)
  owned := by
    intro j p' hj o ho
    have hlen := hp.keeps.length_le o.1
    rcases getElem?_set_cases hj with ⟨rfl, rfl⟩ | ⟨-, hj'⟩
    · rcases hp.owned o ho with hold | ⟨-, hlt⟩
      · exact Nat.lt_of_lt_of_le (h.owned j p hi o hold) hlen
      · exact hlt
    · exact Nat.lt_of_lt_of_le (h.owned j p' hj' o ho) hlen
  apart := by
    intro j k p' p'' o hj hk ho ho'
    rcases getElem?_set_cases hj with ⟨rfl, rfl⟩ | ⟨hij, hj'⟩
    · rcases getElem?_set_cases hk with ⟨rfl, -⟩ | ⟨hik, hk'⟩
      · rfl
      · exact absurd ho (h.not_owned hi hp hik hk' ho')
    · rcases getElem?_set_cases hk with ⟨rfl, rfl⟩ | ⟨-, hk'⟩
      · exact absurd ho' (h.not_owned hi hp hij hj' ho)
      · exact h.apart hj' hk' ho ho'

theorem Guarded.go (hq : q.order ≠ "") (h : w.Guarded q) {c : Choice}
    (hc : ∀ r ∈ w.request? c, r.Orderly q w.state.events) :
    (w.go Party.advance c).Guarded q := by
  cases c with
  | wait ms =>
      have hk : w.state.Keeps q none (w.state.wait ms) := w.state.keeps_wait ms
      have hsound := fun i p hp => (h.sound i p hp).rely h.attends hk fun _ _ => nofun
      exact ⟨hk.yields.2 h.attends, hsound, h.owned, h.apart⟩
  | step i fault =>
      rw [Pool.go]
      cases hi : w.threads[i]? with
      | none => exact h
      | some p =>
          rw [request?, hi] at hc
          exact h.step hi (Party.steps_advance hq h.attends (h.sound i p hi) hc fault)

/-- As long as all requests are orderly, vigils are kept. By induction on the schedule, with one
step of one party at a time. -/
theorem Guarded.run (hq : q.order ≠ "") : ∀ {w : Pool Party} (schedule : List Choice),
    w.Guarded q → w.Orderly q schedule → (w.run Party.advance schedule).Guarded q
  | _, [], h, _ => h
  | _, _ :: cs, h, ⟨hc, ho⟩ => Guarded.run hq cs (h.go hq hc) ho

end Pool

/-! ## Going on alone -/

/-- Nothing that a vigil for `q` asks for after its wait can be disorderly. -/
theorem Verifier.asks_finish (q : Question) (timeout : Nat) (how : Wakeup) :
    (finish q timeout how).Asks fun r => ∀ s, r.Orderly q s := by
  have hidle : ∀ r : Request, r.Idle → ∀ s, r.Orderly q s := by
    intro r hr s
    have hcalm : r.Calm q False := hr.calm
    exact hcalm.orderly s
  cases how with
  | resolved => exact asks_verify_of hidle fun time s _ => ⟨rfl, rfl⟩
  | closed => trivial
  | timedOut => exact asks_bind (fun _ => asks_pure _) (asks_request fun s => trivial)

namespace Pool

variable {q : Question} {w : Pool Party} {i : Nat} {a : Watch} {how : Wakeup} {waited : Nat}

/-- A party that goes on is where its step has taken it. -/
theorem getElem?_go {p : Party} (hi : w.threads[i]? = some p) :
    (w.go Party.advance (.step i none)).threads[i]? = some (p.advance none w.state).1 := by
  rw [Pool.go, hi]
  exact List.getElem?_set_self (List.getElem?_eq_some_iff.mp hi).1

/-- A vigil that goes on alone after its wait comes to its end. -/
theorem ends_alone {p : Proc (Except Fault Verification)}
    (hi : w.threads[i]? = some (.vigil a (.second how waited p)))
    (hp : p.Asks fun r => ∀ s, r.Orderly q s) :
    ∃ n result, w.Orderly q (List.replicate n (.step i none))
      ∧ (w.run Party.advance (List.replicate n (.step i none))).threads[i]?
        = some (.vigil a (.ended result (some (how, waited)))) := by
  induction p generalizing w with
  | done r =>
      refine ⟨1, r, ⟨?_, trivial⟩, getElem?_go hi⟩
      intro r' hr'
      rw [request?, hi] at hr'
      cases hr'
  | ask r next ih =>
      obtain ⟨hr, hn⟩ := hp
      obtain ⟨n, result, horderly, hended⟩ := ih _ (getElem?_go hi) (hn _)
      refine ⟨n + 1, result, ⟨?_, horderly⟩, hended⟩
      intro r' hr'
      rw [request?, hi] at hr'
      obtain rfl := Option.some.inj hr'
      exact hr _

/-- A vigil whose receiver is resolved wakes up when it goes on, whatever the time. -/
theorem wakes_alone {mailbox : MailboxId} {receiver since : Nat} {r : Record}
    (hi : w.threads[i]? = some (.vigil a (.waiting mailbox receiver since)))
    (hr : (w.state.mailboxes mailbox).receivers[receiver]? = some (.resolved r)) :
    ∃ n result, w.Orderly a.question (List.replicate n (.step i none))
      ∧ (w.run Party.advance (List.replicate n (.step i none))).threads[i]?
        = some (.vigil a (.ended result (some (.resolved, w.state.clock - since)))) := by
  have hwakeup : ∀ late, (w.state.mailboxes mailbox).wakeup? receiver late = some .resolved := by
    intro late
    rw [Mailbox.wakeup?, hr]
  have hstep := getElem?_go hi
  rw [Party.advance, Vigil.advance, hwakeup] at hstep
  obtain ⟨n, result, horderly, hended⟩ :=
    ends_alone hstep (Verifier.asks_finish a.question a.timeout .resolved)
  refine ⟨n + 1, result, ⟨?_, horderly⟩, hended⟩
  intro r' hr'
  rw [request?, hi] at hr'
  cases hr'

end Pool

/-- **Waking means verified.** In an orderly run a vigil with a mailbox has found its event when it
ends, or all of its time has passed; and one whose receiver is resolved ends with its event, when it
goes on. -/
theorem vigil_passes_or_times_out {q : Question} (hq : q.order ≠ "")
    (retention : MailboxId → Retention) (errands : List Errand) {schedule : List Choice}
    (horderly : (Pool.ofErrands (.initial retention) errands).Orderly q schedule) (i : Nat)
    {a : Watch} (ha : a.question = q) (hmailbox : a.verifier.mailbox.isSome = true) :
    let w := (Pool.ofErrands (.initial retention) errands).run Party.advance schedule
    (∀ result wait, w.threads[i]? = some (.vigil a (.ended result wait)) →
      Verifier.passed result = true ∨ result = .ok (.notReady q.key)
        ∧ ∃ waited, wait = some (.timedOut, waited) ∧ a.timeout ≤ waited)
    ∧ ∀ mailbox receiver since r,
      w.threads[i]? = some (.vigil a (.waiting mailbox receiver since)) →
      (w.state.mailboxes mailbox).receivers[receiver]? = some (.resolved r) →
      ∃ n result, Verifier.passed result = true
        ∧ (w.run Party.advance (List.replicate n (.step i none))).threads[i]?
          = some (.vigil a (.ended result (some (.resolved, w.state.clock - since)))) := by
  intro w
  subst ha
  have hguarded : w.Guarded a.question :=
    (Pool.guarded_ofErrands hq retention errands).run hq schedule horderly
  refine ⟨?ended, ?resolved⟩
  case ended =>
    intro result wait hended
    exact hguarded.sound i _ hended rfl hmailbox
  case resolved =>
    intro mailbox receiver since r hwaiting hresolved
    obtain ⟨n, result, halone, hended⟩ := Pool.wakes_alone hwaiting hresolved
    have hkept : a.Kept result (some (.resolved, w.state.clock - since)) :=
      (hguarded.run hq _ halone).sound i _ hended rfl hmailbox
    refine ⟨n, result, hkept.resolve_right ?_, hended⟩
    rintro ⟨-, waited, hlate, -⟩
    cases hlate

namespace Encounter

/-- A vigil for the shipment, an engine that takes it in, and a poller, all on one mailbox. -/
def errands : List Errand :=
  [.watch ⟨⟨some 0⟩, shipped, 1000⟩,
    .job (.accept ⟨some 0⟩ (.observed "ORD1" "SHIPPED" .null default)),
    .job (.poll ⟨"x", ⟨some 0⟩, 0⟩)]

/-- A schedule in which the wait is made ready after the vigil has paused, and before it registers a
receiver. -/
def early : List Choice :=
  List.replicate 4 (.step 0 none) ++ List.replicate 3 (.step 1 none)
    ++ List.replicate 7 (.step 2 none) ++ List.replicate 6 (.step 0 none)

theorem early_passes :
    let w := (Pool.ofErrands (.initial fun _ => ⟨5000, 1, fun _ => 0⟩) errands).run
      Party.advance early
    ∃ n result, Verifier.passed result = true
      ∧ (w.run Party.advance (List.replicate n (.step 0 none))).threads[0]?
        = some (.vigil ⟨⟨some 0⟩, shipped, 1000⟩ (.ended result (some (.resolved, 0)))) := by
  intro w
  have horderly : (Pool.ofErrands (.initial fun _ => ⟨5000, 1, fun _ => 0⟩) errands).Orderly
      shipped early := by decide +kernel
  have hwaiting : w.threads[0]?
      = some (.vigil ⟨⟨some 0⟩, shipped, 1000⟩ (.waiting 0 0 0)) := by rfl
  have hresolved : ∃ r, (w.state.mailboxes 0).receivers[0]? = some (.resolved r) := ⟨_, rfl⟩
  obtain ⟨r, hresolved⟩ := hresolved
  exact (vigil_passes_or_times_out (by decide) _ errands horderly 0 rfl rfl).2 0 0 0 r hwaiting
    hresolved

end Encounter

end Rendezvous
