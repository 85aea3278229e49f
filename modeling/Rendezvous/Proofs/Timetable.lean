import Mathlib.Data.List.TakeWhile
import Rendezvous.Proofs.Ticking
import Rendezvous.Session.Run

/-!
# The timetable of pollers

A poller that is started with others runs a cycle at once and then one for every interval that goes
by, until the switch they were given is set to stop or let go; from then on nothing of it changes.
Whatever else is started, stopped or let go has no say in this, nor has how the timer got where it
is (`pollers_keep_time`). That holds for as many pollers as one likes, with switches in common or
not, and after everything that was done with pollers before.

How often a poller has run its cycle is what its task says. That this is what was really run is
seen from the calls: of all requests only a cycle lists the waits, and it does so once.
-/

namespace Rendezvous

open Session (spawn tell withSwitch ended)

/-! ## What is done with pollers -/

/-- What can be done with pollers and to the timer they go by. Any number of pollers may run, on any
number of switches. -/
inductive Control
  /-- Starts pollers on a switch of their own. -/
  | spawn (pollers : List Poller)
  | advance (ms : Nat)
  /-- Sends a value to the pollers of a switch. -/
  | send (switch : Nat) (stop : Bool)
  /-- Lets go of a switch. -/
  | drop (switch : Nat)

namespace Control

/-- The control as it is carried out in a session. -/
def script : Control → Script Unit
  | .spawn pollers => do let _ ← Session.spawn pollers
  | .advance ms => do let _ ← Session.perform (.advance ms)
  | .send switch stop => do let _ ← Session.perform (.signal switch stop)
  | .drop switch => do let _ ← Session.perform (.dropSignal switch)

/-- The session after the controls, the first one first, each from where the one before has left
it. -/
def after (cs : List Control) (s : Session) : Session := cs.foldl (fun s c => (c.script s).2) s

/-- Whether the pollers of the switch are to stop, because they are told so or because the switch is
let go of. -/
def stops (switch : Nat) : Control → Bool
  | .send k stop => k = switch && stop
  | .drop k => k = switch
  | _ => false

/-- How far the control takes the timer; only one kind does. -/
def ms : Control → Nat
  | .advance ms => ms
  | _ => 0

/-- How far the controls take the timer, all in all. -/
def elapsed (cs : List Control) : Nat := (cs.map ms).sum

/-- How far the controls take the timer until the pollers of the switch are to stop, or all in all
if they are not. -/
def uptime (switch : Nat) (cs : List Control) : Nat :=
  elapsed (cs.takeWhile fun c => !c.stops switch)

variable {switch : Nat} {cs : List Control}

theorem elapsed_concat (cs : List Control) (c : Control) :
    elapsed (cs ++ [c]) = elapsed cs + c.ms := by
  simp [elapsed]

theorem uptime_of_running (h : ∀ c ∈ cs, c.stops switch = false) :
    uptime switch cs = elapsed cs := by
  rw [uptime, List.takeWhile_eq_self_iff.mpr (by simpa using h)]

theorem uptime_append (h : ∃ c ∈ cs, c.stops switch = true) (more : List Control) :
    uptime switch (cs ++ more) = uptime switch cs := by
  obtain ⟨c, hc, hstops⟩ := h
  rw [uptime, List.takeWhile_append, if_neg ?_]
  · rfl
  · intro hlength
    have hall := List.takeWhile_eq_self_iff.mp
      ((List.takeWhile_prefix _).eq_of_length hlength) c hc
    simp [hstops] at hall

/-- The time at which they are to stop counts in full. -/
theorem uptime_concat_of_stops (h : ∀ c ∈ cs, c.stops switch = false) {c : Control}
    (hc : c.stops switch = true) : uptime switch (cs ++ [c]) = elapsed cs := by
  rw [uptime, List.takeWhile_append_of_pos (by simpa using h),
    List.takeWhile_cons_of_neg (by simpa using hc), List.append_nil]

/-! ## What a control does -/

/-- To look whether the tasks have ended changes nothing. -/
theorem snd_ended (switch : Nat) (s : Session) : (ended switch s).2 = s := by
  have hended : ended switch s
      = (if switch < s.schedule.switches.length then
          (pure (.ok (.flags (s.schedule.ended switch))) : Script Session.Result)
        else pure (.error (.badInput "index"))) s := rfl
  rw [hended]
  split <;> rfl

theorem withSwitch_eq (switch : Nat) (use : Script Unit) (s : Session) :
    (withSwitch switch use s).2 = if s.schedule.isHeld switch then (use s).2 else s := by
  have hrun : withSwitch switch use s = (if s.schedule.isHeld switch then do
      use
      ended switch
    else ended switch) s := rfl
  rw [hrun]
  split
  · exact snd_ended switch (use s).2
  · exact snd_ended switch s

/-- A value that says to go on changes nothing at all. -/
theorem send_false (switch : Nat) (s : Session) : ((send switch false).script s).2 = s := by
  change (withSwitch switch (tell switch (.told false)) s).2 = s
  rw [withSwitch_eq, Session.tell_told_false]
  exact ite_self s

/-- What comes of a control: time goes on or pollers are started, or the pollers of one switch are
stopped. -/
inductive Effect (c : Control) (s s' : Session) : Prop
  | goesOn (passes : s.Passes s') (timer : s'.timer = s.timer + c.ms)
      (unstopped : ∀ k, s.schedule.isHeld k = true → c.stops k = false)
  | stopped (k : Nat) (stops : ∀ j, c.stops j = decide (k = j)) (ms : c.ms = 0)
      (tasks : s'.schedule.tasks = (s.schedule.stop k).tasks) (timer : s'.timer = s.timer)
      (held : ∀ j, j ≠ k → s'.schedule.isHeld j = s.schedule.isHeld j)
      (listings : s'.listings = s.listings)

theorem effect_of_not_held {c : Control} {s : Session} {k : Nat} (h : s.Orderly)
    (hstops : ∀ j, c.stops j = decide (k = j)) (hms : c.ms = 0)
    (hheld : ¬ s.schedule.isHeld k = true) : c.Effect s s := by
  refine .goesOn (.refl h) (by rw [hms, Nat.add_zero]) fun j hj => ?_
  rw [hstops]
  exact decide_eq_false fun hk => hheld (hk ▸ hj)

theorem effect_script {s : Session} (h : s.AtRest) (c : Control) :
    c.Effect s (c.script s).2 ∧ (c.script s).2.AtRest := by
  cases c with
  | spawn pollers =>
      obtain ⟨hpasses, hrest, htimer, -, -⟩ := Session.passes_spawn h pollers
      exact ⟨.goesOn hpasses htimer fun _ _ => rfl, hrest⟩
  | advance ms =>
      obtain ⟨hpasses, hrest, htimer⟩ := Session.passes_advanceTo h (Nat.le_add_right s.timer ms)
      have horderly : ((Control.advance ms).script s).2.Orderly := ⟨hrest.quiet, hrest.punctual⟩
      exact ⟨.goesOn ⟨horderly, hpasses.timer, hpasses.held, hpasses.task, hpasses.cycles⟩ htimer
        fun _ _ => rfl, horderly, hrest.rested⟩
  | send switch stop =>
      cases stop with
      | false =>
          rw [send_false]
          exact ⟨.goesOn (.refl h.toOrderly) rfl fun _ _ => Bool.and_false _, h⟩
      | true =>
          change (send switch true).Effect s (withSwitch switch (tell switch (.told true)) s).2
            ∧ (withSwitch switch (tell switch (.told true)) s).2.AtRest
          have hstops : ∀ j, (send switch true).stops j = decide (switch = j) :=
            fun _ => Bool.and_true _
          rw [withSwitch_eq]
          split
          · have hsignal : (Task.Signal.told true).stops = true := rfl
            obtain ⟨log, heq⟩ := Session.tell_stop hsignal switch s
            rw [heq]
            exact ⟨.stopped switch hstops rfl rfl rfl (fun _ _ => rfl) rfl, h.stop switch log⟩
          · exact ⟨effect_of_not_held h.toOrderly hstops rfl ‹_›, h⟩
  | drop switch =>
      let release : Script Unit := do
        tell switch .abandoned
        modify fun s => { s with schedule := s.schedule.release switch }
      change (drop switch).Effect s (withSwitch switch release s).2
        ∧ (withSwitch switch release s).2.AtRest
      have hstops : ∀ j, (drop switch).stops j = decide (switch = j) := fun _ => rfl
      have hrelease : (release s).2 = { (tell switch .abandoned s).2 with
        schedule := (tell switch .abandoned s).2.schedule.release switch } := rfl
      rw [withSwitch_eq, hrelease]
      split
      · have hsignal : Task.Signal.abandoned.stops = true := rfl
        obtain ⟨log, heq⟩ := Session.tell_stop hsignal switch s
        rw [heq]
        have hrest := h.stop switch log
        exact ⟨.stopped switch hstops rfl rfl rfl (fun j hj => Schedule.isHeld_release _ hj) rfl,
          ⟨hrest.quiet, hrest.punctual⟩, hrest.rested⟩
      · exact ⟨effect_of_not_held h.toOrderly hstops rfl ‹_›, h⟩

end Control

/-! ## One task -/

namespace Task

open Control (uptime elapsed)

/-- What the controls `since` its start have made of a task of `p`: whether it has ended, and how
many cycles it has run. -/
structure Kept (t : Task) (p : Poller) (switch : Nat) (since : List Control) : Prop where
  poller_eq : t.poller = p
  switch_eq : t.switch = switch
  ended : t.ended = true ↔ ∃ c ∈ since, c.stops switch = true
  cycles : t.cycles = 1 + uptime switch since / p.intervalMs

variable {t t' : Task} {p : Poller} {switch : Nat} {since : List Control} {c : Control}

theorem Kept.running (h : t.Kept p switch since) (hrun : t.ended = false) :
    ∀ c ∈ since, c.stops switch = false := by
  intro c hc
  rw [Bool.eq_false_iff]
  intro hstops
  rw [h.ended.mpr ⟨c, hc, hstops⟩] at hrun
  cases hrun

theorem Kept.of_ended (h : t.Kept p switch since) (hended : t.ended = true) (c : Control) :
    t.Kept p switch (since ++ [c]) where
  poller_eq := h.poller_eq
  switch_eq := h.switch_eq
  ended := by
    obtain ⟨d, hd, hstops⟩ := h.ended.mp hended
    exact iff_of_true hended ⟨d, List.mem_append_left _ hd, hstops⟩
  cycles := by rw [h.cycles, Control.uptime_append (h.ended.mp hended)]

/-- The task is stopped. -/
theorem Kept.stop (h : t.Kept p switch since) (hrun : t.ended = false)
    (hstops : c.stops switch = true) : { t with ended := true }.Kept p switch (since ++ [c]) where
  poller_eq := h.poller_eq
  switch_eq := h.switch_eq
  ended := iff_of_true rfl ⟨c, by simp, hstops⟩
  cycles := by
    rw [Control.uptime_concat_of_stops (h.running hrun) hstops,
      ← Control.uptime_of_running (h.running hrun)]
    exact h.cycles

/-- The task goes on. -/
theorem Kept.goOn (h : t.Kept p switch since) (hrun : t.ended = false)
    (hstops : c.stops switch = false) (hpoller : t'.poller = p) (hswitch : t'.switch = switch)
    (hrun' : t'.ended = false)
    (hcycles : t'.cycles = 1 + elapsed (since ++ [c]) / p.intervalMs) :
    t'.Kept p switch (since ++ [c]) := by
  have hnone : ∀ d ∈ since ++ [c], d.stops switch = false := by
    intro d hd
    rcases List.mem_append.mp hd with hd | hd
    · exact h.running hrun d hd
    · exact List.mem_singleton.mp hd ▸ hstops
  refine ⟨hpoller, hswitch, iff_of_false (by simp [hrun']) ?_, ?_⟩
  · rintro ⟨d, hd, hstop⟩
    rw [hnone d hd] at hstop
    cases hstop
  · rw [Control.uptime_of_running hnone]
    exact hcycles

end Task

namespace Session

open Control (elapsed)

/-- Task `i`, started at `start`, is as the controls since then have it, and on its beat as long as
it runs. -/
structure Follows (s : Session) (i start : Nat) (p : Poller) (switch : Nat)
    (since : List Control) : Prop where
  rest : s.AtRest
  timer : s.timer = start + elapsed since
  task : ∃ t, s.schedule.tasks[i]? = some t ∧ t.Kept p switch since
    ∧ (t.ended = false → t.OnBeat start s.timer ∧ s.schedule.isHeld switch = true)

variable {s : Session} {i start : Nat} {p : Poller} {switch : Nat} {since : List Control}

/-- The switch is a new one. -/
theorem spawn_fst (pollers : List Poller) (s : Session) :
    (spawn pollers s).1 = s.schedule.switches.length := rfl

theorem follows_spawn (h : s.AtRest) {pollers : List Poller} {j : Nat}
    (hj : pollers[j]? = some p) (hp : 0 < p.intervalMs) :
    (spawn pollers s).2.Follows (s.schedule.tasks.length + j) s.timer p (spawn pollers s).1 [] := by
  obtain ⟨-, hrest, htimer, hheld, htasks⟩ := passes_spawn h pollers
  obtain ⟨t, ht, hgoes⟩ := htasks hj
  have hrun : (Task.fresh p (spawn pollers s).1 s.timer).ended = false :=
    decide_eq_false (Nat.ne_of_gt hp)
  have hbeat := hgoes.onBeat hrun s.timer (Task.onBeat_fresh p _ s.timer)
  have hrun' : t.ended = false := hgoes.ended.trans hrun
  have hlt := hrest.lt_due ht hrun'
  have hpoller : t.poller = p := hgoes.poller
  refine ⟨hrest, htimer, t, ht, ⟨hpoller, hgoes.switch, by simp [hrun'], ?_⟩,
    fun _ => ⟨htimer ▸ hbeat, hheld⟩⟩
  rw [hbeat.cycles (htimer ▸ hlt) (Nat.le_refl _), hpoller, Nat.sub_self]
  rfl

/-- Time goes on, or pollers are started: a task that runs keeps its beat, and one that has ended is
not touched. -/
theorem Follows.goOn (h : s.Follows i start p switch since) {s' : Session} {c : Control}
    (hrest' : s'.AtRest) (hpasses : s.Passes s') (htimer' : s'.timer = s.timer + c.ms)
    (hunstopped : ∀ k, s.schedule.isHeld k = true → c.stops k = false) :
    s'.Follows i start p switch (since ++ [c]) := by
  obtain ⟨-, htimer, t, ht, hkept, hrunning⟩ := h
  obtain ⟨t', ht', hgoes⟩ := hpasses.task ht
  have hnow : s'.timer = start + elapsed (since ++ [c]) := by
    rw [htimer', htimer, Control.elapsed_concat, Nat.add_assoc]
  cases hended : t.ended with
  | true =>
      obtain rfl := hgoes.halted hended
      refine ⟨hrest', hnow, t', ht', hkept.of_ended hended c, fun hrun => ?_⟩
      simp [hrun] at hended
  | false =>
      obtain ⟨hbeat, hheld⟩ := hrunning hended
      have hrun' : t'.ended = false := hgoes.ended.trans hended
      have hbeat' := hgoes.onBeat hended start hbeat
      have hpoller : t'.poller = p := hgoes.poller.trans hkept.poller_eq
      have hswitch : t'.switch = switch := hgoes.switch.trans hkept.switch_eq
      have hcycles := hbeat'.cycles (hrest'.lt_due ht' hrun') (by omega)
      rw [hnow, Nat.add_sub_cancel_left, hpoller] at hcycles
      exact ⟨hrest', hnow, t', ht', hkept.goOn hended (hunstopped switch hheld) hpoller hswitch
        hrun' hcycles, fun _ => ⟨hbeat', hpasses.held hheld⟩⟩

/-- The tasks of one switch are stopped, and the timer stands still. If the followed task is of that
switch it has ended from now on, whether it ran or not. -/
theorem Follows.stop (h : s.Follows i start p switch since) {s' : Session} {c : Control} {k : Nat}
    (hrest' : s'.AtRest) (hstops : ∀ j, c.stops j = decide (k = j)) (hms : c.ms = 0)
    (htasks : s'.schedule.tasks = (s.schedule.stop k).tasks) (htimer' : s'.timer = s.timer)
    (hheld' : ∀ j, j ≠ k → s'.schedule.isHeld j = s.schedule.isHeld j) :
    s'.Follows i start p switch (since ++ [c]) := by
  obtain ⟨-, htimer, t, ht, hkept, hrunning⟩ := h
  have helapsed : elapsed (since ++ [c]) = elapsed since := by
    rw [Control.elapsed_concat, hms, Nat.add_zero]
  have hnow : s'.timer = start + elapsed (since ++ [c]) := by rw [htimer', htimer, helapsed]
  have ht' : s'.schedule.tasks[i]?
      = some (if t.switch = k then { t with ended := true } else t) := by
    rw [htasks, Schedule.getElem?_stop, ht]
    rfl
  by_cases hk : t.switch = k
  · rw [if_pos hk] at ht'
    refine ⟨hrest', hnow, _, ht', ?_, fun hrun => nomatch hrun⟩
    cases hended : t.ended with
    | true =>
        have hsame : { t with ended := true } = t := hended ▸ rfl
        exact hsame ▸ hkept.of_ended hended c
    | false =>
        refine hkept.stop hended ?_
        rw [hstops, ← hk, hkept.switch_eq]
        exact decide_eq_true rfl
  · rw [if_neg hk] at ht'
    rw [hkept.switch_eq] at hk
    refine ⟨hrest', hnow, t, ht', ?_, fun hrun => ?_⟩
    · cases hended : t.ended with
      | true => exact hkept.of_ended hended c
      | false =>
          have hother : c.stops switch = false := by
            rw [hstops]
            exact decide_eq_false (Ne.symm hk)
          refine hkept.goOn hended hother hkept.poller_eq hkept.switch_eq hended ?_
          rw [helapsed, ← Control.uptime_of_running (hkept.running hended)]
          exact hkept.cycles
    · rw [htimer', hheld' switch hk]
      exact hrunning hrun

theorem Follows.step (h : s.Follows i start p switch since) (c : Control) :
    (c.script s).2.Follows i start p switch (since ++ [c]) := by
  obtain ⟨heffect, hrest'⟩ := Control.effect_script h.rest c
  cases heffect with
  | goesOn hpasses htimer hunstopped => exact h.goOn hrest' hpasses htimer hunstopped
  | stopped k hstops hms htasks htimer hheld => exact h.stop hrest' hstops hms htasks htimer hheld

theorem Follows.after (h : s.Follows i start p switch since) (cs : List Control) :
    (Control.after cs s).Follows i start p switch (since ++ cs) := by
  induction cs generalizing s since with
  | nil => rwa [List.append_nil]
  | cons c cs ih =>
      have hrest := ih (h.step c)
      rwa [List.append_assoc] at hrest

/-- What has ended is not touched again. -/
theorem AtRest.getElem?_after (h : s.AtRest) {t : Task} (ht : s.schedule.tasks[i]? = some t)
    (hended : t.ended = true) (cs : List Control) :
    (Control.after cs s).schedule.tasks[i]? = some t := by
  induction cs generalizing s with
  | nil => exact ht
  | cons c cs ih =>
      obtain ⟨heffect, hrest⟩ := Control.effect_script h c
      refine ih hrest ?_
      cases heffect with
      | goesOn hpasses =>
          obtain ⟨t', ht', hgoes⟩ := hpasses.task ht
          rwa [hgoes.halted hended] at ht'
      | stopped k _ _ htasks =>
          rw [htasks, Schedule.getElem?_stop, ht]
          have hsame : { t with ended := true } = t := hended ▸ rfl
          change some (if t.switch = k then { t with ended := true } else t) = some t
          rw [hsame, ite_self]

/-- As many cycles were run as the tasks count, and the listings of the step show it. -/
structure Tallied (s : Session) : Prop where
  rest : s.AtRest
  listings : s.listings = s.schedule.cycles

theorem tallied_ofSetup (setup : Setup) : (ofSetup setup).Tallied where
  rest := ⟨⟨rfl, fun ht => nomatch ht⟩, fun _ => rfl⟩
  listings := rfl

theorem Tallied.after (h : s.Tallied) (cs : List Control) : (Control.after cs s).Tallied := by
  induction cs generalizing s with
  | nil => exact h
  | cons c cs ih =>
      obtain ⟨heffect, hrest⟩ := Control.effect_script h.rest c
      refine ih ⟨hrest, ?_⟩
      cases heffect with
      | goesOn hpasses =>
          have hcycles := hpasses.cycles
          have hlistings := h.listings
          change (c.script s).2.listings = (c.script s).2.schedule.cycles
          omega
      | stopped k _ _ htasks _ _ hlistings =>
          rw [hlistings, h.listings, ← s.schedule.cycles_stop k]
          exact congrArg (fun tasks => (tasks.map Task.cycles).sum) htasks.symm

/-- **Pollers keep time and stop when they are told.** After anything that was done with pollers,
let pollers be started on a switch of their own, and let more be done: tasks be started, the timer
move, values be sent and switches be let go of, in any order. Then a task of a poller with an
interval has ended if its switch was set to stop or let go of, and else not. It has run a cycle at
once and one for each interval in the time until then. Once it has ended it never changes again. A
value that says to go on changes nothing at all. And all the cycles that are counted were run, and
no other. -/
theorem pollers_keep_time (setup : Setup) (before cs : List Control) {pollers : List Poller}
    {j : Nat} {p : Poller} (hj : pollers[j]? = some p) (hp : 0 < p.intervalMs) :
    let s := Control.after before (ofSetup setup)
    let switch := (spawn pollers s).1
    let i := s.schedule.tasks.length + j
    let s' := Control.after (.spawn pollers :: cs) s
    (∃ t, s'.schedule.tasks[i]? = some t ∧ t.Kept p switch cs)
    ∧ s'.timer = s.timer + elapsed cs
    ∧ ((∃ c ∈ cs, c.stops switch = true) → ∀ more,
      (Control.after more s').schedule.tasks[i]? = s'.schedule.tasks[i]?)
    ∧ (∀ k, ((Control.send k false).script s').2 = s')
    ∧ s'.listings = s'.schedule.cycles := by
  intro s switch i s'
  have hs := (tallied_ofSetup setup).after before
  have hfollows : s'.Follows i s.timer p switch cs := (follows_spawn hs.rest hj hp).after cs
  obtain ⟨hrest, htimer, t, ht, hkept, -⟩ := hfollows
  refine ⟨⟨t, ht, hkept⟩, htimer, fun hstops more => ?_, fun k => Control.send_false k s',
    (hs.after (.spawn pollers :: cs)).listings⟩
  rw [hrest.getElem?_after ht (hkept.ended.mpr hstops) more, ht]

/-- Time that is no multiple of an interval, another poller, which is stopped, and a value that says
to go on; then the switch is let go of. -/
def unevenDay : List Control :=
  [.advance 24, .spawn [⟨"y", ⟨none⟩, 3⟩], .send 0 false, .advance 5, .send 1 true, .drop 0,
    .advance 100]

theorem uneven_day_kept :
    let pollers : List Poller := [⟨"w", ⟨none⟩, 10⟩, ⟨"x", ⟨none⟩, 25⟩]
    let setup : Setup := ⟨none, 1, 25, false, false, none⟩
    pollers[1]? = some ⟨"x", ⟨none⟩, 25⟩ ∧ 0 < 25
      ∧ ∃ t, (Control.after (.spawn pollers :: unevenDay)
        (Control.after [.advance 7] (ofSetup setup))).schedule.tasks[1]? = some t
        ∧ t.ended = true ∧ t.cycles = 2 := by
  intro pollers setup
  have hj : pollers[1]? = some ⟨"x", ⟨none⟩, 25⟩ := rfl
  obtain ⟨⟨t, ht, hkept⟩, -⟩ := pollers_keep_time setup [.advance 7] unevenDay hj (by decide)
  have hlength : (Control.after [.advance 7] (ofSetup setup)).schedule.tasks.length + 1 = 1 := rfl
  have hswitch : (Control.after [.advance 7] (ofSetup setup)).schedule.switches.length = 0 := rfl
  rw [hlength] at ht
  rw [spawn_fst, hswitch] at hkept
  have hstops : ∃ c ∈ unevenDay, c.stops 0 = true := ⟨.drop 0, by simp [unevenDay], rfl⟩
  have hcycles : t.cycles = 1 + 29 / 25 := hkept.cycles
  exact ⟨hj, by decide, t, ht, hkept.ended.mpr hstops, hcycles⟩

end Session

end Rendezvous
