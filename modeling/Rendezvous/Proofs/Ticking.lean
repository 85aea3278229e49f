import Mathlib.Algebra.GroupWithZero.Nat
import Rendezvous.Proofs.Transcript
import Rendezvous.Session.Timers

/-!
# How time passes for the pollers of a session

All that a task does it does in turns of its loop (`Task.turn`): on a tick that is due it runs a
cycle, on a signal to leave it ends, and on any other it does nothing. What a session adds when its
timer moves or when pollers are started comes down to two things more: the timer goes on to a time
by which nothing is overdue, and a task is added. What they have in common is said once, by
`Session.Passes`, and each script is shown to be made of them. The scripts moreover leave nothing
that is due behind (`Session.AtRest`), for which it takes no more fuel than they are given.

Nobody waits in the sessions of this module, so that the pollers are all that time is for.
-/

namespace Rendezvous

/-! ## Tasks as time goes by -/

namespace Task

/-- The task began at `start` and has run a cycle at every multiple of its interval since then. Its
counter says how many, so its due time is a linear fact. -/
structure OnBeat (t : Task) (start now : Nat) : Prop where
  due : t.due = start + t.cycles * t.poller.intervalMs
  next : t.due ≤ now + t.poller.intervalMs

/-- A task that is on the beat has run at its start, and once for each interval that is over. Its
due time is linear in its count, so the quotient is found once, here. -/
theorem OnBeat.cycles {t : Task} {start now : Nat} (h : t.OnBeat start now) (hdue : now < t.due)
    (hstart : start ≤ now) : t.cycles = 1 + (now - start) / t.poller.intervalMs := by
  have hcycles := h.due
  have hnext := h.next
  cases hn : t.cycles with
  | zero => simp only [hn] at hcycles; omega
  | succ n =>
      rw [hn, Nat.add_mul, Nat.one_mul] at hcycles
      rw [Nat.add_comm]
      refine congrArg (1 + ·) (Nat.div_eq_of_lt_le ?_ ?_).symm
      · omega
      · rw [Nat.add_mul, Nat.one_mul]
        omega

def fresh (p : Poller) (switch now : Nat) : Task := ⟨p, switch, now, p.intervalMs = 0, 0⟩

theorem onBeat_fresh (p : Poller) (switch now : Nat) : (fresh p switch now).OnBeat now now where
  due := by
    change now = now + 0 * p.intervalMs
    omega
  next := Nat.le_add_right _ _

/-- What becomes of a task from the time `now` to the time `later`, while nobody stops it. A task
that has ended stays as it is. -/
structure GoesOn (t t' : Task) (now later : Nat) : Prop where
  poller : t'.poller = t.poller
  switch : t'.switch = t.switch
  ended : t'.ended = t.ended
  halted : t.ended = true → t' = t
  onBeat : t.ended = false → ∀ start, t.OnBeat start now → t'.OnBeat start later
  undue : now = later → t.isDue now = false → t' = t

theorem GoesOn.refl (t : Task) (now : Nat) : t.GoesOn t now now where
  poller := rfl
  switch := rfl
  ended := rfl
  halted _ := rfl
  onBeat _ _ h := h
  undue _ _ := rfl

theorem GoesOn.trans {t t' t'' : Task} {now later last : Nat} (h : t.GoesOn t' now later)
    (h' : t'.GoesOn t'' later last) (hnow : now ≤ later) (hlater : later ≤ last) :
    t.GoesOn t'' now last where
  poller := h'.poller.trans h.poller
  switch := h'.switch.trans h.switch
  ended := h'.ended.trans h.ended
  halted he := by
    obtain rfl := h.halted he
    exact h'.halted he
  onBeat he start hb := h'.onBeat (h.ended.trans he) start (h.onBeat he start hb)
  undue heq hdue := by
    obtain rfl : now = later := Nat.le_antisymm hnow (heq ▸ hlater)
    obtain rfl := h.undue rfl hdue
    exact h'.undue heq hdue

theorem goesOn_wait (t : Task) {now later : Nat} (h : now ≤ later) : t.GoesOn t now later where
  poller := rfl
  switch := rfl
  ended := rfl
  halted _ := rfl
  onBeat _ _ hb := ⟨hb.due, Nat.le_trans hb.next (Nat.add_le_add_right h _)⟩
  undue _ _ := rfl

theorem due_ticked {t : Task} {now : Nat} (h : t.due = now) :
    (t.ticked now).due = now + t.poller.intervalMs := by
  change t.dueAfter now = _
  rw [dueAfter, if_neg (by omega), h]

/-- It ticks when it is due. -/
theorem goesOn_ticked {t : Task} {now : Nat} (h : t.due = now) (hrun : t.ended = false) :
    t.GoesOn (t.ticked now) now now where
  poller := rfl
  switch := rfl
  ended := rfl
  halted he := absurd (hrun.symm.trans he) (by decide)
  onBeat _ start hb := by
    refine ⟨?_, Nat.le_of_eq (due_ticked h)⟩
    rw [due_ticked h]
    change now + t.poller.intervalMs = start + (t.cycles + 1) * t.poller.intervalMs
    rw [Nat.add_mul, Nat.one_mul, ← Nat.add_assoc, ← hb.due, h]
  undue _ hdue := by simp [isDue, hrun, h] at hdue

/-! ### Turns -/

theorem turn_of_due {t : Task} {now : Nat} (h : t.isDue now = true) :
    t.turn now .tick = (t.ticked now, t.poller.cycle) := by
  obtain ⟨hrun, hdue⟩ : t.ended = false ∧ t.due ≤ now := by simpa [isDue] using h
  rw [turn, if_neg (Bool.eq_false_iff.mp hrun)]
  exact if_pos hdue

/-- A value that says to go on changes nothing and has nothing done. -/
theorem turn_told_false (t : Task) (now : Nat) : t.turn now (.told false) = (t, return) :=
  ite_self _

/-- Whether the loop is left on a signal: on a value that says so, or when none can come any
more. -/
def Signal.stops : Signal → Bool
  | .tick => false
  | .told stop => stop
  | .abandoned => true

/-- A signal to leave leaves the task ended, whether it ran or not, and at the most has that
noted. -/
theorem turn_of_stops {signal : Signal} (h : signal.stops = true) (t : Task) (now : Nat) :
    (t.turn now signal).1 = { t with ended := true }
      ∧ ((t.turn now signal).2 = return ∨ ∃ e, (t.turn now signal).2 = Proc.note e) := by
  have hstops : t.turn now signal = if t.ended then (t, return)
      else ({ t with ended := true }, Proc.note t.poller.stopped) := by
    match signal, h with
    | .told true, _ => rfl
    | .abandoned, _ => rfl
  rw [hstops]
  cases hended : t.ended with
  | true =>
      have hsame : { t with ended := true } = t := hended ▸ rfl
      exact ⟨hsame.symm, .inl rfl⟩
  | false => exact ⟨rfl, .inr ⟨_, rfl⟩⟩

end Task

namespace Schedule

def cycles (s : Schedule) : Nat := (s.tasks.map (·.cycles)).sum

theorem sum_set {l : List Task} {i : Nat} {t : Task} (h : l[i]? = some t) (now : Nat) :
    ((l.set i (t.ticked now)).map (·.cycles)).sum = (l.map (·.cycles)).sum + 1 := by
  induction l generalizing i with
  | nil => cases h
  | cons u l ih =>
      cases i with
      | zero =>
          obtain rfl := Option.some.inj h
          rw [List.set_cons_zero, List.map_cons, List.map_cons, List.sum_cons, List.sum_cons,
            Nat.add_right_comm]
          rfl
      | succ i =>
          rw [List.set_cons_succ, List.map_cons, List.map_cons, List.sum_cons, List.sum_cons,
            ih h, Nat.add_assoc]

theorem cycles_ticked {s : Schedule} {i : Nat} {t : Task} (h : s.tasks[i]? = some t) (now : Nat) :
    (s.setTask i (t.ticked now)).cycles = s.cycles + 1 := sum_set h now

theorem setTask_self {s : Schedule} {i : Nat} {t : Task} (h : s.tasks[i]? = some t) :
    s.setTask i t = s := by
  obtain ⟨hi, rfl⟩ := List.getElem?_eq_some_iff.mp h
  exact congrArg (fun tasks => { s with tasks }) (List.set_getElem_self hi)

theorem isDue_iff {s : Schedule} {i : Nat} :
    s.isDue i = true ↔ ∃ t, s.tasks[i]? = some t ∧ t.isDue s.timer = true := by
  rw [isDue]
  cases s.tasks[i]? <;> simp

theorem mem_due {s : Schedule} {i : Nat} : i ∈ s.due ↔ s.isDue i = true := by
  rw [due, Sorting.mem_sort, List.mem_filter, List.mem_range, and_iff_right_iff_imp]
  intro hdue
  obtain ⟨t, ht, -⟩ := isDue_iff.mp hdue
  exact (List.getElem?_eq_some_iff.mp ht).1

/-- The next due time is that of a task that runs, and none that runs is due before. -/
theorem nextDue?_eq_some {s : Schedule} {time : Nat} (h : s.nextDue? = some time) :
    (∃ t ∈ s.tasks, t.ended = false ∧ t.due = time)
      ∧ ∀ t ∈ s.tasks, t.ended = false → time ≤ t.due := by
  obtain ⟨hm, hle⟩ := List.min?_eq_some_iff.mp h
  simp only [List.mem_map, List.mem_filter, Bool.not_eq_true'] at hm hle
  obtain ⟨t, ⟨ht, hrun⟩, htime⟩ := hm
  exact ⟨⟨t, ht, hrun, htime⟩, fun u hu hrun' => hle u.due ⟨u, ⟨hu, hrun'⟩, rfl⟩⟩

theorem nextDue?_eq_none {s : Schedule} (h : s.nextDue? = none) :
    ∀ t ∈ s.tasks, t.ended = true := by
  intro t ht
  have hnil := List.map_eq_nil_iff.mp (List.min?_eq_none_iff.mp h)
  simpa using List.filter_eq_nil_iff.mp hnil t ht

theorem isHeld_newSwitch (s : Schedule) (k : Nat) :
    s.newSwitch.2.isHeld k = true ↔ k = s.switches.length ∨ s.isHeld k = true := by
  change ((s.switches ++ [true])[k]?).getD false = true
    ↔ k = s.switches.length ∨ (s.switches[k]?).getD false = true
  rcases Nat.lt_trichotomy k s.switches.length with hlt | rfl | hgt
  · rw [List.getElem?_append_left hlt]
    simp [Nat.ne_of_lt hlt]
  · simp
  · have hout : (s.switches ++ [true]).length ≤ k := by simpa using Nat.succ_le_of_lt hgt
    rw [List.getElem?_eq_none hout, List.getElem?_eq_none (Nat.le_of_lt hgt)]
    simp [Nat.ne_of_gt hgt]

/-- A task that is started comes last. -/
theorem getElem?_start (s : Schedule) (p : Poller) (switch i : Nat) :
    (s.start p switch).tasks[i]?
      = if i = s.tasks.length then some (.fresh p switch s.timer) else s.tasks[i]? := by
  change (s.tasks ++ [Task.fresh p switch s.timer])[i]? = _
  split
  · subst i
    exact List.getElem?_concat_length
  · rcases Nat.lt_or_gt_of_ne ‹_› with hlt | hgt
    · exact List.getElem?_append_left hlt
    · rw [List.getElem?_eq_none (by simpa using Nat.succ_le_of_lt hgt),
        List.getElem?_eq_none (Nat.le_of_lt hgt)]

/-- The schedule with all tasks of the switch ended, which is what their turns come to when they are
told to stop. -/
def stop (s : Schedule) (switch : Nat) : Schedule :=
  { s with tasks := s.tasks.map fun t => if t.switch = switch then { t with ended := true } else t }

theorem getElem?_stop (s : Schedule) (switch i : Nat) : (s.stop switch).tasks[i]?
    = (s.tasks[i]?).map fun t => if t.switch = switch then { t with ended := true } else t :=
  List.getElem?_map

theorem cycles_stop (s : Schedule) (switch : Nat) : (s.stop switch).cycles = s.cycles := by
  rw [cycles, stop, List.map_map]
  refine congrArg List.sum (List.map_congr_left fun t _ => ?_)
  change (if t.switch = switch then { t with ended := true } else t : Task).cycles = t.cycles
  split <;> rfl

theorem isHeld_release (s : Schedule) {k switch : Nat} (h : k ≠ switch) :
    (s.release switch).isHeld k = s.isHeld k := by
  change ((s.switches.set switch false)[k]?).getD false = (s.switches[k]?).getD false
  rw [List.getElem?_set_ne (Ne.symm h)]

theorem getElem?_setTask {s : Schedule} {i : Nat} {t u : Task} (h : s.tasks[i]? = some t)
    (j : Nat) : (s.setTask i u).tasks[j]? = if i = j then some u else s.tasks[j]? := by
  change (s.tasks.set i u)[j]? = _
  rw [List.getElem?_set]
  split
  · rw [if_pos (List.getElem?_eq_some_iff.mp h).1]
  · rfl

theorem mem_ofSwitch {s : Schedule} {switch i : Nat} :
    i ∈ s.ofSwitch switch ↔ ∃ t, s.tasks[i]? = some t ∧ t.switch = switch := by
  rw [ofSwitch, List.mem_filter, List.mem_range]
  cases h : s.tasks[i]? with
  | none => simp
  | some t => simp [(List.getElem?_eq_some_iff.mp h).1]

end Schedule

namespace Session

/-! ## As time goes by -/

/-- Nobody waits, and of the tasks that run none is overdue. Time that goes by step by step leaves a
session so. -/
structure Orderly (s : Session) : Prop where
  quiet : s.waits = []
  punctual : ∀ {i : Nat} {t : Task}, s.schedule.tasks[i]? = some t → t.ended = false →
    0 < t.poller.intervalMs ∧ s.timer ≤ t.due

/-- What happens from `s` to `t` as time goes by and tasks are added. Nothing else is done, and the
waits are listed once for each cycle. -/
structure Passes (s t : Session) : Prop where
  orderly : t.Orderly
  timer : s.timer ≤ t.timer
  held : ∀ {k : Nat}, s.schedule.isHeld k = true → t.schedule.isHeld k = true
  task : ∀ {i : Nat} {u : Task}, s.schedule.tasks[i]? = some u →
    ∃ u', t.schedule.tasks[i]? = some u' ∧ u.GoesOn u' s.timer t.timer
  cycles : t.listings + s.schedule.cycles = s.listings + t.schedule.cycles

variable {s t u : Session}

theorem Passes.refl (h : s.Orderly) : s.Passes s where
  orderly := h
  timer := Nat.le_refl _
  held hk := hk
  task hu := ⟨_, hu, .refl _ _⟩
  cycles := rfl

theorem Passes.trans (h : s.Passes t) (h' : t.Passes u) : s.Passes u where
  orderly := h'.orderly
  timer := Nat.le_trans h.timer h'.timer
  held hk := h'.held (h.held hk)
  task hu := by
    obtain ⟨v, hv, hgoes⟩ := h.task hu
    obtain ⟨w, hw, hgoes'⟩ := h'.task hv
    exact ⟨w, hw, hgoes.trans hgoes' h.timer h'.timer⟩
  cycles := by
    have h₁ := h.cycles
    have h₂ := h'.cycles
    omega

/-- What happens while the timer stands still and no task is added, as when a task takes its
turn. -/
structure Turns (s t : Session) : Prop extends s.Passes t where
  still : t.timer = s.timer
  length : t.schedule.tasks.length = s.schedule.tasks.length

theorem Turns.refl (h : s.Orderly) : s.Turns s := ⟨.refl h, rfl, rfl⟩

theorem Turns.trans (h : s.Turns t) (h' : t.Turns u) : s.Turns u :=
  ⟨h.toPasses.trans h'.toPasses, h'.still.trans h.still, h'.length.trans h.length⟩

/-- What is not due does not become due. -/
theorem Turns.not_due (h : s.Turns t) {i : Nat} (hdue : s.schedule.isDue i = false) :
    t.schedule.isDue i = false := by
  rw [Schedule.isDue] at hdue ⊢
  cases hu : s.schedule.tasks[i]? with
  | none =>
      have hlength := List.getElem?_eq_none_iff.mp hu
      rw [List.getElem?_eq_none_iff.mpr (h.length ▸ hlength)]
      rfl
  | some u =>
      obtain ⟨u', hu', hgoes⟩ := h.task hu
      rw [hu] at hdue
      obtain rfl := hgoes.undue h.still.symm hdue
      rw [hu']
      change u'.isDue t.timer = false
      rw [h.still]
      exact hdue

/-! ## Single steps -/

/-- A turn: the task goes on as its loop says, and what it does is run in the session. Nothing else
is done to the schedule. -/
theorem takeTurn_eq {i : Nat} {t : Task} (ht : s.schedule.tasks[i]? = some t)
    (signal : Task.Signal) : (takeTurn signal i s).2 = (Script.run (t.turn s.timer signal).2
      { s with schedule := s.schedule.setTask i (t.turn s.timer signal).1 }).2 := by
  simp only [takeTurn, bind, StateT.bind, get, getThe, MonadStateOf.get, StateT.get, pure, ht]
  rfl

theorem takeTurn_of_none {i : Nat} (ht : s.schedule.tasks[i]? = none) (signal : Task.Signal) :
    (takeTurn signal i s).2 = s := by
  simp only [takeTurn, bind, StateT.bind, get, getThe, MonadStateOf.get, StateT.get, pure, ht]
  rfl

/-- A task that is due runs a cycle, and with that it is no longer due. -/
theorem turns_cycle (h : s.Orderly) {i : Nat} {t : Task} (ht : s.schedule.tasks[i]? = some t)
    (hdue : t.isDue s.timer = true) :
    let s' := (takeTurn .tick i s).2
    s.Turns s' ∧ s'.schedule.isDue i = false := by
  intro s'
  let ticked : Session := { s with schedule := s.schedule.setTask i (t.ticked s.timer) }
  have hs' : s' = (Script.run t.poller.cycle ticked).2 := by
    change (takeTurn .tick i s).2 = _
    rw [takeTurn_eq ht, Task.turn_of_due hdue]
  obtain ⟨hschedule, hwaits⟩ : s'.schedule = s.schedule.setTask i (t.ticked s.timer)
      ∧ s'.waits = s.waits := hs' ▸ run_keeps t.poller.cycle ticked
  have htimer : s'.timer = (s.schedule.setTask i (t.ticked s.timer)).timer :=
    congrArg Schedule.timer hschedule
  change s'.timer = s.timer at htimer
  have hrun : t.ended = false ∧ t.due ≤ s.timer := by simpa [Task.isDue] using hdue
  obtain ⟨hpos, hpunctual⟩ := h.punctual ht hrun.1
  have hnow : t.due = s.timer := Nat.le_antisymm hrun.2 hpunctual
  have htask : s'.schedule.tasks[i]? = some (t.ticked s.timer) := by
    rw [hschedule, Schedule.getElem?_setTask ht, if_pos rfl]
  have hother : ∀ {j}, j ≠ i → s'.schedule.tasks[j]? = s.schedule.tasks[j]? := by
    intro j hj
    rw [hschedule, Schedule.getElem?_setTask ht, if_neg (Ne.symm hj)]
  have hlength : s'.schedule.tasks.length = s.schedule.tasks.length := by
    rw [hschedule]
    exact List.length_set
  refine ⟨⟨⟨⟨hwaits.trans h.quiet, fun {j u} hu hu' => ?punctual⟩, Nat.le_of_eq htimer.symm,
    fun hk => hschedule ▸ hk, fun {j u} hu => ?task, ?cycles⟩, htimer, hlength⟩, ?done⟩
  case punctual =>
    rw [htimer]
    by_cases hj : j = i
    · subst hj
      obtain rfl := Option.some.inj (htask.symm.trans hu)
      refine ⟨hpos, ?_⟩
      rw [Task.due_ticked hnow]
      exact Nat.le_add_right _ _
    · exact h.punctual ((hother hj).symm.trans hu) hu'
  case task =>
    rw [htimer]
    by_cases hj : j = i
    · subst hj
      obtain rfl := Option.some.inj (ht.symm.trans hu)
      exact ⟨_, htask, Task.goesOn_ticked hnow hrun.1⟩
    · exact ⟨u, (hother hj).trans hu, .refl _ _⟩
  case cycles =>
    have hlistings : s'.listings = s.listings + 1 := hs' ▸ listings_cycle t.poller ticked
    rw [hlistings, hschedule, Schedule.cycles_ticked ht s.timer]
    omega
  case done =>
    rw [Schedule.isDue, htask]
    change (t.ticked s.timer).isDue s'.timer = false
    rw [Task.isDue, htimer, Task.due_ticked hnow, decide_eq_false (by omega), Bool.and_false]

/-- The timer goes on to a time by which no task is overdue. -/
theorem passes_setTimer (h : s.Orderly) {time : Nat} (htime : s.timer ≤ time)
    (hdue : ∀ {i : Nat} {t : Task}, s.schedule.tasks[i]? = some t → t.ended = false →
      time ≤ t.due) :
    s.Passes (setTimer time s).2 ∧ (setTimer time s).2.timer = time := by
  have hmax : (setTimer time s).2.timer = time := Nat.max_eq_right htime
  refine ⟨⟨⟨h.quiet, fun ht ht' => ?_⟩, ?_, id, fun ht => ?_, rfl⟩, hmax⟩
  · rw [hmax]
    exact ⟨(h.punctual ht ht').1, hdue ht ht'⟩
  · rwa [hmax]
  · rw [hmax]
    exact ⟨_, ht, Task.goesOn_wait _ htime⟩

theorem settle_of_quiet (h : s.waits = []) : (settle s).2 = s := by
  change (settleAll (List.range s.waits.length) s).2 = s
  rw [h]
  rfl

/-! ## Running what is due -/

/-- Nothing is due at this time; all that was due has happened. -/
structure AtRest (s : Session) : Prop extends s.Orderly where
  rested : ∀ i, s.schedule.isDue i = false

theorem runTask_succ (i fuel : Nat) (s : Session) : (runTask i (fuel + 1) s).2
    = if s.schedule.isDue i then (runTask i fuel (takeTurn .tick i s).2).2 else s := by
  have hrun : runTask i (fuel + 1) s = (if s.schedule.isDue i then do
      takeTurn .tick i
      runTask i fuel
    else pure () : Script Unit) s := rfl
  rw [hrun]
  split <;> rfl

theorem runTask_of_not_due {i : Nat} (hdue : s.schedule.isDue i = false) :
    ∀ fuel, (runTask i fuel s).2 = s
  | 0 => rfl
  | fuel + 1 => by rw [runTask_succ, if_neg (Bool.eq_false_iff.mp hdue)]

/-- One cycle at the most is due, as no task is overdue. The fuel is never needed for more. -/
theorem turns_runTask (h : s.Orderly) (i : Nat) : s.Turns (runTask i ticksAtOnce s).2
    ∧ (runTask i ticksAtOnce s).2.schedule.isDue i = false := by
  cases hdue : s.schedule.isDue i with
  | false =>
      rw [runTask_of_not_due hdue]
      exact ⟨.refl h, hdue⟩
  | true =>
      obtain ⟨t, ht, hdue⟩ := Schedule.isDue_iff.mp hdue
      obtain ⟨hturns, hdone⟩ := turns_cycle h ht hdue
      rw [ticksAtOnce, runTask_succ, if_pos (Schedule.isDue_iff.mpr ⟨t, ht, hdue⟩),
        runTask_of_not_due hdone]
      exact ⟨hturns, hdone⟩

theorem turns_runTasks : ∀ (l : List Nat) {s : Session}, s.Orderly →
    s.Turns (runTasks l s).2 ∧ ∀ i ∈ l, (runTasks l s).2.schedule.isDue i = false
  | [], s, h => ⟨.refl h, fun _ hi => nomatch hi⟩
  | i :: rest, s, h => by
      obtain ⟨hturns, hdone⟩ := turns_runTask h i
      obtain ⟨hturns', hdone'⟩ := turns_runTasks rest hturns.orderly
      refine ⟨hturns.trans hturns', fun j hj => ?_⟩
      rcases List.mem_cons.mp hj with rfl | hj
      · exact hturns'.not_due hdone
      · exact hdone' j hj

theorem turns_runDue (h : s.Orderly) : s.Turns (runDue s).2 ∧ (runDue s).2.AtRest := by
  obtain ⟨hturns, hdone⟩ := turns_runTasks s.schedule.due h
  refine ⟨hturns, hturns.orderly, fun i => ?_⟩
  cases hdue : s.schedule.isDue i with
  | true => exact hdone i (Schedule.mem_due.mpr hdue)
  | false => exact hturns.not_due hdue

/-! ## Moving the timer -/

/-- The tasks that run are next due later. -/
theorem AtRest.lt_due (h : s.AtRest) {i : Nat} {t : Task} (ht : s.schedule.tasks[i]? = some t)
    (hrun : t.ended = false) : s.timer < t.due := by
  have hdue := h.rested i
  rw [Schedule.isDue, ht] at hdue
  change t.isDue s.timer = false at hdue
  simpa [Task.isDue, hrun] using hdue

theorem nextTime?_of_quiet (h : s.waits = []) : s.nextTime? = s.schedule.nextDue? := by
  rw [nextTime?, h]
  cases s.schedule.nextDue? with
  | none => rfl
  | some time => exact List.min?_singleton

theorem snd_seq (m n : Script Unit) (s : Session) : ((do m; n) s).2 = (n (m s).2).2 := rfl

theorem arrive_eq (time : Nat) (s : Session) : (arrive time s).2
    = (settle (runDue (settle (setTimer time s).2).2).2).2 := by
  rw [arrive, snd_seq, snd_seq, snd_seq]

theorem passes_arrive (h : s.Orderly) {time : Nat} (htime : s.timer ≤ time)
    (hdue : ∀ {i : Nat} {t : Task}, s.schedule.tasks[i]? = some t → t.ended = false →
      time ≤ t.due) :
    s.Passes (arrive time s).2 ∧ (arrive time s).2.timer = time ∧ (arrive time s).2.AtRest := by
  obtain ⟨hpasses, htimer⟩ := passes_setTimer h htime hdue
  obtain ⟨hturns, hrest⟩ := turns_runDue hpasses.orderly
  rw [arrive_eq, settle_of_quiet hpasses.orderly.quiet, settle_of_quiet hrest.quiet]
  exact ⟨hpasses.trans hturns.toPasses, hturns.still.trans htimer, hrest⟩

theorem passThrough_succ (last fuel : Nat) (s : Session) :
    passThrough last (fun _ => false) (fuel + 1) s = (match s.nextTime? with
      | some time => if time ≤ last then do
          arrive time
          passThrough last (fun _ => false) fuel
        else pure ()
      | none => pure () : Script Unit) s := rfl

theorem passThrough_arrive {last time : Nat} (hnext : s.nextTime? = some time)
    (htime : time ≤ last) (fuel : Nat) : (passThrough last (fun _ => false) (fuel + 1) s).2
      = (passThrough last (fun _ => false) fuel (arrive time s).2).2 := by
  rw [passThrough_succ, hnext]
  dsimp only
  rw [if_pos htime]
  exact snd_seq (arrive time) (passThrough last (fun _ => false) fuel) s

theorem passThrough_of_later {last : Nat} (hnext : ∀ time, s.nextTime? = some time → last < time) :
    ∀ fuel, (passThrough last (fun _ => false) fuel s).2 = s
  | 0 => rfl
  | fuel + 1 => by
      rw [passThrough_succ]
      cases htime : s.nextTime? with
      | none => rfl
      | some time =>
          dsimp only
          rw [if_neg (Nat.not_le.mpr (hnext time htime))]
          rfl

/-- What is due up to `last` is run. Each due time is later than the one before, so that the fuel
is enough. -/
theorem passes_passThrough {last : Nat} : ∀ (fuel : Nat) {s : Session}, s.AtRest →
    s.timer ≤ last → last < s.timer + fuel →
    ∃ s', (passThrough last (fun _ => false) fuel s).2 = s' ∧ s.Passes s' ∧ s'.AtRest
      ∧ s'.timer ≤ last ∧ ∀ t ∈ s'.schedule.tasks, t.ended = false → last < t.due
  | 0, s, _, hlast, hfuel => by omega
  | fuel + 1, s, h, hlast, hfuel => by
      by_cases hnext : ∃ time, s.schedule.nextDue? = some time ∧ time ≤ last
      · obtain ⟨time, hnext, htime⟩ := hnext
        obtain ⟨⟨t, ht, hrun, hdue⟩, hle⟩ := Schedule.nextDue?_eq_some hnext
        obtain ⟨i, hi⟩ := List.getElem?_of_mem ht
        have hlt : s.timer < time := hdue ▸ h.lt_due hi hrun
        obtain ⟨hpasses, htimer, hrest⟩ := passes_arrive h.toOrderly (Nat.le_of_lt hlt)
          fun hu hrun' => hle _ (List.mem_of_getElem? hu) hrun'
        rw [passThrough_arrive ((nextTime?_of_quiet h.quiet).trans hnext) htime]
        obtain ⟨s', heq, hpasses', hend⟩ :=
          passes_passThrough fuel hrest (htimer ▸ htime) (by omega)
        exact ⟨s', heq, hpasses.trans hpasses', hend⟩
      · have hlater : ∀ time, s.nextTime? = some time → last < time := by
          intro time htime
          rw [nextTime?_of_quiet h.quiet] at htime
          exact Nat.lt_of_not_le fun hle => hnext ⟨time, htime, hle⟩
        refine ⟨s, passThrough_of_later hlater _, .refl h.toOrderly, h, hlast, fun t ht hrun => ?_⟩
        cases hdue : s.schedule.nextDue? with
        | none =>
            rw [Schedule.nextDue?_eq_none hdue t ht] at hrun
            cases hrun
        | some time =>
            have hle := (Schedule.nextDue?_eq_some hdue).2 t ht hrun
            exact Nat.lt_of_lt_of_le (hlater time ((nextTime?_of_quiet h.quiet).trans hdue)) hle

theorem passes_advanceTo (h : s.AtRest) {last : Nat} (hlast : s.timer ≤ last) :
    s.Passes (advanceTo last s).2 ∧ (advanceTo last s).2.AtRest
      ∧ (advanceTo last s).2.timer = last := by
  obtain ⟨s', heq, hpasses, hrest, hle, hdue⟩ :=
    passes_passThrough (last + 1 - s.timer) h hlast (by omega)
  obtain ⟨hset, htimer⟩ := passes_setTimer hrest.toOrderly hle
    fun ht hrun => Nat.le_of_lt (hdue _ (List.mem_of_getElem? ht) hrun)
  have hadvance : (advanceTo last s).2 = (setTimer last s').2 := heq ▸ rfl
  rw [hadvance]
  refine ⟨hpasses.trans hset, ⟨hset.orderly, fun i => ?_⟩, htimer⟩
  rw [Bool.eq_false_iff]
  intro hisDue
  obtain ⟨t, ht, hisDue⟩ := Schedule.isDue_iff.mp hisDue
  simp only [Task.isDue, Bool.and_eq_true, Bool.not_eq_true', decide_eq_true_eq] at hisDue
  have hlt := hdue t (List.mem_of_getElem? ht) hisDue.1
  change (setTimer last s').2.schedule.timer = last at htimer
  omega

/-! ## Starting pollers -/

def withTask (s : Session) (p : Poller) (switch : Nat) : Session :=
  { s with schedule := s.schedule.start p switch, log := p.started :: s.log }

theorem passes_withTask (h : s.Orderly) (p : Poller) (switch : Nat) :
    s.Passes (s.withTask p switch) := by
  refine ⟨⟨h.quiet, fun {i t} ht hrun => ?punctual⟩, Nat.le_refl _, id, fun {i u} hu => ?task,
    ?cycles⟩
  case punctual =>
    rw [withTask, Schedule.getElem?_start] at ht
    split at ht
    · obtain rfl := Option.some.inj ht
      exact ⟨Nat.pos_of_ne_zero (of_decide_eq_false hrun), Nat.le_refl _⟩
    · exact h.punctual ht hrun
  case task =>
    have hi := (List.getElem?_eq_some_iff.mp hu).1
    refine ⟨u, ?_, .refl _ _⟩
    rw [withTask, Schedule.getElem?_start, if_neg (Nat.ne_of_lt hi), hu]
  case cycles =>
    change s.listings + s.schedule.cycles
      = s.listings + ((s.schedule.tasks ++ [Task.fresh p switch s.timer]).map (·.cycles)).sum
    rw [List.map_append, List.sum_append]
    rfl

/-- Started when all is at rest, a poller runs its first cycle. -/
theorem rest_withTask (h : s.AtRest) (p : Poller) (switch : Nat) :
    let s' := (runTask s.schedule.tasks.length ticksAtOnce (s.withTask p switch)).2
    s.Passes s' ∧ s'.AtRest ∧ s'.timer = s.timer
      ∧ s'.schedule.tasks.length = s.schedule.tasks.length + 1
      ∧ ∃ t, s'.schedule.tasks[s.schedule.tasks.length]? = some t
        ∧ (Task.fresh p switch s.timer).GoesOn t s.timer s.timer := by
  intro s'
  have hstart := passes_withTask h.toOrderly p switch
  obtain ⟨hturns, hdone⟩ := turns_runTask hstart.orderly s.schedule.tasks.length
  refine ⟨hstart.trans hturns.toPasses, ⟨hturns.orderly, fun i => ?rest⟩, hturns.still,
    hturns.length.trans List.length_append, ?task⟩
  case rest =>
    by_cases hi : i = s.schedule.tasks.length
    · exact hi ▸ hdone
    · refine hturns.not_due ?_
      have hsame := h.rested i
      rw [Schedule.isDue] at hsame ⊢
      rw [withTask, Schedule.getElem?_start, if_neg hi]
      exact hsame
  case task =>
    have htask : (s.withTask p switch).schedule.tasks[s.schedule.tasks.length]?
        = some (.fresh p switch s.timer) :=
      (s.schedule.getElem?_start p switch _).trans (if_pos rfl)
    obtain ⟨t, ht, hgoes⟩ := hturns.task htask
    rw [hturns.still] at hgoes
    exact ⟨t, ht, hgoes⟩

/-- The tasks of `pollers` follow those that are there, each one having run a cycle, by induction on
the pollers. -/
theorem passes_startAll (switch : Nat) : ∀ (pollers : List Poller) {s : Session}, s.AtRest →
    let s' := (startAll switch pollers s).2
    s.Passes s' ∧ s'.AtRest ∧ s'.timer = s.timer ∧ ∀ {j : Nat} {p : Poller}, pollers[j]? = some p →
      ∃ t, s'.schedule.tasks[s.schedule.tasks.length + j]? = some t
        ∧ (Task.fresh p switch s.timer).GoesOn t s.timer s.timer
  | [], s, h => ⟨.refl h.toOrderly, h, rfl, fun hj => nomatch hj⟩
  | p :: rest, s, h => by
      obtain ⟨hpasses, hrest, htimer, hlength, htask⟩ := rest_withTask h p switch
      obtain ⟨hpasses', hrest', htimer', htasks⟩ := passes_startAll switch rest hrest
      refine ⟨hpasses.trans hpasses', hrest', htimer'.trans htimer, fun {j q} hj => ?_⟩
      cases j with
      | zero =>
          obtain rfl := Option.some.inj hj
          obtain ⟨t, ht, hgoes⟩ := htask
          obtain ⟨t', ht', hgoes'⟩ := hpasses'.task ht
          rw [htimer', htimer] at hgoes'
          exact ⟨t', ht', hgoes.trans hgoes' (Nat.le_refl _) (Nat.le_refl _)⟩
      | succ j =>
          obtain ⟨t, ht, hgoes⟩ := htasks hj
          rw [hlength, Nat.add_assoc, Nat.add_comm 1] at ht
          rw [htimer] at hgoes
          exact ⟨t, ht, hgoes⟩

/-- The pollers get a switch of their own. -/
theorem passes_spawn (h : s.AtRest) (pollers : List Poller) :
    let (switch, s') := spawn pollers s
    s.Passes s' ∧ s'.AtRest ∧ s'.timer = s.timer ∧ s'.schedule.isHeld switch = true
      ∧ ∀ {j : Nat} {p : Poller}, pollers[j]? = some p →
        ∃ t, s'.schedule.tasks[s.schedule.tasks.length + j]? = some t
          ∧ (Task.fresh p switch s.timer).GoesOn t s.timer s.timer := by
  let switched : Session := { s with schedule := s.schedule.newSwitch.2 }
  have hheld := s.schedule.isHeld_newSwitch
  have hpasses : s.Passes switched := ⟨⟨h.quiet, h.punctual⟩, Nat.le_refl _,
    fun hk => (hheld _).mpr (.inr hk), fun hu => ⟨_, hu, .refl _ _⟩, rfl⟩
  have hrest : switched.AtRest := ⟨hpasses.orderly, h.rested⟩
  obtain ⟨hpasses', hrest', htimer, htasks⟩ :=
    passes_startAll s.schedule.switches.length pollers hrest
  exact ⟨hpasses.trans hpasses', hrest', htimer, hpasses'.held ((hheld _).mpr (.inl rfl)), htasks⟩

/-! ## Stopping pollers -/

theorem takeTurn_stop {signal : Task.Signal} (h : signal.stops = true) {i : Nat} {t : Task}
    (ht : s.schedule.tasks[i]? = some t) : ∃ log, (takeTurn signal i s).2
      = { s with schedule := s.schedule.setTask i { t with ended := true }, log } := by
  obtain ⟨hended, hwork⟩ := Task.turn_of_stops h t s.timer
  rw [takeTurn_eq ht, hended]
  rcases hwork with hwork | ⟨e, hwork⟩
  · rw [hwork]
    exact ⟨_, rfl⟩
  · rw [hwork]
    exact ⟨_, rfl⟩

/-- Each of the tasks that take a turn on a signal to leave has ended, and nothing else changes. -/
theorem takeTurns_stop {signal : Task.Signal} (h : signal.stops = true) :
    ∀ (l : List Nat) {s : Session}, (∀ i ∈ l, i < s.schedule.tasks.length) →
      ∃ tasks log, (takeTurns signal l s).2 = { s with schedule := { s.schedule with tasks }, log }
        ∧ ∀ j, tasks[j]? = (s.schedule.tasks[j]?).map fun t =>
          if j ∈ l then { t with ended := true } else t
  | [], s, _ => by
      refine ⟨s.schedule.tasks, s.log, rfl, fun j => ?_⟩
      cases s.schedule.tasks[j]? <;> rfl
  | i :: rest, s, hlt => by
      obtain ⟨t, ht⟩ : ∃ t, s.schedule.tasks[i]? = some t :=
        ⟨_, List.getElem?_eq_getElem (hlt i List.mem_cons_self)⟩
      obtain ⟨log, hturn⟩ := takeTurn_stop h ht
      have hlt' : ∀ j ∈ rest,
          j < (s.schedule.setTask i { t with ended := true }).tasks.length := by
        intro j hj
        exact (List.length_set ..).symm ▸ hlt j (List.mem_cons_of_mem _ hj)
      obtain ⟨tasks, log', hturns, htasks⟩ := takeTurns_stop h rest
        (s := { s with schedule := s.schedule.setTask i { t with ended := true }, log }) hlt'
      refine ⟨tasks, log', ?_, fun j => ?_⟩
      · rw [takeTurns, snd_seq, hturn, hturns]
        rfl
      · rw [htasks j, Schedule.getElem?_setTask ht]
        by_cases hj : i = j
        · subst hj
          simp [ht]
        · simp [hj, Ne.symm hj]

/-- The tasks of a switch end when they are told to. -/
theorem tell_stop {signal : Task.Signal} (h : signal.stops = true) (switch : Nat) (s : Session) :
    ∃ log, (tell switch signal s).2 = { s with schedule := s.schedule.stop switch, log } := by
  have hlt : ∀ i ∈ s.schedule.ofSwitch switch, i < s.schedule.tasks.length := by
    intro i hi
    obtain ⟨t, ht, -⟩ := Schedule.mem_ofSwitch.mp hi
    exact (List.getElem?_eq_some_iff.mp ht).1
  obtain ⟨tasks, log, hturns, htasks⟩ := takeTurns_stop h _ hlt
  have hstop : tasks = (s.schedule.stop switch).tasks := by
    refine List.ext_getElem? fun j => ?_
    rw [htasks, Schedule.getElem?_stop]
    cases ht : s.schedule.tasks[j]? with
    | none => rfl
    | some t =>
        have hmem : j ∈ s.schedule.ofSwitch switch ↔ t.switch = switch := by
          rw [Schedule.mem_ofSwitch, ht]
          simp
        simp only [Option.map_some, hmem]
  refine ⟨log, ?_⟩
  change (takeTurns signal (s.schedule.ofSwitch switch) s).2 = _
  rw [hturns, hstop]
  rfl

/-- A value that says to go on changes nothing at all. -/
theorem takeTurns_told_false : ∀ (l : List Nat) (s : Session),
    (takeTurns (.told false) l s).2 = s
  | [], _ => rfl
  | i :: rest, s => by
      have hturn : (takeTurn (.told false) i s).2 = s := by
        cases ht : s.schedule.tasks[i]? with
        | none => exact takeTurn_of_none ht _
        | some t =>
            rw [takeTurn_eq ht, Task.turn_told_false, Schedule.setTask_self ht]
            rfl
      rw [takeTurns, snd_seq, hturn, takeTurns_told_false rest s]

theorem tell_told_false (switch : Nat) (s : Session) : (tell switch (.told false) s).2 = s :=
  takeTurns_told_false _ s

/-- Where nothing is due, nothing is due among fewer tasks. -/
theorem AtRest.stop (h : s.AtRest) (switch : Nat) (log : List LogEntry) :
    { s with schedule := s.schedule.stop switch, log : Session }.AtRest := by
  have hrun : ∀ {i : Nat} {t : Task}, (s.schedule.stop switch).tasks[i]? = some t →
      t.ended = false → s.schedule.tasks[i]? = some t := by
    intro i t ht hrun
    rw [Schedule.getElem?_stop, Option.map_eq_some_iff] at ht
    obtain ⟨u, hu, rfl⟩ := ht
    split at hrun
    · cases hrun
    · rw [if_neg ‹_›, hu]
  refine ⟨⟨h.quiet, fun ht he => h.punctual (hrun ht he) he⟩, fun i => ?_⟩
  refine Bool.eq_false_iff.mpr fun hdue => ?_
  obtain ⟨t, ht, hdue⟩ := Schedule.isDue_iff.mp hdue
  have he : t.ended = false := by
    rw [Task.isDue, Bool.and_eq_true] at hdue
    simpa using hdue.1
  exact absurd (Schedule.isDue_iff.mpr ⟨t, hrun ht he, hdue⟩) (by rw [h.rested i]; decide)

end Session

end Rendezvous
