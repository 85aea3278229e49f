import Mathlib.Data.List.Induction
import Mathlib.Data.List.Nodup
import Rendezvous.Bus

/-!
# Subscribers that change their bus

A subscriber may subscribe others while it handles an event and end subscriptions, its own among
them, and it may fail or crash at any point of this. The bus walks through the subscribers of the
moment an event was published, so none of that has a say in who is called.

`Scene` is a bus with a diary of all that happened at it. What a subscriber does next may depend on
the whole diary, and a claim about subscriptions is one about the diary: `standing` reads off it who
should be subscribed. `Play.Runs` says of a procedure what it adds to the diary, and it says
that the bus and its diary agree afterwards if they did before. From this follows what a run of
subscriptions and publications comes to (`snapshot_delivery`).
-/

namespace Rendezvous

/-- What a subscriber does with an event: it changes the bus as often as it likes, each time by what
it was answered before, and is done. -/
inductive Reaction (κ : Type)
  | finish (delivery : Delivery)
  | subscribe (c : κ) (next : Subscription → Reaction κ)
  | unsubscribe (id : Subscription) (next : Bool → Reaction κ)

namespace Bus

variable {κ α β : Type}

/-! ## The diary of a bus -/

/-- What can happen at a bus. A delivery is seen as the calls to its subscribers and their ends,
with what they do in between. -/
inductive Incident (κ : Type)
  | subscribed (id : Subscription) (c : κ)
  /-- A subscription was to end, and whether there was one. -/
  | unsubscribed (id : Subscription) (found : Bool)
  | published (e : Record)
  | called (c : κ) (e : Record)
  | returned (delivery : Delivery)
  | counted (r : PublishCount)

/-- Something that happened, and who was subscribed after it. The diary of a bus is made of such
pages. -/
structure Page (κ : Type) where
  incident : Incident κ
  subscribers : List (Subscription × κ)

def Page.made? (p : Page κ) : Option (Subscription × κ) :=
  match p.incident with
  | .subscribed id c => some (id, c)
  | _ => none

def Page.removed? (p : Page κ) : Option Subscription :=
  match p.incident with
  | .unsubscribed id true => some id
  | _ => none

def Page.called? (p : Page κ) : Option (κ × Record) :=
  match p.incident with
  | .called c e => some (c, e)
  | _ => none

def Page.returned? (p : Page κ) : Option Delivery :=
  match p.incident with
  | .returned delivery => some delivery
  | _ => none

/-- The subscriptions made, the first one first, whether they have ended or not. -/
def made (pages : List (Page κ)) : List (Subscription × κ) := pages.filterMap Page.made?

def removed (pages : List (Page κ)) : List Subscription := pages.filterMap Page.removed?

def called (pages : List (Page κ)) : List (κ × Record) := pages.filterMap Page.called?

def returned (pages : List (Page κ)) : List Delivery := pages.filterMap Page.returned?

/-- The subscriptions made and not yet ended, in the order they were made. This is who should be
subscribed. -/
def standing (pages : List (Page κ)) : List (Subscription × κ) :=
  (made pages).filter fun m => m.1 ∉ removed pages

@[simp] theorem made_append (l l' : List (Page κ)) : made (l ++ l') = made l ++ made l' :=
  List.filterMap_append ..

@[simp] theorem removed_append (l l' : List (Page κ)) :
    removed (l ++ l') = removed l ++ removed l' := List.filterMap_append ..

@[simp] theorem called_append (l l' : List (Page κ)) : called (l ++ l') = called l ++ called l' :=
  List.filterMap_append ..

@[simp] theorem returned_append (l l' : List (Page κ)) :
    returned (l ++ l') = returned l ++ returned l' := List.filterMap_append ..

variable {pages : List (Page κ)} {p : Page κ}

/-- What is neither a subscription nor the end of one leaves things as they stand. -/
theorem standing_concat (hmade : p.made? = none) (hremoved : p.removed? = none) :
    standing (pages ++ [p]) = standing pages := by
  simp [standing, made, removed, hmade, hremoved]

theorem standing_subscribed {id : Subscription} {c : κ} (hp : p.incident = .subscribed id c)
    (hnew : id ∉ removed pages) : standing (pages ++ [p]) = standing pages ++ [(id, c)] := by
  have hmade : p.made? = some (id, c) := by rw [Page.made?, hp]
  have hremoved : p.removed? = none := by rw [Page.removed?, hp]
  have hsame : removed (pages ++ [p]) = removed pages := by simp [removed, hremoved]
  rw [standing, hsame, made_append, List.filter_append]
  simp [standing, made, hmade, hnew]

theorem standing_unsubscribed {id : Subscription} (hp : p.incident = .unsubscribed id true) :
    standing (pages ++ [p]) = (standing pages).filter (·.1 ≠ id) := by
  have hmade : p.made? = none := by rw [Page.made?, hp]
  have hremoved : p.removed? = some id := by rw [Page.removed?, hp]
  have hsame : made (pages ++ [p]) = made pages := by simp [made, hmade]
  have hmore : removed (pages ++ [p]) = removed pages ++ [id] := by simp [removed, hremoved]
  rw [standing, standing, hsame, hmore, List.filter_filter]
  refine List.filter_congr fun m _ => ?_
  simp [and_comm]

theorem mem_standing {id : Subscription} :
    (∃ m ∈ standing pages, m.1 = id) ↔ id ∈ (made pages).map (·.1) ∧ id ∉ removed pages := by
  simp only [standing, List.mem_filter, decide_eq_true_eq, List.mem_map]
  constructor
  · rintro ⟨m, ⟨hm, hr⟩, rfl⟩
    exact ⟨⟨m, hm, rfl⟩, hr⟩
  · rintro ⟨⟨m, hm, rfl⟩, hr⟩
    exact ⟨m, ⟨hm, hr⟩, rfl⟩

/-- A page as it should follow on `before`: it shows who is subscribed. A call to end a subscription
takes away that one and no other, and it is answered with yes if the subscription was there. -/
structure Page.Follows (p : Page κ) (before : List (Page κ)) : Prop where
  subscribers_eq : p.subscribers = standing (before ++ [p])
  taken_away : ∀ id found, p.incident = .unsubscribed id found →
    p.subscribers = (standing before).filter (·.1 ≠ id)
  found_iff : ∀ id found, p.incident = .unsubscribed id found →
    (found = true ↔ id ∈ (made before).map (·.1) ∧ id ∉ removed before)

/-- Each page of the diary follows on those before it, so all that was said at its time was true. -/
def Told (diary : List (Page κ)) : Prop :=
  ∀ before p after, diary = before ++ p :: after → p.Follows before

theorem Told.concat {diary : List (Page κ)} (h : Told diary) (hp : p.Follows diary) :
    Told (diary ++ [p]) := by
  intro before q after hsplit
  rcases List.eq_nil_or_concat after with rfl | ⟨rest, last, rfl⟩
  · obtain ⟨rfl, hq⟩ := List.append_inj' hsplit rfl
    obtain rfl := List.singleton_inj.mp hq
    exact hp
  · rw [List.concat_eq_append, ← List.cons_append, ← List.append_assoc] at hsplit
    obtain ⟨hdiary, -⟩ := List.append_inj' hsplit rfl
    exact h before q rest hdiary

/-! ## Scenes -/

/-- A bus, and all that has happened at it. The diary only looks on. -/
structure Scene (κ : Type) where
  bus : Bus κ
  diary : List (Page κ)

namespace Scene

def empty : Scene κ := ⟨.empty, []⟩

def write (s : Scene κ) (i : Incident κ) : Scene κ :=
  { s with diary := s.diary ++ [⟨i, s.bus.subscribers⟩] }

def subscribe (s : Scene κ) (c : κ) : Subscription × Scene κ :=
  ((s.bus.subscribe c).1,
    write { s with bus := (s.bus.subscribe c).2 } (.subscribed (s.bus.subscribe c).1 c))

def unsubscribe (s : Scene κ) (id : Subscription) : Bool × Scene κ :=
  ((s.bus.unsubscribe id).1,
    write { s with bus := (s.bus.unsubscribe id).2 } (.unsubscribed id (s.bus.unsubscribe id).1))

/-- The bus is as its diary says: the subscribers are those that stand, and numbers were given out
in turn. This is the invariant of every procedure here. -/
structure Kept (s : Scene κ) : Prop where
  subscribers_eq : s.bus.subscribers = standing s.diary
  numbers_eq : (made s.diary).map (·.1.number) = List.range s.bus.nextId
  removed_made : ∀ id ∈ removed s.diary, id ∈ (made s.diary).map (·.1)
  removed_nodup : (removed s.diary).Nodup
  told : Told s.diary

theorem kept_empty : (empty : Scene κ).Kept where
  subscribers_eq := rfl
  numbers_eq := rfl
  removed_made := by
    intro id h
    cases h
  removed_nodup := .nil
  told := by
    intro before p after h
    cases before <;> cases h

variable {s : Scene κ}

/-- A subscription that was made has a number that the bus has given out. -/
theorem Kept.number_lt (h : s.Kept) {id : Subscription} (hid : id ∈ (made s.diary).map (·.1)) :
    id.number < s.bus.nextId := by
  obtain ⟨m, hm, rfl⟩ := List.mem_map.mp hid
  rw [← List.mem_range, ← h.numbers_eq]
  exact List.mem_map.mpr ⟨m, hm, rfl⟩

/-- No number is given twice, as numbers are given out in turn. -/
theorem Kept.made_nodup (h : s.Kept) : ((made s.diary).map (·.1)).Nodup := by
  have hnumbers : (((made s.diary).map (·.1)).map (·.number)).Nodup := by
    rw [List.map_map]
    have hrange := h.numbers_eq ▸ List.nodup_range
    exact hrange
  exact hnumbers.of_map

theorem Kept.write (h : s.Kept) {i : Incident κ} (hsub : ∀ id c, i ≠ .subscribed id c)
    (hunsub : ∀ id found, i ≠ .unsubscribed id found) : (s.write i).Kept := by
  have hmade : Page.made? ⟨i, s.bus.subscribers⟩ = none := by
    cases i with
    | subscribed id c => exact absurd rfl (hsub id c)
    | _ => rfl
  have hremoved : Page.removed? ⟨i, s.bus.subscribers⟩ = none := by
    cases i with
    | unsubscribed id found => exact absurd rfl (hunsub id found)
    | _ => rfl
  have hmadeEq : made (s.write i).diary = made s.diary := by
    simp [Scene.write, made, hmade]
  have hremovedEq : removed (s.write i).diary = removed s.diary := by
    simp [Scene.write, removed, hremoved]
  have hstanding : standing (s.write i).diary = standing s.diary := standing_concat hmade hremoved
  constructor
  case subscribers_eq => exact h.subscribers_eq.trans hstanding.symm
  case numbers_eq =>
    rw [hmadeEq]
    exact h.numbers_eq
  case removed_made =>
    rw [hmadeEq, hremovedEq]
    exact h.removed_made
  case removed_nodup =>
    rw [hremovedEq]
    exact h.removed_nodup
  case told =>
    refine h.told.concat ⟨h.subscribers_eq.trans hstanding.symm, ?_, ?_⟩
    · intro id found hi
      exact absurd hi (hunsub id found)
    · intro id found hi
      exact absurd hi (hunsub id found)

theorem Kept.subscribe (h : s.Kept) (c : κ) : (s.subscribe c).2.Kept := by
  have hnew : (⟨s.bus.nextId⟩ : Subscription) ∉ removed s.diary := by
    intro hmem
    have hlt := h.number_lt (h.removed_made _ hmem)
    exact absurd hlt (Nat.lt_irrefl _)
  have hstanding : standing (s.subscribe c).2.diary = standing s.diary ++ [(⟨s.bus.nextId⟩, c)] :=
    standing_subscribed rfl hnew
  have hmade : made (s.subscribe c).2.diary = made s.diary ++ [(⟨s.bus.nextId⟩, c)] :=
    made_append ..
  have hremoved : removed (s.subscribe c).2.diary = removed s.diary := by
    refine (removed_append ..).trans ?_
    exact List.append_nil _
  have hsubscribers : (s.subscribe c).2.bus.subscribers = standing (s.subscribe c).2.diary := by
    rw [hstanding, ← h.subscribers_eq]
    rfl
  constructor
  case subscribers_eq => exact hsubscribers
  case numbers_eq =>
    rw [hmade, List.map_append, h.numbers_eq]
    exact List.range_succ.symm
  case removed_made =>
    rw [hmade, hremoved, List.map_append]
    intro id hid
    exact List.mem_append_left _ (h.removed_made id hid)
  case removed_nodup =>
    rw [hremoved]
    exact h.removed_nodup
  case told =>
    refine h.told.concat ⟨hsubscribers, ?_, ?_⟩
    · intro id found hi
      cases hi
    · intro id found hi
      cases hi

theorem Kept.unsubscribe (h : s.Kept) (id : Subscription) : (s.unsubscribe id).2.Kept := by
  have hfound : (s.unsubscribe id).1 = true
      ↔ id ∈ (made s.diary).map (·.1) ∧ id ∉ removed s.diary := by
    rw [← mem_standing, ← h.subscribers_eq]
    show s.bus.subscribers.any (·.1 = id) = true ↔ _
    simp
  have hmade : made (s.unsubscribe id).2.diary = made s.diary := by
    refine (made_append ..).trans ?_
    exact List.append_nil _
  have hbus : (s.unsubscribe id).2.bus.subscribers = (standing s.diary).filter (·.1 ≠ id) := by
    rw [← h.subscribers_eq]
    rfl
  have hpage : (s.unsubscribe id).2.diary = s.diary
      ++ [⟨.unsubscribed id (s.unsubscribe id).1, (s.unsubscribe id).2.bus.subscribers⟩] := rfl
  have hremoved : removed (s.unsubscribe id).2.diary
      = removed s.diary ++ if (s.unsubscribe id).1 then [id] else [] := by
    rw [hpage, removed_append]
    cases (s.unsubscribe id).1 <;> rfl
  have hsubscribers :
      (s.unsubscribe id).2.bus.subscribers = standing (s.unsubscribe id).2.diary := by
    cases hanswer : (s.unsubscribe id).1 with
    | true =>
        rw [hpage, hanswer, standing_unsubscribed rfl]
        exact hbus
    | false =>
        have hnone : ∀ m ∈ standing s.diary, m.1 ≠ id := by
          intro m hm heq
          have hyes := hfound.mpr (mem_standing.mp ⟨m, hm, heq⟩)
          exact absurd (hanswer.symm.trans hyes) (by decide)
        rw [hbus, hpage, hanswer, standing_concat rfl rfl, List.filter_eq_self]
        intro m hm
        simpa using hnone m hm
  constructor
  case subscribers_eq => exact hsubscribers
  case numbers_eq =>
    rw [hmade]
    exact h.numbers_eq
  case removed_made =>
    rw [hmade, hremoved]
    intro i hi
    rcases List.mem_append.mp hi with hi | hi
    · exact h.removed_made i hi
    · cases hanswer : (s.unsubscribe id).1 with
      | true =>
          rw [hanswer] at hi
          obtain rfl := List.mem_singleton.mp hi
          exact (hfound.mp hanswer).1
      | false =>
          rw [hanswer] at hi
          cases hi
  case removed_nodup =>
    rw [hremoved]
    cases hanswer : (s.unsubscribe id).1 with
    | true =>
        have hfresh := (hfound.mp hanswer).2
        exact List.nodup_append_comm.mp (List.nodup_cons.mpr ⟨hfresh, h.removed_nodup⟩)
    | false => simpa using h.removed_nodup
  case told =>
    rw [hpage]
    refine h.told.concat ⟨hsubscribers, ?_, ?_⟩
    · intro i found hi
      obtain ⟨rfl, -⟩ := Incident.unsubscribed.inj hi
      exact hbus
    · intro i found hi
      obtain ⟨rfl, rfl⟩ := Incident.unsubscribed.inj hi
      exact hfound

end Scene

/-! ## What subscribers do -/

/-- What changes a scene and gives an answer, as the procedures of a bus do in this monad. -/
abbrev Play (κ : Type) := StateM (Scene κ)

/-- How subscribers make up their minds: by all that has happened and the event at hand. A claim
about any temper is one about subscribers that do what they like. -/
abbrev Temper (κ : Type) := List (Page κ) → κ → Record → Reaction κ

namespace Play

def write (i : Incident κ) : Play κ Unit := modify (·.write i)

def act : Reaction κ → Play κ Delivery
  | .finish delivery => return delivery
  | .subscribe c next => do act (next (← (·.subscribe c)))
  | .unsubscribe id next => do act (next (← (·.unsubscribe id)))

def handle (temper : Temper κ) (c : κ) (e : Record) : Play κ Delivery := do
  write (.called c e)
  let delivery ← act (temper (← get).diary c e)
  write (.returned delivery)
  return delivery

/-- How subscribers of a temper are dealt with. What is logged is not for the diary. -/
def conduct (name : κ → String) (temper : Temper κ) : Conduct (Play κ) κ where
  name := name
  handle := handle temper
  note _ := return

def publish (name : κ → String) (temper : Temper κ) (e : Record) : Play κ PublishCount := do
  write (.published e)
  let r ← (← get).bus.publish (conduct name temper) e
  write (.counted r)
  return r

/-- From a scene that is kept the procedure leads to one that is, and what it adds to the diary is
as `post` says of its answer. -/
def Runs (p : Play κ α) (s : Scene κ) (post : α → List (Page κ) → Prop) : Prop :=
  s.Kept → (p s).2.Kept ∧ ∃ more, (p s).2.diary = s.diary ++ more ∧ post (p s).1 more

variable {s : Scene κ} {post post' : α → List (Page κ) → Prop}

theorem Runs.mono {p : Play κ α} (hp : ∀ a more, post a more → post' a more)
    (h : p.Runs s post) : p.Runs s post' := by
  intro hs
  obtain ⟨ht, more, hmore, ha⟩ := h hs
  exact ⟨ht, more, hmore, hp _ _ ha⟩

theorem runs_pure {a : α} (h : post a []) : Runs (pure a : Play κ α) s post := by
  intro hs
  exact ⟨hs, [], (List.append_nil _).symm, h⟩

/-- The rule for two procedures, one after the other. -/
theorem runs_bind {p : Play κ α} {f : α → Play κ β} {post : β → List (Page κ) → Prop}
    (h : p.Runs s fun a before => ∀ t, (f a).Runs t fun b more => post b (before ++ more)) :
    Runs (p >>= f) s post := by
  intro hs
  obtain ⟨ht, before, hbefore, hf⟩ := h hs
  obtain ⟨hu, more, hmore, hb⟩ := hf (p s).2 ht
  refine ⟨hu, before ++ more, ?_, hb⟩
  rw [← List.append_assoc, ← hbefore]
  exact hmore

theorem runs_get {f : Scene κ → Play κ α} (h : (f s).Runs s post) : Runs (get >>= f) s post := h

theorem runs_write {i : Incident κ} (hsub : ∀ id c, i ≠ .subscribed id c)
    (hunsub : ∀ id found, i ≠ .unsubscribed id found) (s : Scene κ) :
    (write i).Runs s fun _ more => more = [⟨i, s.bus.subscribers⟩] := by
  intro hs
  exact ⟨hs.write hsub hunsub, _, rfl, rfl⟩

/-- A subscriber that makes up its mind calls nobody. -/
theorem runs_act (reaction : Reaction κ) (s : Scene κ) :
    (act reaction).Runs s fun _ more => called more = [] ∧ returned more = [] := by
  induction reaction generalizing s with
  | finish delivery => exact runs_pure ⟨rfl, rfl⟩
  | subscribe c next ih =>
      refine runs_bind fun hs => ⟨hs.subscribe c, _, rfl, ?_⟩
      intro t
      exact (ih _ t).mono fun _ more h => h
  | unsubscribe id next ih =>
      refine runs_bind fun hs => ⟨hs.unsubscribe id, _, rfl, ?_⟩
      intro t
      exact (ih _ t).mono fun _ more h => h

variable (name : κ → String) (temper : Temper κ)

theorem runs_handle (c : κ) (e : Record) (s : Scene κ) :
    (handle temper c e).Runs s fun delivery more =>
      called more = [(c, e)] ∧ returned more = [delivery] := by
  refine runs_bind ((runs_write (by simp) (by simp) s).mono ?_)
  rintro - _ rfl t
  refine runs_get (runs_bind ((runs_act _ t).mono ?_))
  rintro delivery more ⟨hcalled, hreturned⟩ u
  refine runs_bind ((runs_write (by simp) (by simp) u).mono ?_)
  rintro - _ rfl v
  refine runs_pure ⟨?_, ?_⟩
  · rw [called_append, called_append, hcalled]
    rfl
  · rw [returned_append, returned_append, hreturned]
    rfl

theorem runs_deliver (e : Record) (subscribers : List (Subscription × κ)) (r : PublishCount)
    (s : Scene κ) : Runs (deliver (conduct name temper) e r subscribers) s fun r' more =>
      called more = subscribers.map (fun m => (m.2, e))
        ∧ (returned more).length = subscribers.length
        ∧ r' = (returned more).foldl PublishCount.count r := by
  induction subscribers generalizing r s with
  | nil => exact runs_pure ⟨rfl, rfl, rfl⟩
  | cons m rest ih =>
      obtain ⟨id, c⟩ := m
      refine runs_bind ((runs_handle temper c e s).mono ?_)
      rintro delivery first ⟨hcalled, hreturned⟩ t
      have hrest : Runs (deliver (conduct name temper) e (r.count delivery) rest) t fun r' more =>
          called (first ++ more) = ((id, c) :: rest).map (fun m => (m.2, e))
            ∧ (returned (first ++ more)).length = ((id, c) :: rest).length
            ∧ r' = (returned (first ++ more)).foldl PublishCount.count r := by
        refine (ih (r.count delivery) t).mono ?_
        rintro r' more ⟨hrest, hlength, hcount⟩
        refine ⟨?_, ?_, ?_⟩
        · simp [hcalled, hrest]
        · simp [hreturned, hlength]
        · simp [hreturned, hcount]
      cases complaint id ((conduct name temper).name c) e delivery with
      | none => exact hrest
      | some entry => exact hrest

/-- What was called and counted while an event was delivered to `subscribers`, with all that they
did in between. -/
structure Served (subscribers : List (Subscription × κ)) (e : Record) (r : PublishCount)
    (during : List (Page κ)) : Prop where
  called_eq : called during = subscribers.map (fun m => (m.2, e))
  returned_length : (returned during).length = subscribers.length
  count_eq : r = (returned during).foldl PublishCount.count ⟨0, 0⟩

/-- The subscribers of the moment are called, one after the other, by induction on those still to be
called. What they do to the bus in between changes the diary and not the list. -/
theorem runs_busPublish (e : Record) (s : Scene κ) (b : Bus κ) :
    Runs (b.publish (conduct name temper) e) s (Served b.subscribers e) := by
  unfold Bus.publish
  split
  · rename_i hempty
    have hnone : b.subscribers = [] := List.isEmpty_iff.mp hempty
    rw [hnone]
    exact runs_pure ⟨rfl, rfl, rfl⟩
  · refine (runs_deliver name temper e b.subscribers ⟨0, 0⟩ s).mono ?_
    rintro r during ⟨hcalled, hlength, hcount⟩
    exact ⟨hcalled, hlength, hcount⟩

theorem runs_publish (e : Record) (s : Scene κ) :
    (publish name temper e).Runs s fun r more => ∃ during after,
      more = ⟨.published e, s.bus.subscribers⟩ :: during ++ [⟨.counted r, after⟩]
        ∧ Served s.bus.subscribers e r during := by
  intro hs
  have ht : (s.write (.published e)).Kept := hs.write (by simp) (by simp)
  have hround : Runs (s.bus.publish (conduct name temper) e >>= fun r =>
      write (.counted r) >>= fun _ => pure r) (s.write (.published e)) fun r more =>
        ∃ during after, more = during ++ [⟨.counted r, after⟩]
          ∧ Served s.bus.subscribers e r during := by
    refine runs_bind ((runs_busPublish name temper e _ s.bus).mono ?_)
    intro r during hserved u
    refine runs_bind ((runs_write (by simp) (by simp) u).mono ?_)
    rintro - _ rfl v
    exact runs_pure ⟨during, u.bus.subscribers, rfl, hserved⟩
  obtain ⟨hkept, more, hmore, during, after, rfl, hserved⟩ := hround ht
  refine ⟨hkept, _, hmore.trans ?_, during, after, rfl, hserved⟩
  exact List.append_assoc ..

end Play

/-! ## Runs -/

/-- What is asked of a bus from outside, between deliveries. -/
inductive Call (κ : Type)
  | subscribe (c : κ)
  | unsubscribe (id : Subscription)
  | publish (e : Record)

section

variable (name : κ → String) (temper : Temper κ)

def Scene.perform (s : Scene κ) : Call κ → Scene κ
  | .subscribe c => (s.subscribe c).2
  | .unsubscribe id => (s.unsubscribe id).2
  | .publish e => (Play.publish name temper e s).2

/-- The scene after the calls on a new bus, the first call first. -/
def Scene.ofCalls (calls : List (Call κ)) : Scene κ :=
  calls.foldl (Scene.perform name temper) .empty

theorem Scene.Kept.perform {s : Scene κ} (h : s.Kept) (call : Call κ) :
    (s.perform name temper call).Kept := by
  cases call with
  | subscribe c => exact h.subscribe c
  | unsubscribe id => exact h.unsubscribe id
  | publish e => exact (Play.runs_publish name temper e s h).1

theorem Scene.kept_ofCalls (calls : List (Call κ)) : (Scene.ofCalls name temper calls).Kept := by
  induction calls using List.reverseRecOn with
  | nil => exact Scene.kept_empty
  | append_singleton calls call ih =>
      rw [Scene.ofCalls, List.foldl_append]
      exact ih.perform name temper call

end

/-! ## Counting -/

theorem delivered_foldl (ds : List Delivery) (r : PublishCount) :
    (ds.foldl PublishCount.count r).delivered = r.delivered + ds.count .accepted := by
  induction ds generalizing r with
  | nil => rfl
  | cons d ds ih =>
      rw [List.foldl_cons, ih]
      cases d <;> simp [PublishCount.count]
      omega

theorem total_foldl (ds : List Delivery) (r : PublishCount) :
    (ds.foldl PublishCount.count r).delivered + (ds.foldl PublishCount.count r).failed
      = r.delivered + r.failed + ds.length := by
  induction ds generalizing r with
  | nil => rfl
  | cons d ds ih =>
      rw [List.foldl_cons, ih, List.length_cons]
      cases d <;> simp only [PublishCount.count] <;> omega

/-- **An event goes to those subscribed when it is published.** Take any calls on a new bus, and
subscribers that fail, crash, subscribe others and end subscriptions as they please while they
handle an event. Then at every moment, also while an event is delivered, the subscribers are the
subscriptions made and not yet ended, in the order they were made; a call to end one takes away that
one only, and it is answered with yes if the subscription was there, which no subscription is
twice, and no number is given twice. An event that is published next is handled by each of the
subscribers there at that moment, once and in their order, and by nobody else. Those who accept it
are counted as delivered, and the two counts make up all who were called.

Numbers are natural ones here, and words of 64 bits in the system, which starts to give them out
again after `2 ^ 64` subscriptions. Of the system this is therefore said of any calls by which no
bus comes to more subscriptions than that in its life, those of its subscribers included. -/
theorem snapshot_delivery (name : κ → String) (temper : Temper κ) (calls : List (Call κ)) :
    let s := Scene.ofCalls name temper calls
    s.Kept ∧ ((made s.diary).map (·.1)).Nodup
      ∧ ∀ e, ∃ during r after,
        (Play.publish name temper e s).1 = r
          ∧ (Play.publish name temper e s).2.diary
            = s.diary ++ ⟨.published e, s.bus.subscribers⟩ :: during ++ [⟨.counted r, after⟩]
          ∧ called during = s.bus.subscribers.map (fun m => (m.2, e))
          ∧ (returned during).length = (called during).length
          ∧ r.delivered = (returned during).count .accepted
          ∧ r.delivered + r.failed = (called during).length := by
  intro s
  have hs : s.Kept := Scene.kept_ofCalls name temper calls
  refine ⟨hs, hs.made_nodup, ?_⟩
  intro e
  obtain ⟨-, more, hmore, during, after, rfl, hserved⟩ := Play.runs_publish name temper e s hs
  obtain ⟨hcalled, hlength, hcount⟩ := hserved
  have hcalls : (called during).length = s.bus.subscribers.length := by
    rw [hcalled, List.length_map]
  refine ⟨during, _, after, rfl, ?_, hcalled, hlength.trans hcalls.symm, ?_, ?_⟩
  · rw [hmore]
    simp
  · rw [hcount, delivered_foldl]
    exact Nat.zero_add _
  · rw [hcount, total_foldl, hcalls, hlength]
    exact Nat.zero_add _

/-- Number 0 ends the second subscription, brings in number 2 and crashes. -/
def meddling : Temper Nat := fun _ c _ =>
  match c with
  | 0 => .unsubscribe ⟨1⟩ fun _ => .subscribe 2 fun _ => .finish (.crashed none)
  | _ => .finish .accepted

example (e : Record) : (called (Scene.ofCalls (fun _ => "") meddling
    [.subscribe 0, .subscribe 1, .publish e, .publish e]).diary).map (·.1) = [0, 1, 0, 2] := by
  cbv

end Bus

end Rendezvous
