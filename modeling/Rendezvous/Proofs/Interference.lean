import Rendezvous.Procedure

/-!
# Procedures under interference

Between two requests of a procedure others may change the state. `Interference` names what they
may do (`rely`), what the procedure may do with one request (`guar`), and the ways a request can be
answered. `Proc.Under` then says of a procedure, at a state, that every request keeps to `guar` and
that it ends as `post` says, whatever happens in between and however its requests are answered.

A procedure that is alone has nothing to rely on: `Proc.Leads` is the special case in which the
state stands still between requests. For a procedure all of whose requests are harmless it is
enough to know which requests it makes (`Proc.Asks`).
-/

namespace Rendezvous

/-- How requests are answered, one handler for each choice, what others may do between them
(`rely`), and what a request must come to (`guar`). -/
structure Interference (φ σ : Type) where
  reply : φ → Proc.Handler σ
  rely : σ → σ → Prop
  guar : σ → σ → Prop
  refl : ∀ s, rely s s
  trans : ∀ {s t u}, rely s t → rely t u → rely s u

namespace Proc

variable {φ σ α β : Type}

/-! ## Under interference -/

/-- The procedure keeps to `I` from the state `s`, whatever others do between its requests, and in
the end `post` holds of its result and the state. It is defined along the procedure, so each request
is one rule. -/
def Under (I : Interference φ σ) (post : α → σ → Prop) : Proc α → σ → Prop
  | .done a, s => ∀ t, I.rely s t → post a t
  | .ask r next, s => ∀ t, I.rely s t → ∀ c, I.guar t (I.reply c r t).2
      ∧ Under I post (next (I.reply c r t).1) (I.reply c r t).2

variable {I : Interference φ σ} {post : α → σ → Prop}

theorem Under.rely : ∀ {p : Proc α} {s t : σ}, Under I post p s → I.rely s t → Under I post p t
  | .done _, _, _, h, hst => fun u htu => h u (I.trans hst htu)
  | .ask _ _, _, _, h, hst => fun u htu => h u (I.trans hst htu)

theorem Under.ends {a : α} {s : σ} (h : Under I post (.done a) s) : post a s := h s (I.refl s)

theorem Under.ask {r : Request} {next : r.Answer → Proc α} {s : σ}
    (h : Under I post (.ask r next) s) (c : φ) :
    I.guar s (I.reply c r s).2 ∧ Under I post (next (I.reply c r s).1) (I.reply c r s).2 :=
  h s (I.refl s) c

theorem Under.mono {post' : α → σ → Prop} (hp : ∀ a s, post a s → post' a s) :
    ∀ {p : Proc α} {s : σ}, Under I post p s → Under I post' p s
  | .done a, _, h => fun t hst => hp a t (h t hst)
  | .ask _ _, _, h => fun t hst c => ⟨(h t hst c).1, Under.mono hp (h t hst c).2⟩

/-- What a procedure does itself is among what it relies on, so it can go on from the state it has
made. -/
theorem Under.remember (hg : ∀ s t, I.guar s t → I.rely s t) :
    ∀ {p : Proc α} {s : σ}, Under I post p s → Under I (fun a t => post a t ∧ I.rely s t) p s
  | .done _, _, h => fun t hst => ⟨h t hst, hst⟩
  | .ask _ _, _, h => fun t hst c =>
      have ⟨hguar, hn⟩ := h t hst c
      ⟨hguar, (Under.remember hg hn).mono fun _ _ ⟨hp, hu⟩ =>
        ⟨hp, I.trans hst (I.trans (hg _ _ hguar) hu)⟩⟩

theorem under_bind {post : β → σ → Prop} {f : α → Proc β} :
    ∀ {p : Proc α} {s : σ}, Under I (fun a t => Under I post (f a) t) p s →
      Under I post (p >>= f) s
  | .done _, _, h => h.ends
  | .ask _ _, _, h => fun t hst c => ⟨(h t hst c).1, under_bind (h t hst c).2⟩

/-- The rule for a request that something follows. -/
theorem under_request {r : Request} {f : r.Answer → Proc α} {s : σ}
    (h : ∀ t, I.rely s t → ∀ c, I.guar t (I.reply c r t).2
      ∧ Under I post (f (I.reply c r t).1) (I.reply c r t).2) :
    Under I post (request r >>= f) s := h

/-! ## Which requests a procedure makes -/

/-- Whatever the answers, all requests of the procedure are `ok`. This is a property of the
procedure alone, with no state in it. -/
def Asks (ok : Request → Prop) : Proc α → Prop
  | .done _ => True
  | .ask r next => ok r ∧ ∀ x, Asks ok (next x)

variable {ok : Request → Prop}

theorem asks_pure (a : α) : Asks ok (pure a) := trivial

theorem asks_bind {f : α → Proc β} (hf : ∀ a, Asks ok (f a)) :
    ∀ {p : Proc α}, Asks ok p → Asks ok (p >>= f)
  | .done a, _ => hf a
  | .ask _ _, ⟨hr, h⟩ => ⟨hr, fun x => asks_bind hf (h x)⟩

theorem asks_request {r : Request} (h : ok r) : Asks ok (request r) := ⟨h, fun _ => trivial⟩

theorem Asks.mono {ok' : Request → Prop} (h : ∀ r, ok r → ok' r) :
    ∀ {p : Proc α}, Asks ok p → Asks ok' p
  | .done _, _ => trivial
  | .ask r _, ⟨hr, hn⟩ => ⟨h r hr, fun x => Asks.mono h (hn x)⟩

/-- A procedure that only makes harmless requests needs no further argument: each is allowed
wherever it comes. -/
theorem under_of_asks (calm : ∀ r, ok r → ∀ c s,
      I.guar s (I.reply c r s).2 ∧ I.rely s (I.reply c r s).2) :
    ∀ {p : Proc α} {s : σ}, Asks ok p → (∀ a t, I.rely s t → post a t) → Under I post p s
  | .done a, _, _, h => fun t hst => h a t hst
  | .ask r _, _, ⟨hr, hn⟩, h => fun t hst c =>
      have ⟨hg, hc⟩ := calm r hr c t
      ⟨hg, under_of_asks calm (hn _) fun a _ hu => h a _ (I.trans hst (I.trans hc hu))⟩

/-! ## Alone -/

/-- The world of a procedure that runs alone: nothing happens between its requests, and all of them
are allowed. -/
def alone (reply : φ → Handler σ) : Interference φ σ where
  reply := reply
  rely := Eq
  guar := fun _ _ => True
  refl := fun _ => rfl
  trans := Eq.trans

/-- Run alone from `s`, the procedure ends as `post` says, however its requests are answered. -/
def Leads (reply : φ → Handler σ) (post : α → σ → Prop) (p : Proc α) (s : σ) : Prop :=
  Under (alone reply) post p s

variable {reply : φ → Handler σ}

@[simp] theorem leads_done {a : α} {s : σ} : Leads reply post (.done a) s ↔ post a s :=
  ⟨fun h => h.ends, fun h => by rintro t rfl; exact h⟩

@[simp] theorem leads_ask {r : Request} {next : r.Answer → Proc α} {s : σ} :
    Leads reply post (.ask r next) s ↔
      ∀ c, Leads reply post (next (reply c r s).1) (reply c r s).2 :=
  ⟨fun h c => (h.ask c).2, fun h => by rintro t rfl c; exact ⟨trivial, h c⟩⟩

theorem leads_bind {post : β → σ → Prop} {p : Proc α} {f : α → Proc β} {s : σ}
    (h : Leads reply (fun a t => Leads reply post (f a) t) p s) :
    Leads reply post (p >>= f) s := under_bind h

theorem leads_request {r : Request} {f : r.Answer → Proc α} {s : σ}
    (h : ∀ c, Leads reply post (f (reply c r s).1) (reply c r s).2) :
    Leads reply post (request r >>= f) s := leads_ask.mpr h

theorem Leads.mono {post' : α → σ → Prop} (hp : ∀ a s, post a s → post' a s) {p : Proc α} {s : σ}
    (h : Leads reply post p s) : Leads reply post' p s := Under.mono hp h

/-- Runs the procedure alone, answering its `n`th request by the choice `choices n`. Answers are no
surprise then, and `Leads` says what holds for all choices. -/
def runWith (reply : φ → Handler σ) : (Nat → φ) → Proc α → σ → α × σ
  | _, .done a, s => (a, s)
  | choices, .ask r next, s =>
      runWith reply (fun n => choices (n + 1)) (next (reply (choices 0) r s).1)
        (reply (choices 0) r s).2

theorem Under.runWith : ∀ {p : Proc α} {s : σ}, Under I post p s → ∀ choices : Nat → φ,
    post (runWith I.reply choices p s).1 (runWith I.reply choices p s).2
  | .done _, _, h, _ => h.ends
  | .ask _ _, _, h, choices => (h.ask (choices 0)).2.runWith _

theorem runWith_const {h : Handler σ} (c : φ) (hc : reply c = h) :
    ∀ (p : Proc α) (s : σ), Proc.runWith reply (fun _ => c) p s = run h p s
  | .done _, _ => rfl
  | .ask r next, s => by
      subst hc
      rw [run_ask, Proc.runWith]
      exact runWith_const c rfl _ _

end Proc

end Rendezvous
