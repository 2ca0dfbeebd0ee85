import Mathlib.Data.List.Basic

/-!
Calls that await. A call is a tree: it answers, fails, reads the clock, or awaits one
operation of a shared store and goes on with the reply. Any number of calls run over
one store, and between two awaits of a call every other call may act.

`Discipline.Safe` says of one call, by recursion on its tree, that each of its awaits
keeps the store invariant and moves the store as the relation `Rely` allows, provided
that everything since its last await did. `run_sound` then puts any number of safe
calls together: the invariant holds after every interleaving.
-/

namespace ChainPay.Lib

inductive Call (Op : Type) (Ans : Op → Type) (ε α : Type) where
  | ret (a : α)
  | fail (e : ε)
  | clock (k : Nat → Call Op Ans ε α)
  | await (o : Op) (k : Ans o → Call Op Ans ε α)

namespace Call

variable {Op : Type} {Ans : Op → Type} {ε α β : Type}

def bind : Call Op Ans ε α → (α → Call Op Ans ε β) → Call Op Ans ε β
  | .ret a, f => f a
  | .fail e, _ => .fail e
  | .clock k, f => .clock fun t => (k t).bind f
  | .await o k, f => .await o fun a => (k a).bind f

instance : Monad (Call Op Ans ε) where
  pure := .ret
  bind := Call.bind

@[simp] theorem ret_bind (a : α) (f : α → Call Op Ans ε β) : (Call.ret a >>= f) = f a := rfl

@[simp] theorem pure_bind (a : α) (f : α → Call Op Ans ε β) :
    ((pure a : Call Op Ans ε α) >>= f) = f a := rfl

@[simp] theorem fail_bind (e : ε) (f : α → Call Op Ans ε β) :
    ((Call.fail e : Call Op Ans ε α) >>= f) = .fail e := rfl

/-- Reads the clock. -/
def now : Call Op Ans ε Nat := .clock .ret

def ofExcept : Except ε α → Call Op Ans ε α
  | .ok a => .ret a
  | .error e => .fail e

/-- The call with its failure as an answer. -/
def attempt : Call Op Ans ε α → Call Op Ans ε (Except ε α)
  | .ret a => .ret (.ok a)
  | .fail e => .ret (.error e)
  | .clock k => .clock fun t => (k t).attempt
  | .await o k => .await o fun a => (k a).attempt

/-- The call up to its next await, with the readings `t` of the clock. -/
def settle (t : Nat → Nat) : Call Op Ans ε α → Call Op Ans ε α
  | .clock k => (k (t 0)).settle fun n => t (n + 1)
  | c => c

/-- What the call has answered. -/
def answer? : Call Op Ans ε α → Option (Except ε α)
  | .ret a => some (.ok a)
  | .fail e => some (.error e)
  | _ => none

end Call

/-- A store with its operations, the calls that may be made, and what may happen to the
store from outside. `γ` is what a run remembers of a call beside its state. -/
structure System (σ Op : Type) (Ans : Op → Type) (Env Req Ext ε α γ : Type) where
  perform : (o : Op) → Env → σ → σ × Ans o
  entry : Req → Call Op Ans ε α
  outside : Ext → σ → σ
  first : γ
  note : Op → γ → γ

/-- A call in progress, with the store as its last await left it. -/
structure Thread (σ Op : Type) (Ans : Op → Type) (ε α γ : Type) where
  call : Call Op Ans ε α
  base : σ
  seen : γ

/-- An answer given, with the store at that moment. -/
structure Answered (σ ε α : Type) where
  store : σ
  result : Except ε α

structure Pool (σ Op : Type) (Ans : Op → Type) (ε α γ : Type) where
  store : σ
  threads : List (Thread σ Op Ans ε α γ)
  answers : List (Answered σ ε α)

inductive Act (Env Req Ext : Type) where
  | start (r : Req) (t : Nat → Nat)
  | go (i : Nat) (e : Env) (t : Nat → Nat)
  | outside (x : Ext)

section Runs

variable {σ Op : Type} {Ans : Op → Type} {Env Req Ext ε α γ : Type}

/-- The store before any call. -/
def Pool.init (s : σ) : Pool σ Op Ans ε α γ := ⟨s, [], []⟩

/-- Notes the answer of a call that has one. -/
def Pool.noted (w : Pool σ Op Ans ε α γ) (c : Call Op Ans ε α) : List (Answered σ ε α) :=
  match c.answer? with
  | some r => w.answers ++ [⟨w.store, r⟩]
  | none => w.answers

/-- A thread is added. -/
def Pool.enter (w : Pool σ Op Ans ε α γ) (th : Thread σ Op Ans ε α γ) : Pool σ Op Ans ε α γ :=
  { w with threads := w.threads ++ [th], answers := w.noted th.call }

/-- Thread `i` goes on as `th`. -/
def Pool.resume (w : Pool σ Op Ans ε α γ) (i : Nat) (th : Thread σ Op Ans ε α γ) :
    Pool σ Op Ans ε α γ :=
  { w with threads := w.threads.set i th, answers := w.noted th.call }

variable (S : System σ Op Ans Env Req Ext ε α γ)

/-- One act. A call that has answered does nothing more. -/
def System.step (w : Pool σ Op Ans ε α γ) : Act Env Req Ext → Pool σ Op Ans ε α γ
  | .start r t => w.enter ⟨(S.entry r).settle t, w.store, S.first⟩
  | .go i e t =>
    match w.threads[i]? with
    | some ⟨.await o k, _, g⟩ =>
      let r := S.perform o e w.store
      { w with store := r.1 }.resume i ⟨(k r.2).settle t, r.1, S.note o g⟩
    | _ => w
  | .outside x => { w with store := S.outside x w.store }

/-- The pool after a list of acts. -/
def System.run (w : Pool σ Op Ans ε α γ) (as : List (Act Env Req Ext)) : Pool σ Op Ans ε α γ :=
  as.foldl S.step w

/-- What is asked of the acts of a run: of the calls started, of each await (with the store
as the call left it, what is remembered of the call, and the store now), and of what
happens outside. -/
structure Terms (σ Op Env Req Ext γ : Type) where
  Starts : Req → Prop
  Meets : σ → γ → σ → Op → Env → Prop
  Outside : Ext → σ → Prop

/-- The act keeps to the terms. -/
def System.Meets (T : Terms σ Op Env Req Ext γ) (w : Pool σ Op Ans ε α γ) :
    Act Env Req Ext → Prop
  | .start r _ => T.Starts r
  | .go i e _ =>
    match w.threads[i]? with
    | some ⟨.await o _, b, g⟩ => T.Meets b g w.store o e
    | _ => True
  | .outside x => T.Outside x w.store

/-- Every act of the run keeps to the terms. -/
def System.Kept (T : Terms σ Op Env Req Ext γ) :
    Pool σ Op Ans ε α γ → List (Act Env Req Ext) → Prop
  | _, [] => True
  | w, a :: as => System.Meets T w a ∧ System.Kept T (S.step w a) as

instance decidableMeets (T : Terms σ Op Env Req Ext γ) [∀ r, Decidable (T.Starts r)]
    [∀ b g s o e, Decidable (T.Meets b g s o e)] [∀ x s, Decidable (T.Outside x s)]
    (w : Pool σ Op Ans ε α γ) : ∀ a : Act Env Req Ext, Decidable (System.Meets T w a)
  | .start r _ => inferInstanceAs (Decidable (T.Starts r))
  | .go i e _ =>
    match h : w.threads[i]? with
    | some ⟨.await o _, b, g⟩ =>
      decidable_of_iff (T.Meets b g w.store o e) (by simp only [System.Meets, h])
    | some ⟨.ret _, _, _⟩ | some ⟨.fail _, _, _⟩ | some ⟨.clock _, _, _⟩ | none =>
      .isTrue (by simp only [System.Meets, h])
  | .outside x => inferInstanceAs (Decidable (T.Outside x w.store))

instance decidableKept (T : Terms σ Op Env Req Ext γ) [∀ r, Decidable (T.Starts r)]
    [∀ b g s o e, Decidable (T.Meets b g s o e)] [∀ x s, Decidable (T.Outside x s)] :
    ∀ (w : Pool σ Op Ans ε α γ) (as : List (Act Env Req Ext)), Decidable (S.Kept T w as)
  | _, [] => .isTrue trivial
  | w, a :: as =>
    haveI := decidableKept T (S.step w a) as
    inferInstanceAs (Decidable (_ ∧ _))

theorem System.run_append (w : Pool σ Op Ans ε α γ) (as bs : List (Act Env Req Ext)) :
    S.run w (as ++ bs) = S.run (S.run w as) bs := List.foldl_append ..

variable {S} in
theorem System.kept_append {T : Terms σ Op Env Req Ext γ} {w : Pool σ Op Ans ε α γ}
    {as bs : List (Act Env Req Ext)} :
    S.Kept T w (as ++ bs) ↔ S.Kept T w as ∧ S.Kept T (S.run w as) bs := by
  induction as generalizing w with
  | nil => exact ⟨fun h => ⟨trivial, h⟩, fun h => h.2⟩
  | cons a as ih =>
    change (System.Meets T w a ∧ S.Kept T (S.step w a) (as ++ bs)) ↔
      (System.Meets T w a ∧ S.Kept T (S.step w a) as) ∧ S.Kept T (S.run (S.step w a) as) bs
    rw [ih, and_assoc]

theorem System.step_go {S : System σ Op Ans Env Req Ext ε α γ} {w : Pool σ Op Ans ε α γ} {i : Nat}
    {o : Op} {k : Ans o → Call Op Ans ε α} {b : σ} {g : γ} {e : Env} {t : Nat → Nat}
    (hth : w.threads[i]? = some ⟨.await o k, b, g⟩) :
    (S.step w (.go i e t)).threads[i]? = some
      ⟨(k (S.perform o e w.store).2).settle t, (S.perform o e w.store).1, S.note o g⟩ := by
  simp only [System.step, hth]
  exact List.getElem?_set_self (List.getElem?_eq_some_iff.mp hth).1

/-- One call goes on and on; `P` holds of what it remembers. -/
theorem System.kept_replicate {S : System σ Op Ans Env Req Ext ε α γ}
    {T : Terms σ Op Env Req Ext γ} {P : γ → Prop} {e : Env} {i : Nat} {t : Nat → Nat}
    (hnote : ∀ o g, P g → P (S.note o g)) (hmeets : ∀ b g s o, P g → T.Meets b g s o e)
    {w : Pool σ Op Ans ε α γ} (hth : ∀ th, w.threads[i]? = some th → P th.seen) {n : Nat} :
    S.Kept T w (List.replicate n (.go i e t)) := by
  induction n generalizing w with
  | zero => trivial
  | succ n ih =>
    rcases hnow : w.threads[i]? with _ | ⟨c, b, g⟩
    · have hstep : S.step w (.go i e t) = w := by simp only [System.step, hnow]
      refine ⟨by simp only [System.Meets, hnow], ?_⟩
      rw [hstep]
      exact ih hth
    · have hg : P g := hth _ hnow
      cases c with
      | await o k =>
        refine ⟨by simp only [System.Meets, hnow]; exact hmeets b g w.store o hg, ih ?_⟩
        intro th hafter
        cases (S.step_go hnow).symm.trans hafter
        exact hnote o g hg
      | _ =>
        have hstep : S.step w (.go i e t) = w := by simp only [System.step, hnow]
        refine ⟨by simp only [System.Meets, hnow], ?_⟩
        rw [hstep]
        exact ih hth

/-- Calls only go on, and nothing is asked of their awaits. -/
theorem System.kept_goes {S : System σ Op Ans Env Req Ext ε α γ} {T : Terms σ Op Env Req Ext γ}
    (hmeets : ∀ b g s o e, T.Meets b g s o e) {w : Pool σ Op Ans ε α γ}
    {as : List (Act Env Req Ext)} (hgo : ∀ a ∈ as, ∃ i e t, a = .go i e t) : S.Kept T w as := by
  induction as generalizing w with
  | nil => trivial
  | cons a as ih =>
    obtain ⟨i, e, t, rfl⟩ := hgo a List.mem_cons_self
    refine ⟨?_, ih fun a ha => hgo a (List.mem_cons_of_mem _ ha)⟩
    rcases hth : w.threads[i]? with _ | ⟨c, b, g⟩
    · simp only [System.Meets, hth]
    · cases c with
      | await o k =>
        simp only [System.Meets, hth]
        exact hmeets b g w.store o e
      | _ => simp only [System.Meets, hth]

end Runs

/-! ### Safe calls -/

/-- A store invariant, what every act may do to the store, and what holds when a call
fails. -/
structure Discipline (σ Op : Type) (Ans : Op → Type) (Env Req Ext ε α γ : Type) where
  sys : System σ Op Ans Env Req Ext ε α γ
  terms : Terms σ Op Env Req Ext γ
  Inv : σ → Prop
  Rely : σ → σ → Prop
  Fault : σ → ε → Prop
  refl : ∀ s, Rely s s
  trans : ∀ {a b c}, Rely a b → Rely b c → Rely a c

namespace Discipline

variable {σ Op : Type} {Ans : Op → Type} {Env Req Ext ε α β γ δ : Type}
  (D : Discipline σ Op Ans Env Req Ext ε δ γ)

/-- From the store `b` its last await left on, every await of the call keeps `Inv` and
`Rely`, and what it answers satisfies `Q`. -/
def Safe (Q : σ → γ → α → Prop) : Call Op Ans ε α → σ → γ → Prop
  | .ret a, b, g => Q b g a
  | .fail e, b, _ => D.Fault b e
  | .clock k, b, g => ∀ t, Safe Q (k t) b g
  | .await o k, b, g =>
    ∀ s e, D.Inv s → D.Rely b s → D.terms.Meets b g s o e →
      D.Inv (D.sys.perform o e s).1 ∧ D.Rely s (D.sys.perform o e s).1 ∧
        Safe Q (k (D.sys.perform o e s).2) (D.sys.perform o e s).1 (D.sys.note o g)

variable {D} {Q Q' : σ → γ → α → Prop} {c : Call Op Ans ε α} {b : σ} {g : γ}

/-- An await that leaves the store as it is. -/
theorem safe_calm {o : Op} {k : Ans o → Call Op Ans ε α}
    (hcalm : ∀ e s, (D.sys.perform o e s).1 = s)
    (hk : ∀ s e, D.Inv s → D.Rely b s → D.terms.Meets b g s o e →
      D.Safe Q (k (D.sys.perform o e s).2) s (D.sys.note o g)) :
    D.Safe Q (.await o k) b g := by
  intro s e hi hr hm
  rw [hcalm]
  exact ⟨hi, D.refl s, hk s e hi hr hm⟩

theorem Safe.mono (h : D.Safe Q c b g) (hQ : ∀ s g a, Q s g a → Q' s g a) :
    D.Safe Q' c b g := by
  induction c generalizing b g with
  | ret a => exact hQ _ _ _ h
  | fail e => exact h
  | clock k ih => exact fun t => ih t (h t)
  | await o k ih =>
    intro s e hi hr hm
    obtain ⟨hi', hr', hk⟩ := h s e hi hr hm
    exact ⟨hi', hr', ih _ hk⟩

theorem Safe.bind {Q' : σ → γ → β → Prop} {f : α → Call Op Ans ε β} (h : D.Safe Q c b g)
    (hf : ∀ s g a, Q s g a → D.Safe Q' (f a) s g) : D.Safe Q' (c >>= f) b g := by
  induction c generalizing b g with
  | ret a => exact hf _ _ _ h
  | fail e => exact h
  | clock k ih => exact fun t => ih t (h t)
  | await o k ih =>
    intro s e hi hr hm
    obtain ⟨hi', hr', hk⟩ := h s e hi hr hm
    exact ⟨hi', hr', ih _ hk⟩

theorem Safe.map {Q' : σ → γ → β → Prop} {f : α → β} (h : D.Safe Q c b g)
    (hQ : ∀ s g a, Q s g a → Q' s g (f a)) : D.Safe Q' (f <$> c) b g :=
  h.bind (f := fun a => .ret (f a)) hQ

/-- A call ends in an orderly store that its acts and the others' led to. -/
theorem Safe.framed (h : D.Safe Q c b g) (hb : D.Inv b) :
    D.Safe (fun s g a => Q s g a ∧ D.Inv s ∧ D.Rely b s) c b g := by
  induction c generalizing b g with
  | ret a => exact ⟨h, hb, D.refl b⟩
  | fail e => exact h
  | clock k ih => exact fun t => ih t (h t) hb
  | await o k ih =>
    intro s e hi hr hm
    obtain ⟨hi', hr', hk⟩ := h s e hi hr hm
    refine ⟨hi', hr', (ih _ hk hi').mono ?_⟩
    rintro s' g' a ⟨hq, hs, hs'⟩
    exact ⟨hq, hs, D.trans hr (D.trans hr' hs')⟩

/-- **Sequencing.** -/
theorem Safe.seq {Q' : σ → γ → β → Prop} {f : α → Call Op Ans ε β} (h : D.Safe Q c b g)
    (hb : D.Inv b)
    (hf : ∀ s g a, Q s g a → D.Inv s → D.Rely b s → D.Safe Q' (f a) s g) :
    D.Safe Q' (c >>= f) b g :=
  (h.framed hb).bind fun s g a ⟨hq, hi, hr⟩ => hf s g a hq hi hr

theorem Safe.attempt (h : D.Safe Q c b g) :
    D.Safe (fun s g r =>
      match r with
      | .ok a => Q s g a
      | .error e => D.Fault s e) c.attempt b g := by
  induction c generalizing b g with
  | ret a => exact h
  | fail e => exact h
  | clock k ih => exact fun t => ih t (h t)
  | await o k ih =>
    intro s e hi hr hm
    obtain ⟨hi', hr', hk⟩ := h s e hi hr hm
    exact ⟨hi', hr', ih _ hk⟩

theorem Safe.settle (h : D.Safe Q c b g) (t : Nat → Nat) : D.Safe Q (c.settle t) b g := by
  induction c generalizing t with
  | ret a => exact h
  | fail e => exact h
  | clock k ih => exact ih _ (h _) _
  | await o k ih => exact h

/-! ### Pools of safe calls -/

/-- The store is in order, every call is safe from its last await on, and every answer
was as promised, in a store that led to this one. -/
structure Sound (D : Discipline σ Op Ans Env Req Ext ε α γ) (Q : σ → γ → α → Prop)
    (w : Pool σ Op Ans ε α γ) : Prop where
  inv : D.Inv w.store
  threads : ∀ th ∈ w.threads, D.Safe Q th.call th.base th.seen ∧ D.Rely th.base w.store
  past : ∀ x ∈ w.answers, D.Rely x.store w.store
  answers : ∀ x ∈ w.answers, ∀ a, x.result = .ok a → ∃ g, Q x.store g a
  faults : ∀ x ∈ w.answers, ∀ e, x.result = .error e → D.Fault x.store e

variable {D : Discipline σ Op Ans Env Req Ext ε α γ}

/-- An answer that has just been noted is an old one or the call's own. -/
theorem mem_noted {w : Pool σ Op Ans ε α γ} {x : Answered σ ε α} (h : x ∈ w.noted c) :
    x ∈ w.answers ∨ ∃ r, c.answer? = some r ∧ x = ⟨w.store, r⟩ := by
  unfold Pool.noted at h
  cases hc : c.answer? with
  | none =>
    rw [hc] at h
    exact .inl h
  | some r =>
    rw [hc] at h
    rcases List.mem_append.mp h with h | h
    · exact .inl h
    · exact .inr ⟨r, rfl, List.mem_singleton.mp h⟩

theorem Safe.answered {r : Except ε α} (h : D.Safe Q c b g) (hr : c.answer? = some r) :
    (∀ a, r = .ok a → Q b g a) ∧ ∀ e, r = .error e → D.Fault b e := by
  cases c with
  | ret x =>
    cases hr
    refine ⟨?_, nofun⟩
    rintro a ⟨⟩
    exact h
  | fail x =>
    cases hr
    refine ⟨nofun, ?_⟩
    rintro e ⟨⟩
    exact h
  | clock k => cases hr
  | await o k => cases hr

theorem noted_sound {w : Pool σ Op Ans ε α γ}
    (hans : ∀ x ∈ w.answers, ∀ a, x.result = .ok a → ∃ g, Q x.store g a)
    (hfault : ∀ x ∈ w.answers, ∀ e, x.result = .error e → D.Fault x.store e)
    (hc : D.Safe Q c w.store g) :
    (∀ x ∈ w.noted c, ∀ a, x.result = .ok a → ∃ g, Q x.store g a) ∧
      ∀ x ∈ w.noted c, ∀ e, x.result = .error e → D.Fault x.store e := by
  refine ⟨fun x hx a ha => ?_, fun x hx e he => ?_⟩
  · rcases mem_noted hx with hx | ⟨r, hr, rfl⟩
    · exact hans x hx a ha
    · exact ⟨g, (hc.answered hr).1 a ha⟩
  · rcases mem_noted hx with hx | ⟨r, hr, rfl⟩
    · exact hfault x hx e he
    · exact (hc.answered hr).2 e he

theorem noted_past {w : Pool σ Op Ans ε α γ} {s : σ}
    (hpast : ∀ x ∈ w.answers, D.Rely x.store s) (hs : D.Rely s w.store) :
    ∀ x ∈ w.noted c, D.Rely x.store w.store := by
  intro x hx
  rcases mem_noted hx with hx | ⟨r, -, rfl⟩
  · exact D.trans (hpast x hx) hs
  · exact D.refl _

/-- What the rest of the development has to show about the calls and the outside. -/
structure Rules (D : Discipline σ Op Ans Env Req Ext ε α γ) (Q : σ → γ → α → Prop) :
    Prop where
  entry : ∀ r s, D.terms.Starts r → D.Inv s → D.Safe Q (D.sys.entry r) s D.sys.first
  outside : ∀ x s, D.terms.Outside x s → D.Inv s →
    D.Inv (D.sys.outside x s) ∧ D.Rely s (D.sys.outside x s)

theorem step_sound (R : D.Rules Q) {w : Pool σ Op Ans ε α γ} (h : D.Sound Q w)
    (a : Act Env Req Ext) (hm : System.Meets D.terms w a) :
    D.Sound Q (D.sys.step w a) ∧ D.Rely w.store (D.sys.step w a).store := by
  cases a with
  | start r t =>
    have hc : D.Safe Q ((D.sys.entry r).settle t) w.store D.sys.first :=
      (R.entry r w.store hm h.inv).settle t
    obtain ⟨hans, hfault⟩ := noted_sound h.answers h.faults hc
    refine ⟨⟨h.inv, ?_, noted_past h.past (D.refl _), hans, hfault⟩, D.refl _⟩
    intro th hth
    rcases List.mem_append.mp hth with hth | hth
    · exact h.threads th hth
    · rw [List.mem_singleton.mp hth]
      exact ⟨hc, D.refl _⟩
  | outside x =>
    obtain ⟨hi, hr⟩ := R.outside x w.store hm h.inv
    refine ⟨⟨hi, ?_, fun x hx => D.trans (h.past x hx) hr, h.answers, h.faults⟩, hr⟩
    intro th hth
    exact ⟨(h.threads th hth).1, D.trans (h.threads th hth).2 hr⟩
  | go i e t =>
    -- only a thread that waits at an operation moves
    rcases hth : w.threads[i]? with _ | ⟨c, b, g⟩
    · simp only [System.step, hth]
      exact ⟨h, D.refl _⟩
    · simp only [System.Meets, hth] at hm
      simp only [System.step, hth]
      cases c with
      | ret x => exact ⟨h, D.refl _⟩
      | fail x => exact ⟨h, D.refl _⟩
      | clock k => exact ⟨h, D.refl _⟩
      | await o k =>
        obtain ⟨hs, hb⟩ := h.threads _ (List.mem_of_getElem? hth)
        obtain ⟨hi, hr, hk⟩ := hs w.store e h.inv hb hm
        have hk' := hk.settle t
        let w' : Pool σ Op Ans ε α γ := { w with store := (D.sys.perform o e w.store).1 }
        obtain ⟨hans, hfault⟩ :=
          noted_sound (w := w') h.answers h.faults hk'
        refine ⟨⟨hi, ?_, noted_past (w := w') h.past hr, hans, hfault⟩, hr⟩
        intro th hmem
        rcases List.mem_or_eq_of_mem_set hmem with hmem | rfl
        · exact ⟨(h.threads th hmem).1, D.trans (h.threads th hmem).2 hr⟩
        · exact ⟨hk', D.refl _⟩

/-- **Interleaving.** Safe calls may run in any order and stop at any await. -/
theorem run_sound (R : D.Rules Q) {w : Pool σ Op Ans ε α γ} (h : D.Sound Q w)
    {as : List (Act Env Req Ext)} (hk : D.sys.Kept D.terms w as) :
    D.Sound Q (D.sys.run w as) ∧ D.Rely w.store (D.sys.run w as).store := by
  induction as generalizing w with
  | nil => exact ⟨h, D.refl _⟩
  | cons a as ih =>
    obtain ⟨hs, hr⟩ := step_sound R h a hk.1
    obtain ⟨hs', hr'⟩ := ih hs hk.2
    exact ⟨hs', D.trans hr hr'⟩

theorem init_sound {s : σ} (h : D.Inv s) : D.Sound Q (Pool.init s) where
  inv := h
  threads := by
    intro th hth
    cases hth
  past := by
    intro x hx
    cases hx
  answers := by
    intro x hx
    cases hx
  faults := by
    intro x hx
    cases hx

end Discipline

/-- Both terms. -/
def Terms.and {σ Op Env Req Ext γ : Type} (T T' : Terms σ Op Env Req Ext γ) :
    Terms σ Op Env Req Ext γ where
  Starts r := T.Starts r ∧ T'.Starts r
  Meets b g s o e := T.Meets b g s o e ∧ T'.Meets b g s o e
  Outside x s := T.Outside x s ∧ T'.Outside x s

theorem System.kept_and {σ Op : Type} {Ans : Op → Type} {Env Req Ext ε α γ : Type}
    {S : System σ Op Ans Env Req Ext ε α γ} {T T' : Terms σ Op Env Req Ext γ}
    {w : Pool σ Op Ans ε α γ} {as : List (Act Env Req Ext)} (h : S.Kept T w as)
    (h' : S.Kept T' w as) : S.Kept (T.and T') w as := by
  induction as generalizing w with
  | nil => trivial
  | cons a as ih =>
    refine ⟨?_, ih h.2 h'.2⟩
    have hm := h.1
    have hm' := h'.1
    cases a with
    | start r t => exact ⟨hm, hm'⟩
    | outside x => exact ⟨hm, hm'⟩
    | go i e t =>
      rcases hth : w.threads[i]? with _ | ⟨c, b, g⟩
      · simp only [System.Meets, hth]
      · cases c with
        | ret a => simp only [System.Meets, hth]
        | fail x => simp only [System.Meets, hth]
        | clock k => simp only [System.Meets, hth]
        | await o k =>
          simp only [System.Meets, hth] at hm hm' ⊢
          exact ⟨hm, hm'⟩

/-! ### What calls ask -/

namespace Discipline

variable {σ Op : Type} {Ans : Op → Type} {Env Req Ext ε α γ : Type}

/-- Every await of the call asks for an operation that `P` allows in the store as it then is. -/
def Asks (D : Discipline σ Op Ans Env Req Ext ε α γ) (P : σ → Op → Prop) {β : Type} :
    Call Op Ans ε β → σ → γ → Prop
  | .ret _, _, _ => True
  | .fail _, _, _ => True
  | .clock k, b, g => ∀ t, Asks D P (k t) b g
  | .await o k, b, g =>
    ∀ s e, D.Inv s → D.Rely b s → D.terms.Meets b g s o e →
      P s o ∧ Asks D P (k (D.sys.perform o e s).2) (D.sys.perform o e s).1 (D.sys.note o g)

variable {D : Discipline σ Op Ans Env Req Ext ε α γ} {P : σ → Op → Prop}
  {c : Call Op Ans ε α} {b : σ} {g : γ}

theorem Asks.settle (h : D.Asks P c b g) (t : Nat → Nat) : D.Asks P (c.settle t) b g := by
  induction c generalizing t with
  | ret a => exact h
  | fail e => exact h
  | clock k ih => exact ih _ (h _) _
  | await o k ih => exact h

/-- Calls are safe that ask only for what keeps the store in order. -/
theorem Asks.safe (hop : ∀ g b s o e, D.Inv s → D.Rely b s → D.terms.Meets b g s o e → P s o →
      D.Inv (D.sys.perform o e s).1 ∧ D.Rely s (D.sys.perform o e s).1)
    (hfault : ∀ s e, D.Fault s e) (h : D.Asks P c b g) : D.Safe (fun _ _ _ => True) c b g := by
  induction c generalizing b g with
  | ret a => trivial
  | fail e => exact hfault _ _
  | clock k ih => exact fun t => ih t (h t)
  | await o k ih =>
    intro s e hi hr hm
    obtain ⟨hp, hk⟩ := h s e hi hr hm
    obtain ⟨hi', hr'⟩ := hop g b s o e hi hr hm hp
    exact ⟨hi', hr', ih _ hk⟩

/-- The terms, and that each operation is one that `P` allows. -/
def asked (T : Terms σ Op Env Req Ext γ) (P : σ → Op → Prop) : Terms σ Op Env Req Ext γ :=
  { T with Meets := fun b g s o e => T.Meets b g s o e ∧ P s o }

/-- **What calls ask, runs ask.** -/
theorem kept_asked {Q : σ → γ → α → Prop} (R : D.Rules Q)
    (hentry : ∀ r s, D.terms.Starts r → D.Inv s → D.Asks P (D.sys.entry r) s D.sys.first)
    {w : Pool σ Op Ans ε α γ} (hs : D.Sound Q w)
    (ha : ∀ th ∈ w.threads, D.Asks P th.call th.base th.seen) {as : List (Act Env Req Ext)}
    (hk : D.sys.Kept D.terms w as) : D.sys.Kept (asked D.terms P) w as := by
  induction as generalizing w with
  | nil => trivial
  | cons a as ih =>
    have hs' := (step_sound R hs a hk.1).1
    cases a with
    | start r t =>
      refine ⟨hk.1, ih hs' ?_ hk.2⟩
      intro th hth
      rcases List.mem_append.mp hth with hth | hth
      · exact ha th hth
      · rw [List.mem_singleton.mp hth]
        exact (hentry r w.store hk.1 hs.inv).settle t
    | outside x => exact ⟨hk.1, ih hs' ha hk.2⟩
    | go i e t =>
      rcases hth : w.threads[i]? with _ | ⟨c, b, g⟩
      · have hstep : D.sys.step w (.go i e t) = w := by simp only [System.step, hth]
        rw [System.Kept, hstep] at hk
        refine ⟨by simp only [System.Meets, hth], ?_⟩
        rw [hstep]
        exact ih hs ha hk.2
      · have hmem := List.mem_of_getElem? hth
        cases c with
        | await o k =>
          have hm : D.terms.Meets b g w.store o e := by
            have := hk.1
            simpa only [System.Meets, hth] using this
          obtain ⟨-, hb⟩ := hs.threads _ hmem
          obtain ⟨hp, hcont⟩ := ha _ hmem w.store e hs.inv hb hm
          refine ⟨by simp only [System.Meets, hth]; exact ⟨hm, hp⟩, ih hs' ?_ hk.2⟩
          intro th hth'
          simp only [System.step, hth] at hth'
          rcases List.mem_or_eq_of_mem_set hth' with hth' | rfl
          · exact ha th hth'
          · exact hcont.settle t
        | ret x =>
          have hstep : D.sys.step w (.go i e t) = w := by simp only [System.step, hth]
          rw [System.Kept, hstep] at hk
          refine ⟨by simp only [System.Meets, hth], ?_⟩
          rw [hstep]
          exact ih hs ha hk.2
        | fail x =>
          have hstep : D.sys.step w (.go i e t) = w := by simp only [System.step, hth]
          rw [System.Kept, hstep] at hk
          refine ⟨by simp only [System.Meets, hth], ?_⟩
          rw [hstep]
          exact ih hs ha hk.2
        | clock k' =>
          have hstep : D.sys.step w (.go i e t) = w := by simp only [System.step, hth]
          rw [System.Kept, hstep] at hk
          refine ⟨by simp only [System.Meets, hth], ?_⟩
          rw [hstep]
          exact ih hs ha hk.2

end Discipline

/-! ### One run over two stores -/

section Alike

variable {σ τ Op : Type} {Ans : Op → Type} {Env Req Ext ε α γ : Type}

/-- Two pools at the same point of their calls, over related stores. -/
structure Alike (R : σ → τ → Prop) (w : Pool σ Op Ans ε α γ) (v : Pool τ Op Ans ε α γ) : Prop where
  store : R w.store v.store
  threads : w.threads.map (fun th => (th.call, th.seen)) =
    v.threads.map fun th => (th.call, th.seen)
  results : w.answers.map Answered.result = v.answers.map Answered.result

/-- Two systems of the same calls, whose stores answer alike under the terms. -/
structure Parallel (S : System σ Op Ans Env Req Ext ε α γ) (S' : System τ Op Ans Env Req Ext ε α γ)
    (T : Terms σ Op Env Req Ext γ) (R : σ → τ → Prop) : Prop where
  entry : S.entry = S'.entry
  first : S.first = S'.first
  note : S.note = S'.note
  perform : ∀ b g s s' o e, T.Meets b g s o e → R s s' →
    R (S.perform o e s).1 (S'.perform o e s').1 ∧ (S.perform o e s).2 = (S'.perform o e s').2
  outside : ∀ x s s', T.Outside x s → R s s' → R (S.outside x s) (S'.outside x s')

variable {S : System σ Op Ans Env Req Ext ε α γ} {S' : System τ Op Ans Env Req Ext ε α γ}
  {T : Terms σ Op Env Req Ext γ} {R : σ → τ → Prop}

theorem noted_alike {w : Pool σ Op Ans ε α γ} {v : Pool τ Op Ans ε α γ}
    (h : w.answers.map Answered.result = v.answers.map Answered.result) (c : Call Op Ans ε α) :
    (w.noted c).map Answered.result = (v.noted c).map Answered.result := by
  unfold Pool.noted
  cases c.answer? with
  | none => exact h
  | some r =>
    dsimp only
    rw [List.map_append, List.map_append, h]
    rfl

theorem step_alike (P : Parallel S S' T R) {w : Pool σ Op Ans ε α γ} {v : Pool τ Op Ans ε α γ}
    (h : Alike R w v) (a : Act Env Req Ext) (hm : System.Meets T w a) :
    Alike R (S.step w a) (S'.step v a) := by
  cases a with
  | start r t =>
    simp only [System.step, ← P.entry, ← P.first]
    refine ⟨h.store, ?_, noted_alike h.results _⟩
    simp only [Pool.enter, List.map_append, h.threads, List.map_cons, List.map_nil]
  | outside x => exact ⟨P.outside x _ _ hm h.store, h.threads, h.results⟩
  | go i e t =>
    have hget := congrArg (fun l => l[i]?) h.threads
    simp only [List.getElem?_map] at hget
    simp only [System.Meets] at hm
    simp only [System.step]
    rcases hw : w.threads[i]? with _ | ⟨c, b, g⟩
    · rw [hw] at hget
      rcases hv : v.threads[i]? with _ | ⟨c', b', g'⟩
      · exact h
      · rw [hv] at hget
        cases hget
    · rw [hw] at hget hm
      rcases hv : v.threads[i]? with _ | ⟨c', b', g'⟩
      · rw [hv] at hget
        cases hget
      · rw [hv] at hget
        simp only [Option.map_some, Option.some.injEq, Prod.mk.injEq] at hget
        obtain ⟨rfl, rfl⟩ := hget
        cases c with
        | ret x => exact h
        | fail x => exact h
        | clock k => exact h
        | await o k =>
          obtain ⟨hstore, hreply⟩ := P.perform b g _ _ o e hm h.store
          dsimp only
          rw [← hreply, ← P.note]
          refine ⟨hstore, ?_, noted_alike (w := { w with store := (S.perform o e w.store).1 })
            (v := { v with store := (S'.perform o e v.store).1 }) h.results _⟩
          simp only [Pool.resume, List.map_set, h.threads]

/-- **Two stores that answer alike carry the same run.** -/
theorem run_alike (P : Parallel S S' T R) {w : Pool σ Op Ans ε α γ} {v : Pool τ Op Ans ε α γ}
    (h : Alike R w v) {as : List (Act Env Req Ext)} (hk : S.Kept T w as) :
    Alike R (S.run w as) (S'.run v as) := by
  induction as generalizing w v with
  | nil => exact h
  | cons a as ih => exact ih (step_alike P h a hk.1) hk.2

end Alike

/-! ### Calls on their own -/

section Alone

variable {σ Op : Type} {Ans : Op → Type} {Env Req Ext ε α β γ : Type}

namespace Call

/-- The call run to its end with nothing in between; every await is answered in `e`. -/
def alone (perform : (o : Op) → Env → σ → σ × Ans o) (e : Env) :
    Call Op Ans ε α → σ → σ × Except ε α
  | .ret a, s => (s, .ok a)
  | .fail x, s => (s, .error x)
  | .clock k, s => (k 0).alone perform e s
  | .await o k, s => (k (perform o e s).2).alone perform e (perform o e s).1

/-- How many awaits that takes. -/
def awaits (perform : (o : Op) → Env → σ → σ × Ans o) (e : Env) : Call Op Ans ε α → σ → Nat
  | .ret _, _ => 0
  | .fail _, _ => 0
  | .clock k, s => (k 0).awaits perform e s
  | .await o k, s => (k (perform o e s).2).awaits perform e (perform o e s).1 + 1

variable {perform : (o : Op) → Env → σ → σ × Ans o} {e : Env}

theorem alone_bind {c : Call Op Ans ε α} {f : α → Call Op Ans ε β} {s s' : σ} {a : α}
    (h : c.alone perform e s = (s', .ok a)) :
    (c >>= f).alone perform e s = (f a).alone perform e s' := by
  induction c generalizing s with
  | ret x =>
    cases h
    rfl
  | fail x => cases h
  | clock k ih => exact ih 0 h
  | await o k ih => exact ih _ h

end Call

variable (S : System σ Op Ans Env Req Ext ε α γ)

/-- A call is started and run to its end. -/
def System.solo (e : Env) (r : Req) (w : Pool σ Op Ans ε α γ) : Pool σ Op Ans ε α γ :=
  S.run w (.start r (fun _ => 0) ::
    List.replicate ((S.entry r).awaits S.perform e w.store) (.go w.threads.length e fun _ => 0))

variable {S} in
theorem System.run_alone {e : Env} {i : Nat} {c : Call Op Ans ε α} {w : Pool σ Op Ans ε α γ}
    {b : σ} {g : γ} (hth : w.threads[i]? = some ⟨c.settle fun _ => 0, b, g⟩) :
    (S.run w (List.replicate (c.awaits S.perform e w.store) (.go i e fun _ => 0))).store =
      (c.alone S.perform e w.store).1 := by
  induction c generalizing w b g with
  | ret a => rfl
  | fail x => rfl
  | clock k ih => exact ih 0 hth
  | await o k ih =>
    have hlt : i < w.threads.length := (List.getElem?_eq_some_iff.mp hth).1
    have hstep : S.step w (.go i e fun _ => 0) =
        { w with store := (S.perform o e w.store).1 }.resume i
          ⟨(k (S.perform o e w.store).2).settle fun _ => 0, (S.perform o e w.store).1,
            S.note o g⟩ := by
      simp only [System.step, hth, Call.settle]
    change (S.run (S.step w (.go i e fun _ => 0)) _).store = _
    rw [hstep]
    refine ih _ (List.getElem?_set_self ?_)
    exact hlt

theorem System.solo_store (e : Env) (r : Req) (w : Pool σ Op Ans ε α γ) :
    (S.solo e r w).store = ((S.entry r).alone S.perform e w.store).1 := by
  have hth : (S.step w (.start r fun _ => 0)).threads[w.threads.length]? =
      some ⟨(S.entry r).settle fun _ => 0, w.store, S.first⟩ := List.getElem?_concat_length
  exact System.run_alone (w := S.step w (.start r fun _ => 0)) hth

end Alone

end ChainPay.Lib
