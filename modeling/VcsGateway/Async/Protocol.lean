import VcsGateway.Async.Program

/-!
# Protocols of a coroutine

A protocol is an automaton over the operations of one coroutine: it says which
operations may be awaited next and how an answer moves it on.  A program
*conforms* when, whatever admissible answers it gets, it awaits only what the
protocol allows.  Conformance looks at one program and at no other, so the
interleaving argument (`Async.System`) can forget the program text and reason
about protocol states alone.
-/

namespace Async

variable {ε Op : Type} {Ret : Op → Type} {α β : Type}

structure Protocol (ε Op : Type) (Ret : Op → Type) where
  State : Type
  /-- The operation may be awaited in this state. -/
  allows : State → Op → Prop
  next : State → (op : Op) → Except ε (Ret op) → State
  /-- Answers the machine can give; the others need no account. -/
  admits : (op : Op) → Except ε (Ret op) → Prop

namespace Protocol

variable (P : Protocol ε Op Ret)

/-- Started in `s`, the program awaits only allowed operations and ends in a
    state and with a result that satisfy `Q`. -/
def Conforms (Q : Except ε α → P.State → Prop) : Prog ε Op Ret α → P.State → Prop
  | .ret r, s => Q r s
  | .await op k, s => P.allows s op ∧ ∀ r, P.admits op r → Conforms Q (k r) (P.next s op r)

variable {P}

@[simp] theorem conforms_ret {Q : Except ε α → P.State → Prop} {r : Except ε α} {s : P.State} :
    P.Conforms Q (.ret r) s ↔ Q r s := Iff.rfl

theorem conforms_await {Q : Except ε α → P.State → Prop} {op : Op}
    {k : Except ε (Ret op) → Prog ε Op Ret α} {s : P.State} :
    P.Conforms Q (.await op k) s ↔
      P.allows s op ∧ ∀ r, P.admits op r → P.Conforms Q (k r) (P.next s op r) := Iff.rfl

theorem Conforms.perform {Q : Except ε (Ret op) → P.State → Prop} {s : P.State}
    (hallow : P.allows s op) (hQ : ∀ r, P.admits op r → Q r (P.next s op r)) :
    P.Conforms Q (Prog.perform op) s :=
  ⟨hallow, hQ⟩

/-- The rule of consequence. -/
theorem Conforms.mono {Q Q' : Except ε α → P.State → Prop} {p : Prog ε Op Ret α} {s : P.State}
    (h : P.Conforms Q p s) (hQ : ∀ r s, Q r s → Q' r s) : P.Conforms Q' p s := by
  induction p generalizing s with
  | ret r => exact hQ r s h
  | await op k ih => exact ⟨h.1, fun r hr => ih r (h.2 r hr)⟩

/-- **Sequencing.**  Every composite statement (`>>=`, `handle`, `finallyDo`,
    context managers) is an `andThen`, so this one rule serves them all. -/
theorem Conforms.andThen {R : Except ε α → P.State → Prop} {Q : Except ε β → P.State → Prop}
    {p : Prog ε Op Ret α} {f : Except ε α → Prog ε Op Ret β} {s : P.State}
    (hp : P.Conforms R p s) (hf : ∀ r s', R r s' → P.Conforms Q (f r) s') :
    P.Conforms Q (p.andThen f) s := by
  induction p generalizing s with
  | ret r => exact hf r s hp
  | await op k ih => exact ⟨hp.1, fun r hr => ih r (hp.2 r hr)⟩

theorem Conforms.bind {R : Except ε α → P.State → Prop} {Q : Except ε β → P.State → Prop}
    {p : Prog ε Op Ret α} {f : α → Prog ε Op Ret β} {s : P.State}
    (hp : P.Conforms R p s)
    (hok : ∀ a s', R (.ok a) s' → P.Conforms Q (f a) s')
    (herr : ∀ e s', R (.error e) s' → Q (.error e) s') :
    P.Conforms Q (p >>= f) s := by
  refine hp.andThen fun r s' hr => ?_
  cases r with
  | ok a => exact hok a s' hr
  | error e => exact herr e s' hr

/-- A computation that awaits nothing, and what follows it. -/
theorem Conforms.ofExcept_bind {Q : Except ε β → P.State → Prop} {r : Except ε α}
    {f : α → Prog ε Op Ret β} {s : P.State} (hok : ∀ a, r = .ok a → P.Conforms Q (f a) s)
    (herr : ∀ e, r = .error e → Q (.error e) s) : P.Conforms Q (Prog.ofExcept r >>= f) s := by
  cases r with
  | ok a => exact hok a rfl
  | error e => exact herr e rfl

theorem Conforms.handle {R Q : Except ε α → P.State → Prop}
    {p : Prog ε Op Ret α} {h : ε → Prog ε Op Ret α} {s : P.State}
    (hp : P.Conforms R p s)
    (hok : ∀ a s', R (.ok a) s' → Q (.ok a) s')
    (herr : ∀ e s', R (.error e) s' → P.Conforms Q (h e) s') :
    P.Conforms Q (p.handle h) s := by
  refine hp.andThen fun r s' hr => ?_
  cases r with
  | ok a => exact hok a s' hr
  | error e => exact herr e s' hr

/-- Two postconditions proved separately hold together. -/
theorem Conforms.and {Q Q' : Except ε α → P.State → Prop} {p : Prog ε Op Ret α} {s : P.State}
    (h : P.Conforms Q p s) (h' : P.Conforms Q' p s) :
    P.Conforms (fun r s => Q r s ∧ Q' r s) p s := by
  induction p generalizing s with
  | ret r => exact ⟨h, h'⟩
  | await op k ih => exact ⟨h.1, fun r hr => ih r (h.2 r hr) (h'.2 r hr)⟩

/-- A loop conforms when its body keeps an invariant; an exception of the body
    leaves the loop. -/
theorem Conforms.forEach {I : List β → P.State → Prop} {E : ε → P.State → Prop}
    {body : β → Prog ε Op Ret Unit}
    (hbody : ∀ x xs s, I (x :: xs) s →
      P.Conforms (fun r s' => match r with
        | .ok _ => I xs s'
        | .error e => E e s') (body x) s) :
    ∀ (xs : List β) (s : P.State), I xs s →
      P.Conforms (fun r s' => match r with
        | .ok _ => I [] s'
        | .error e => E e s') (Prog.forEach xs body) s := by
  intro xs
  induction xs with
  | nil => intro s hs; exact hs
  | cons x xs ih =>
    intro s hs
    refine (hbody x xs s hs).andThen fun r s' hr => ?_
    cases r with
    | ok _ => exact ih s' hr
    | error e => exact hr

end Protocol

/-- The protocol that watches nothing but the operations themselves. -/
def Protocol.watching (ok : Op → Prop) : Protocol ε Op Ret where
  State := Unit
  allows _ op := ok op
  next _ _ _ := ()
  admits _ _ := True

/-- `Only ok p`: every operation that `p` can ever await satisfies `ok`. -/
def Prog.Only (ok : Op → Prop) (p : Prog ε Op Ret α) : Prop :=
  (Protocol.watching ok).Conforms (fun _ _ => True) p ()

namespace Prog

variable {ok : Op → Prop}

@[simp] theorem only_ret (r : Except ε α) : (Prog.ret r : Prog ε Op Ret α).Only ok := trivial

theorem only_await {op : Op} {k : Except ε (Ret op) → Prog ε Op Ret α} :
    (Prog.await op k).Only ok ↔ ok op ∧ ∀ r, (k r).Only ok := by
  simp [Only, Protocol.conforms_await, Protocol.watching]

theorem only_perform {op : Op} : (perform op : Prog ε Op Ret (Ret op)).Only ok ↔ ok op := by
  simp [perform, only_await]

theorem Only.andThen {p : Prog ε Op Ret α} {f : Except ε α → Prog ε Op Ret β}
    (hp : p.Only ok) (hf : ∀ r, (f r).Only ok) : (p.andThen f).Only ok :=
  Protocol.Conforms.andThen hp fun r _ _ => hf r

theorem Only.bind {p : Prog ε Op Ret α} {f : α → Prog ε Op Ret β}
    (hp : p.Only ok) (hf : ∀ a, (f a).Only ok) : (p >>= f).Only ok :=
  Protocol.Conforms.bind hp (fun a _ _ => hf a) (fun _ _ _ => trivial)

theorem Only.handle {p : Prog ε Op Ret α} {h : ε → Prog ε Op Ret α}
    (hp : p.Only ok) (hh : ∀ e, (h e).Only ok) : (p.handle h).Only ok :=
  Protocol.Conforms.handle hp (fun _ _ _ => trivial) (fun e _ _ => hh e)

theorem Only.finallyDo {p : Prog ε Op Ret α} {cleanup : Prog ε Op Ret Unit}
    (hp : p.Only ok) (hc : cleanup.Only ok) : (p.finallyDo cleanup).Only ok :=
  hp.andThen fun _ => hc.andThen fun r => by cases r <;> exact trivial

theorem Only.forEach {body : β → Prog ε Op Ret Unit} {xs : List β}
    (hbody : ∀ x, (body x).Only ok) : (forEach xs body).Only ok := by
  induction xs with
  | nil => exact trivial
  | cons x xs ih => exact (hbody x).bind fun _ => ih

theorem Only.mono {ok' : Op → Prop} {p : Prog ε Op Ret α} (hp : p.Only ok)
    (h : ∀ op, ok op → ok' op) : p.Only ok' := by
  induction p with
  | ret r => exact trivial
  | await op k ih =>
    rw [only_await] at hp ⊢
    exact ⟨h op hp.1, fun r => ih r (hp.2 r)⟩

end Prog

/-- `Ends Q p`: however the operations answer, the result of `p` satisfies `Q`. -/
def Prog.Ends (Q : Except ε α → Prop) (p : Prog ε Op Ret α) : Prop :=
  (Protocol.watching fun _ => True).Conforms (fun r _ => Q r) p ()

namespace Prog

theorem ends_ret {Q : Except ε α → Prop} {r : Except ε α} :
    (Prog.ret r : Prog ε Op Ret α).Ends Q ↔ Q r := Iff.rfl

theorem ends_await {Q : Except ε α → Prop} {op : Op}
    {k : Except ε (Ret op) → Prog ε Op Ret α} :
    (Prog.await op k).Ends Q ↔ ∀ r, (k r).Ends Q := by
  simp [Ends, Protocol.conforms_await, Protocol.watching]

theorem Ends.andThen {R : Except ε α → Prop} {Q : Except ε β → Prop} {p : Prog ε Op Ret α}
    {f : Except ε α → Prog ε Op Ret β} (hp : p.Ends R) (hf : ∀ r, R r → (f r).Ends Q) :
    (p.andThen f).Ends Q :=
  Protocol.Conforms.andThen hp fun r _ hr => hf r hr

theorem ends_true (p : Prog ε Op Ret α) : p.Ends fun _ => True := by
  induction p with
  | ret r => exact trivial
  | await op k ih => exact ends_await.mpr fun r => ih r

end Prog

/-- What is known of the results alone may be added to any postcondition. -/
theorem Protocol.Conforms.and_ends {P : Protocol ε Op Ret} {Q : Except ε α → P.State → Prop}
    {R : Except ε α → Prop} {p : Prog ε Op Ret α} {s : P.State} (h : P.Conforms Q p s)
    (hR : p.Ends R) : P.Conforms (fun r s => Q r s ∧ R r) p s := by
  induction p generalizing s with
  | ret r => exact ⟨h, hR⟩
  | await op k ih => exact ⟨h.1, fun r hr => ih r (h.2 r hr) (Prog.ends_await.mp hR r)⟩

/-- A program whose operations are all allowed within a set of states, and do not lead
    out of it. -/
theorem Protocol.Conforms.within {P : Protocol ε Op Ret} {I : P.State → Prop}
    {p : Prog ε Op Ret α} {s : P.State}
    (hp : p.Only fun op => ∀ s, I s → P.allows s op ∧ ∀ r, P.admits op r → I (P.next s op r))
    (hs : I s) : P.Conforms (fun _ => I) p s := by
  induction p generalizing s with
  | ret r => exact hs
  | await op k ih =>
    rw [Prog.only_await] at hp
    obtain ⟨hallow, hnext⟩ := hp.1 s hs
    exact ⟨hallow, fun r hr => ih r (hp.2 r) (hnext r hr)⟩

/-- A program that awaits nothing but operations which are always allowed and
    never move the protocol may be inserted anywhere. -/
theorem Protocol.Conforms.idle {P : Protocol ε Op Ret} {p : Prog ε Op Ret α} {s : P.State}
    (hp : p.Only fun op => P.allows s op ∧ ∀ r, P.next s op r = s) :
    P.Conforms (fun _ s' => s' = s) p s := by
  apply Conforms.within (I := fun s' => s' = s) (hp.mono ?_) rfl
  intro op hop s' hs'
  rw [hs']
  exact ⟨hop.1, fun r _ => hop.2 r⟩

end Async
