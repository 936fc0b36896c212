import VcsGateway.Async.History

/-!
# Exceptions and the answers behind them

An account says which answers are bad and which exceptions are odd.  A program that blames
its odd exceptions on bad answers raises one exactly when it got one, and programs that do
compose.
-/

namespace Async

variable {ε Op : Type} {Ret : Op → Type} {α β : Type}

/-- Which answers are possible and which of them are bad, which exceptions count as odd, and
    which ones end the account. -/
structure Account (ε Op : Type) (Ret : Op → Type) where
  possible : Step ε Op Ret → Prop
  bad : Step ε Op Ret → Prop
  odd : ε → Prop
  void : ε → Prop

/-- A run that the account is about. -/
structure Account.Counts (A : Account ε Op Ret) (steps : List (Step ε Op Ret)) (r : Except ε α) :
    Prop where
  possible : ∀ step ∈ steps, A.possible step
  alive : ∀ e, r = .error e → ¬A.void e

/-- The result is an odd exception. -/
def Account.Odd (A : Account ε Op Ret) (r : Except ε α) : Prop := ∃ e, r = .error e ∧ A.odd e

def Account.Bad (A : Account ε Op Ret) (steps : List (Step ε Op Ret)) : Prop :=
  ∃ step ∈ steps, A.bad step

/-- `p` raises an odd exception when it gets a bad answer, and only then. -/
def Prog.Blames (A : Account ε Op Ret) (p : Prog ε Op Ret α) : Prop :=
  ∀ steps r, p.Follows steps r → A.Counts steps r → (A.Bad steps ↔ A.Odd r)

section Blames

variable {A : Account ε Op Ret} {p : Prog ε Op Ret α}

theorem Account.bad_append {first rest : List (Step ε Op Ret)} :
    A.Bad (first ++ rest) ↔ A.Bad first ∨ A.Bad rest := by
  simp [Account.Bad, or_and_right, exists_or]

theorem Account.bad_cons {step : Step ε Op Ret} {rest : List (Step ε Op Ret)} :
    A.Bad (step :: rest) ↔ A.bad step ∨ A.Bad rest := by
  simp [Account.Bad]

theorem Account.bad_nil : ¬A.Bad [] := by
  simp [Account.Bad]

theorem Account.odd_error {e : ε} : A.Odd (.error e : Except ε α) ↔ A.odd e := by
  simp [Account.Odd]

theorem Account.not_odd_ok {a : α} : ¬A.Odd (.ok a : Except ε α) := by
  simp [Account.Odd]

theorem Account.Counts.rest {first rest : List (Step ε Op Ret)} {r : Except ε α}
    (h : A.Counts (first ++ rest) r) : A.Counts rest r :=
  ⟨fun step hstep => h.possible step (List.mem_append_right _ hstep), h.alive⟩

theorem Prog.Blames.ret {r : Except ε α} (h : ¬A.Odd r) :
    (Prog.ret r : Prog ε Op Ret α).Blames A := by
  intro steps r' hf _
  obtain ⟨rfl, rfl⟩ := follows_ret.mp hf
  exact ⟨fun hbad => absurd hbad Account.bad_nil, fun hodd => absurd hodd h⟩

/-- After a bad answer only an odd end is left; after any other one, `p` blames on. -/
theorem Prog.Blames.await {op : Op} {k : Except ε (Ret op) → Prog ε Op Ret α}
    (hbad : ∀ a, A.possible ⟨op, a⟩ → A.bad ⟨op, a⟩ →
      ∀ steps r, (k a).Follows steps r → A.Counts steps r → A.Odd r)
    (hgood : ∀ a, A.possible ⟨op, a⟩ → ¬A.bad ⟨op, a⟩ → (k a).Blames A) :
    (Prog.await op k).Blames A := by
  intro steps r hf hcounts
  obtain ⟨a, rest, rfl, hrest⟩ := follows_await.mp hf
  have ha : A.possible ⟨op, a⟩ := hcounts.possible _ List.mem_cons_self
  have hcounts' : A.Counts rest r := by
    rw [← List.singleton_append] at hcounts
    exact hcounts.rest
  rw [Account.bad_cons]
  by_cases hb : A.bad ⟨op, a⟩
  · exact ⟨fun _ => hbad a ha hb rest r hrest hcounts', fun _ => .inl hb⟩
  · rw [← hgood a ha hb rest r hrest hcounts']
    exact ⟨fun h => h.resolve_left hb, .inr⟩

theorem Prog.Blames.perform {op : Op} (h : ∀ a, A.possible ⟨op, a⟩ →
    (∀ e, a = .error e → ¬A.void e) → (A.bad ⟨op, a⟩ ↔ A.Odd a)) :
    (Prog.perform op : Prog ε Op Ret (Ret op)).Blames A := by
  intro steps r hf hcounts
  obtain rfl := follows_perform.mp hf
  rw [← h r (hcounts.possible _ List.mem_cons_self) hcounts.alive, Account.bad_cons]
  exact or_iff_left Account.bad_nil

/-- **Sequencing.**  What follows an odd end of `p` must end oddly, and what follows a void
    one may end in no other way than void or after a bad answer of its own. -/
theorem Prog.Blames.andThen {f : Except ε α → Prog ε Op Ret β} (hp : p.Blames A)
    (hok : ∀ a, (f (.ok a)).Blames A)
    (hodd : ∀ e, A.odd e → ∀ steps r, (f (.error e)).Follows steps r → A.Counts steps r → A.Odd r)
    (hvoid : ∀ e, A.void e → ∀ steps r, (f (.error e)).Follows steps r → A.Counts steps r →
      A.Bad steps ∧ A.Odd r)
    (helse : ∀ e, ¬A.odd e → ¬A.void e → (f (.error e)).Blames A) : (p.andThen f).Blames A := by
  intro steps r h hcounts
  obtain ⟨first, rest, a, rfl, hfirst, hrest⟩ := follows_andThen.mp h
  have hrest' : A.Counts rest r := hcounts.rest
  have hpossible : ∀ step ∈ first, A.possible step :=
    fun step hstep => hcounts.possible step (List.mem_append_left _ hstep)
  rw [Account.bad_append]
  cases a with
  | ok a =>
    have hgood : ¬A.Bad first := by
      rw [hp first _ hfirst ⟨hpossible, by simp⟩]
      exact Account.not_odd_ok
    rw [← hok a rest r hrest hrest']
    exact ⟨fun h => h.resolve_left hgood, .inr⟩
  | error e =>
    by_cases hv : A.void e
    · obtain ⟨hbad, hr⟩ := hvoid e hv rest r hrest hrest'
      exact ⟨fun _ => hr, fun _ => .inr hbad⟩
    have hiff : A.Bad first ↔ A.odd e := by
      rw [hp first _ hfirst ⟨hpossible, fun e' he' => Except.error.inj he' ▸ hv⟩]
      exact Account.odd_error
    by_cases ho : A.odd e
    · exact ⟨fun _ => hodd e ho rest r hrest hrest', fun _ => .inl (hiff.mpr ho)⟩
    · rw [← helse e ho hv rest r hrest hrest']
      exact ⟨fun h => h.resolve_left fun hbad => ho (hiff.mp hbad), .inr⟩

theorem Prog.Blames.bind {f : α → Prog ε Op Ret β} (hp : p.Blames A) (hf : ∀ a, (f a).Blames A) :
    (p >>= f).Blames A := by
  refine Prog.Blames.andThen hp hf ?_ ?_ ?_
  · intro e he steps r h _
    obtain ⟨-, rfl⟩ := follows_ret.mp h
    exact ⟨e, rfl, he⟩
  · intro e he steps r h hcounts
    obtain ⟨-, rfl⟩ := follows_ret.mp h
    exact absurd he (hcounts.alive e rfl)
  · intro e he _
    exact .ret (Account.odd_error.not.mpr he)

theorem Prog.Blames.forEach {body : β → Prog ε Op Ret Unit} (hbody : ∀ x, (body x).Blames A)
    (xs : List β) : (Prog.forEach xs body).Blames A := by
  induction xs with
  | nil => exact .ret Account.not_odd_ok
  | cons x xs ih => exact (hbody x).bind fun _ => ih

/-- A program that gets no bad answers and raises nothing odd. -/
theorem Prog.Blames.quiet {ok : Op → Prop} {Q : Except ε α → Prop} (honly : p.Only ok)
    (hok : ∀ op a, ok op → ¬A.bad ⟨op, a⟩) (hends : p.Ends Q)
    (hQ : ∀ e, Q (.error e) → ¬A.void e → ¬A.odd e) : p.Blames A := by
  intro steps r hf hcounts
  constructor
  · rintro ⟨step, hstep, hbad⟩
    exact absurd hbad (hok step.op step.result (honly.follows hf step hstep))
  · rintro ⟨e, rfl, hodd⟩
    exact absurd hodd (hQ e (hends.follows hf) (hcounts.alive e rfl))

end Blames

/-! ### Results under possible answers -/

/-- The protocol that watches nothing and knows which answers are possible. -/
@[reducible] def Protocol.answering (possible : Step ε Op Ret → Prop) : Protocol ε Op Ret where
  State := Unit
  allows _ _ := True
  next _ _ _ := ()
  admits op r := possible ⟨op, r⟩

/-- Under possible answers the result of `p` satisfies `Q`. -/
def Prog.Gives (possible : Step ε Op Ret → Prop) (Q : Except ε α → Prop) (p : Prog ε Op Ret α) : Prop :=
  (Protocol.answering possible).Conforms (fun r _ => Q r) p ()

section Gives

variable {possible : Step ε Op Ret → Prop} {Q : Except ε α → Prop} {p : Prog ε Op Ret α}

theorem Prog.Gives.follows (h : p.Gives possible Q) {steps : List (Step ε Op Ret)} {r : Except ε α}
    (hf : p.Follows steps r) (hsteps : ∀ step ∈ steps, possible step) : Q r := by
  induction hf with
  | ret r => exact h
  | await a _ ih =>
    refine ih (h.2 a (hsteps _ List.mem_cons_self)) fun step hstep => ?_
    exact hsteps step (List.mem_cons_of_mem _ hstep)

theorem Prog.Gives.mono {Q' : Except ε α → Prop} (h : p.Gives possible Q) (hQ : ∀ r, Q r → Q' r) :
    p.Gives possible Q' :=
  Protocol.Conforms.mono h fun r _ hr => hQ r hr

theorem Prog.Ends.gives (h : p.Ends Q) : p.Gives possible Q := by
  induction p with
  | ret r => exact h
  | await op k ih => exact ⟨trivial, fun r _ => ih r (ends_await.mp h r)⟩

theorem Prog.Gives.andThen {R : Except ε β → Prop} {f : Except ε α → Prog ε Op Ret β}
    (hp : p.Gives possible Q) (hf : ∀ r, Q r → (f r).Gives possible R) :
    (p.andThen f).Gives possible R :=
  Protocol.Conforms.andThen hp fun r _ hr => hf r hr

theorem Prog.Gives.bind {R : Except ε β → Prop} {f : α → Prog ε Op Ret β}
    (hp : p.Gives possible Q) (hok : ∀ a, Q (.ok a) → (f a).Gives possible R)
    (herr : ∀ e, Q (.error e) → R (.error e)) : (p >>= f).Gives possible R :=
  Protocol.Conforms.bind hp (fun a _ ha => hok a ha) (fun e _ he => herr e he)

/-- A normal result. -/
def Returns (r : Except ε α) : Prop := ∃ a, r = .ok a

/-- What returns may stand in front of anything. -/
theorem Returns.bind {R : Except ε β → Prop} {f : α → Prog ε Op Ret β}
    (hp : p.Gives possible Returns) (hf : ∀ a, (f a).Gives possible R) :
    (p >>= f).Gives possible R := by
  refine Prog.Gives.bind hp (fun a _ => hf a) ?_
  rintro e ⟨a, ha⟩
  simp at ha

theorem Returns.forEach {body : β → Prog ε Op Ret Unit}
    (hbody : ∀ x, (body x).Gives possible Returns) (xs : List β) :
    (Prog.forEach xs body).Gives possible Returns := by
  induction xs with
  | nil => exact ⟨(), rfl⟩
  | cons x xs ih => exact Returns.bind (hbody x) fun _ => ih

end Gives

/-! ### Answers behind a normal end -/

/-- When `p` ends normally, its answers were `good`. -/
def Prog.Vouches (good : Step ε Op Ret → Prop) (p : Prog ε Op Ret α) : Prop :=
  ∀ steps a, p.Follows steps (.ok a) → ∀ step ∈ steps, good step

section Vouches

variable {good : Step ε Op Ret → Prop} {p : Prog ε Op Ret α}

theorem Prog.Vouches.ret (r : Except ε α) : (Prog.ret r : Prog ε Op Ret α).Vouches good := by
  intro steps a h
  obtain ⟨rfl, -⟩ := follows_ret.mp h
  simp

theorem Prog.Vouches.perform {op : Op} (h : ∀ a, good ⟨op, .ok a⟩) :
    (Prog.perform op : Prog ε Op Ret (Ret op)).Vouches good := by
  intro steps a hf
  obtain rfl := follows_perform.mp hf
  intro step hstep
  obtain rfl := List.mem_singleton.mp hstep
  exact h a

theorem Prog.Vouches.bind {f : α → Prog ε Op Ret β} (hp : p.Vouches good)
    (hf : ∀ a, (f a).Vouches good) : (p >>= f).Vouches good := by
  intro steps b h
  rcases follows_bind.mp h with ⟨first, rest, a, rfl, hfirst, hrest⟩ | ⟨e, heq, -⟩
  · intro step hstep
    rcases List.mem_append.mp hstep with hstep | hstep
    · exact hp first a hfirst step hstep
    · exact hf a rest b hrest step hstep
  · simp at heq

theorem Prog.Vouches.forEach {body : β → Prog ε Op Ret Unit} (hbody : ∀ x, (body x).Vouches good)
    (xs : List β) : (Prog.forEach xs body).Vouches good := by
  induction xs with
  | nil => exact .ret _
  | cons x xs ih => exact (hbody x).bind fun _ => ih

end Vouches

end Async
