import VcsGateway.Async.System
import Mathlib.Data.List.Induction

/-!
# What a coroutine has done so far

A guard says what a coroutine may await after a history of answered operations.  When
every program respects its guard from the empty history on, then in every run each
logged operation was awaited under its guard (`guarded_run`).
-/

namespace Async

variable {ε Op : Type} {Ret : Op → Type} {α β : Type}

/-- An operation and its answer. -/
structure Step (ε Op : Type) (Ret : Op → Type) where
  op : Op
  result : Except ε (Ret op)

/-- With these answers, the program ends with this result. -/
inductive Prog.Follows : Prog ε Op Ret α → List (Step ε Op Ret) → Except ε α → Prop
  | ret (r : Except ε α) : Follows (.ret r) [] r
  | await {op : Op} {k : Except ε (Ret op) → Prog ε Op Ret α} (a : Except ε (Ret op))
      {steps : List (Step ε Op Ret)} {r : Except ε α} :
      Follows (k a) steps r → Follows (.await op k) (⟨op, a⟩ :: steps) r

section Follows

variable {p : Prog ε Op Ret α} {steps : List (Step ε Op Ret)} {r : Except ε α}

@[simp] theorem Prog.follows_ret {r' : Except ε α} :
    (Prog.ret r : Prog ε Op Ret α).Follows steps r' ↔ steps = [] ∧ r' = r := by
  constructor
  · intro h
    cases h
    exact ⟨rfl, rfl⟩
  · rintro ⟨rfl, rfl⟩
    exact .ret r'

theorem Prog.follows_await {op : Op} {k : Except ε (Ret op) → Prog ε Op Ret α} :
    (Prog.await op k).Follows steps r ↔
      ∃ a rest, steps = ⟨op, a⟩ :: rest ∧ (k a).Follows rest r := by
  constructor
  · intro h
    cases h with
    | await a h => exact ⟨a, _, rfl, h⟩
  · rintro ⟨a, rest, rfl, h⟩
    exact .await a h

/-- **Sequencing.**  The answers of a composite program split where its first part ends. -/
theorem Prog.follows_andThen {f : Except ε α → Prog ε Op Ret β} {r : Except ε β} :
    (p.andThen f).Follows steps r ↔
      ∃ first rest a, steps = first ++ rest ∧ p.Follows first a ∧ (f a).Follows rest r := by
  induction p generalizing steps with
  | ret a =>
    simp only [ret_andThen, follows_ret]
    constructor
    · intro h
      exact ⟨[], steps, a, rfl, ⟨rfl, rfl⟩, h⟩
    · rintro ⟨first, rest, a', rfl, ⟨rfl, rfl⟩, h⟩
      exact h
  | await op k ih =>
    simp only [await_andThen, follows_await]
    constructor
    · rintro ⟨a, rest, rfl, h⟩
      obtain ⟨first, rest, b, rfl, hk, hf⟩ := (ih a).mp h
      exact ⟨⟨op, a⟩ :: first, rest, b, rfl, ⟨a, first, rfl, hk⟩, hf⟩
    · rintro ⟨first, rest, b, rfl, ⟨a, first, rfl, hk⟩, hf⟩
      exact ⟨a, first ++ rest, rfl, (ih a).mpr ⟨first, rest, b, rfl, hk, hf⟩⟩

theorem Prog.follows_bind {f : α → Prog ε Op Ret β} {r : Except ε β} :
    (p >>= f).Follows steps r ↔
      (∃ first rest a, steps = first ++ rest ∧ p.Follows first (.ok a) ∧ (f a).Follows rest r) ∨
        ∃ e, r = .error e ∧ p.Follows steps (.error e) := by
  rw [bind_def, follows_andThen]
  constructor
  · rintro ⟨first, rest, a, rfl, hp, hf⟩
    cases a with
    | ok a => exact .inl ⟨first, rest, a, rfl, hp, hf⟩
    | error e =>
      obtain ⟨rfl, rfl⟩ := follows_ret.mp hf
      exact .inr ⟨e, rfl, by simpa using hp⟩
  · rintro (⟨first, rest, a, rfl, hp, hf⟩ | ⟨e, rfl, hp⟩)
    · exact ⟨first, rest, .ok a, rfl, hp, hf⟩
    · exact ⟨steps, [], .error e, by simp, hp, .ret _⟩

theorem Prog.follows_perform {op : Op} {r : Except ε (Ret op)} :
    (Prog.perform op : Prog ε Op Ret (Ret op)).Follows steps r ↔ steps = [⟨op, r⟩] := by
  simp only [perform, follows_await, follows_ret]
  constructor
  · rintro ⟨a, rest, rfl, rfl, rfl⟩
    rfl
  · rintro rfl
    exact ⟨r, [], rfl, rfl, rfl⟩

theorem Prog.follows_ofExcept_bind {x : Except ε α} {f : α → Prog ε Op Ret β} {r : Except ε β} :
    (Prog.ofExcept x >>= f).Follows steps r ↔
      (∃ a, x = .ok a ∧ (f a).Follows steps r) ∨ ∃ e, x = .error e ∧ steps = [] ∧ r = .error e := by
  cases x with
  | ok a =>
    constructor
    · exact fun h => .inl ⟨a, rfl, h⟩
    · rintro (⟨b, heq, h⟩ | ⟨e, heq, -⟩)
      · obtain rfl := Except.ok.inj heq
        exact h
      · simp at heq
  | error e =>
    constructor
    · intro h
      obtain ⟨rfl, rfl⟩ := follows_ret.mp h
      exact .inr ⟨e, rfl, rfl, rfl⟩
    · rintro (⟨b, heq, -⟩ | ⟨e', heq, rfl, rfl⟩)
      · simp at heq
      · obtain rfl := Except.error.inj heq
        exact .ret _

/-- What is known of the results holds of the result of every run. -/
theorem Prog.Ends.follows {Q : Except ε α → Prop} (hp : p.Ends Q) (h : p.Follows steps r) : Q r := by
  induction h with
  | ret r => exact hp
  | await a _ ih => exact ih (ends_await.mp hp a)

theorem Prog.Only.follows {ok : Op → Prop} (hp : p.Only ok) (h : p.Follows steps r) :
    ∀ step ∈ steps, ok step.op := by
  induction h with
  | ret r => simp
  | @await op k a steps r _ ih =>
    rw [only_await] at hp
    intro step hstep
    rcases List.mem_cons.mp hstep with rfl | hstep
    · exact hp.1
    · exact ih (hp.2 a) step hstep

/-- The answers decide how far a program gets: it cannot end twice. -/
theorem Prog.Follows.unique {steps' rest rest' : List (Step ε Op Ret)} {r' : Except ε α}
    (h : p.Follows steps r) (h' : p.Follows steps' r') (heq : steps ++ rest = steps' ++ rest') :
    steps = steps' ∧ r = r' ∧ rest = rest' := by
  induction h generalizing steps' with
  | ret r =>
    obtain ⟨rfl, rfl⟩ := follows_ret.mp h'
    exact ⟨rfl, rfl, heq⟩
  | await a _ ih =>
    obtain ⟨a', steps', rfl, hk⟩ := follows_await.mp h'
    simp only [List.cons_append, List.cons.injEq, Step.mk.injEq, heq_eq_eq, true_and] at heq
    obtain ⟨rfl, heq⟩ := heq
    obtain ⟨rfl, rfl, rfl⟩ := ih hk heq
    exact ⟨rfl, rfl, rfl⟩

end Follows

/-- With these answers, the program has come to `q`. -/
inductive Prog.Reaches : Prog ε Op Ret α → List (Step ε Op Ret) → Prog ε Op Ret α → Prop
  | here (p : Prog ε Op Ret α) : Reaches p [] p
  | await {op : Op} {k : Except ε (Ret op) → Prog ε Op Ret α} (a : Except ε (Ret op))
      {steps : List (Step ε Op Ret)} {q : Prog ε Op Ret α} :
      Reaches (k a) steps q → Reaches (.await op k) (⟨op, a⟩ :: steps) q

theorem Prog.Reaches.snoc {p : Prog ε Op Ret α} {steps : List (Step ε Op Ret)} {op : Op}
    {k : Except ε (Ret op) → Prog ε Op Ret α} (h : p.Reaches steps (.await op k))
    (a : Except ε (Ret op)) : p.Reaches (steps ++ [⟨op, a⟩]) (k a) := by
  generalize hq : Prog.await op k = q at h
  induction h with
  | here p =>
    subst hq
    exact .await a (.here _)
  | await b _ ih => exact .await b (ih hq)

theorem Prog.Reaches.follows {p q : Prog ε Op Ret α} {steps rest : List (Step ε Op Ret)}
    {r : Except ε α} (h : p.Reaches steps q) (hq : q.Follows rest r) :
    p.Follows (steps ++ rest) r := by
  induction h with
  | here p => exact hq
  | await a _ ih => exact .await a (ih hq)

/-- With these answers, the program has come to await `op`. -/
def Prog.Awaits (p : Prog ε Op Ret α) (steps : List (Step ε Op Ret)) (op : Op) : Prop :=
  ∃ k, p.Reaches steps (.await op k)

theorem Prog.Only.awaits {ok : Op → Prop} {p : Prog ε Op Ret α} (hp : p.Only ok)
    {steps : List (Step ε Op Ret)} {op : Op} (h : p.Awaits steps op) : ok op := by
  obtain ⟨k, h⟩ := h
  generalize hq : Prog.await op k = q at h
  induction h with
  | here p =>
    subst hq
    exact (only_await.mp hp).1
  | await a _ ih => exact ih ((only_await.mp hp).2 a) hq

theorem Prog.Only.reaches {ok : Op → Prop} {p q : Prog ε Op Ret α} (hp : p.Only ok)
    {steps : List (Step ε Op Ret)} (h : p.Reaches steps q) : ∀ step ∈ steps, ok step.op := by
  induction h with
  | here p => simp
  | await a _ ih =>
    rw [only_await] at hp
    intro step hstep
    rcases List.mem_cons.mp hstep with rfl | hstep
    · exact hp.1
    · exact ih (hp.2 a) step hstep

/-- A composite program stands in its first part, or in what follows it. -/
theorem Prog.Awaits.andThen {p : Prog ε Op Ret α} {f : Except ε α → Prog ε Op Ret β}
    {steps : List (Step ε Op Ret)} {op : Op} (h : (p.andThen f).Awaits steps op) :
    p.Awaits steps op ∨
      ∃ first rest a, steps = first ++ rest ∧ p.Follows first a ∧ (f a).Awaits rest op := by
  obtain ⟨k, h⟩ := h
  induction p generalizing steps with
  | ret a => exact .inr ⟨[], steps, a, rfl, .ret a, k, h⟩
  | await op' k' ih =>
    rw [await_andThen] at h
    cases h with
    | here => exact .inl ⟨k', .here _⟩
    | await a h =>
      rcases ih a h with ⟨k'', h⟩ | ⟨first, rest, b, rfl, hfirst, hrest⟩
      · exact .inl ⟨k'', .await a h⟩
      · exact .inr ⟨⟨op', a⟩ :: first, rest, b, rfl, .await a hfirst, hrest⟩

theorem Prog.Awaits.not_ret {r : Except ε α} {steps : List (Step ε Op Ret)} {op : Op} :
    ¬(Prog.ret r : Prog ε Op Ret α).Awaits steps op := by
  rintro ⟨k, h⟩
  cases h

theorem Prog.Awaits.bind {p : Prog ε Op Ret α} {f : α → Prog ε Op Ret β}
    {steps : List (Step ε Op Ret)} {op : Op} (h : (p >>= f).Awaits steps op) :
    p.Awaits steps op ∨
      ∃ first rest a, steps = first ++ rest ∧ p.Follows first (.ok a) ∧ (f a).Awaits rest op := by
  obtain h | ⟨first, rest, r, rfl, hfirst, hrest⟩ := Awaits.andThen h
  · exact .inl h
  · cases r with
    | ok a => exact .inr ⟨first, rest, a, rfl, hfirst, hrest⟩
    | error e => exact absurd hrest Awaits.not_ret

theorem Prog.Awaits.perform {op op' : Op} {steps : List (Step ε Op Ret)}
    (h : (Prog.perform op : Prog ε Op Ret (Ret op)).Awaits steps op') : steps = [] ∧ op' = op := by
  obtain ⟨k, h⟩ := h
  cases h with
  | here => exact ⟨rfl, rfl⟩
  | await a h => cases h

theorem Prog.Awaits.ofExcept_bind {x : Except ε α} {f : α → Prog ε Op Ret β}
    {steps : List (Step ε Op Ret)} {op : Op} (h : (Prog.ofExcept x >>= f).Awaits steps op) :
    ∃ a, x = .ok a ∧ (f a).Awaits steps op := by
  cases x with
  | ok a => exact ⟨a, rfl, h⟩
  | error e => exact absurd h not_ret

theorem Prog.Awaits.forEach {body : β → Prog ε Op Ret Unit} {xs : List β}
    {steps : List (Step ε Op Ret)} {op : Op} (h : (Prog.forEach xs body).Awaits steps op) :
    ∃ x ∈ xs, ∃ later, (body x).Awaits later op := by
  induction xs generalizing steps with
  | nil => exact absurd h not_ret
  | cons x xs ih =>
    obtain hbody | ⟨first, rest, u, -, -, hrest⟩ := Awaits.bind h
    · exact ⟨x, List.mem_cons_self, steps, hbody⟩
    · obtain ⟨y, hy, hbody⟩ := ih hrest
      exact ⟨y, List.mem_cons_of_mem _ hy, hbody⟩

/-- The program awaits nothing that its own history does not entitle it to. -/
def Prog.Upholds (G : List (Step ε Op Ret) → Op → Prop) (p : Prog ε Op Ret α) : Prop :=
  ∀ past op, p.Awaits past op → G past op

section Upholds

variable {G : List (Step ε Op Ret) → Op → Prop}

theorem Prog.Upholds.ret (r : Except ε α) : (Prog.ret r : Prog ε Op Ret α).Upholds G :=
  fun _ _ h => absurd h Awaits.not_ret

theorem Prog.Only.upholds {ok : Op → Prop} {p : Prog ε Op Ret α} (hp : p.Only ok)
    (h : ∀ past op, ok op → G past op) : p.Upholds G :=
  fun past op hawaits => h past op (hp.awaits hawaits)

/-- A longer history entitles to more. -/
theorem Prog.Upholds.andThen {p : Prog ε Op Ret α} {f : Except ε α → Prog ε Op Ret β}
    (hG : ∀ pre past op, G past op → G (pre ++ past) op) (hp : p.Upholds G)
    (hf : ∀ r, (f r).Upholds G) : (p.andThen f).Upholds G := by
  intro past op h
  obtain h | ⟨first, rest, a, rfl, -, hrest⟩ := h.andThen
  · exact hp past op h
  · exact hG first rest op (hf a rest op hrest)

theorem Prog.Upholds.bind {p : Prog ε Op Ret α} {f : α → Prog ε Op Ret β}
    (hG : ∀ pre past op, G past op → G (pre ++ past) op) (hp : p.Upholds G)
    (hf : ∀ a, (f a).Upholds G) : (p >>= f).Upholds G := by
  refine hp.andThen hG fun r => ?_
  cases r with
  | ok a => exact hf a
  | error e => exact .ret _

end Upholds

/-- Somewhere in the history the program ran to its end with this result. -/
def Prog.Returned (p : Prog ε Op Ret α) (history : List (Step ε Op Ret)) (r : Except ε α) : Prop :=
  ∃ pre steps post, history = pre ++ steps ++ post ∧ p.Follows steps r

theorem Prog.Returned.append {p : Prog ε Op Ret α} {history : List (Step ε Op Ret)}
    {r : Except ε α} (h : p.Returned history r) (more : List (Step ε Op Ret)) :
    p.Returned (history ++ more) r := by
  obtain ⟨pre, steps, post, rfl, hsteps⟩ := h
  exact ⟨pre, steps, post ++ more, by simp, hsteps⟩

theorem Prog.Returned.within {p : Prog ε Op Ret α} {history : List (Step ε Op Ret)}
    {r : Except ε α} (h : p.Returned history r) (before after : List (Step ε Op Ret)) :
    p.Returned (before ++ history ++ after) r := by
  obtain ⟨pre, steps, post, rfl, hsteps⟩ := h
  exact ⟨before ++ pre, steps, post ++ after, by simp, hsteps⟩

/-- A loop that ends normally has carried out its body for every element. -/
theorem Prog.follows_forEach {body : β → Prog ε Op Ret Unit} {xs : List β}
    {steps : List (Step ε Op Ret)} (h : (Prog.forEach xs body).Follows steps (.ok ())) :
    ∀ x ∈ xs, (body x).Returned steps (.ok ()) := by
  induction xs generalizing steps with
  | nil => simp
  | cons x xs ih =>
    obtain ⟨first, rest, a, rfl, hfirst, hrest⟩ := follows_andThen.mp h
    rcases a with e | _
    · obtain ⟨-, heq⟩ := follows_ret.mp hrest
      simp at heq
    · intro y hy
      rcases List.mem_cons.mp hy with rfl | hy
      · exact ⟨[], first, rest, rfl, hfirst⟩
      · simpa using (ih hrest y hy).within first []

theorem Prog.Follows.returned {p : Prog ε Op Ret α} {steps : List (Step ε Op Ret)}
    {r : Except ε α} (h : p.Follows steps r) (history : List (Step ε Op Ret)) :
    p.Returned (history ++ steps) r :=
  ⟨history, steps, [], by simp, h⟩

section Guarded

variable {Task : Type}

/-- What task `k` may await after a history. -/
abbrev Guard (ε Op : Type) (Ret : Op → Type) (Task : Type) :=
  Task → List (Step ε Op Ret) → Op → Prop

/-- The protocol of a guard: the state is the task and its history. -/
@[reducible] def Protocol.guarded (guard : Guard ε Op Ret Task)
    (admits : (op : Op) → Except ε (Ret op) → Prop) : Protocol ε Op Ret where
  State := Option Task × List (Step ε Op Ret)
  allows s op := ∃ k, s.1 = some k ∧ guard k s.2 op
  next s op r := (s.1, s.2 ++ [⟨op, r⟩])
  admits := admits

variable {guard : Guard ε Op Ret Task} {admits : (op : Op) → Except ε (Ret op) → Prop}

/-- A program whose operations the guard lets pass at any time leaves its own trail in
    the history. -/
theorem Protocol.Conforms.trail {ok : Op → Prop} {p : Prog ε Op Ret α} (hp : p.Only ok) {k : Task}
    {history : List (Step ε Op Ret)}
    (hok : ∀ more op, ok op → guard k (history ++ more) op) :
    (Protocol.guarded guard admits).Conforms
      (fun r s => ∃ steps, s = (some k, history ++ steps) ∧ p.Follows steps r) p
      (some k, history) := by
  revert history
  induction p with
  | ret r => exact fun _ => ⟨[], by simp, .ret r⟩
  | await op f ih =>
    intro history hok
    rw [Prog.only_await] at hp
    refine ⟨⟨k, rfl, by simpa using hok [] op hp.1⟩, fun r _ => ?_⟩
    have hok' : ∀ more op', ok op' → guard k ((history ++ [⟨op, r⟩]) ++ more) op' := by
      intro more op' hop'
      simpa using hok (⟨op, r⟩ :: more) op' hop'
    refine (ih r (hp.2 r) hok').mono ?_
    · rintro r' s ⟨steps, rfl, hsteps⟩
      exact ⟨⟨op, r⟩ :: steps, by simp, .await r hsteps⟩

variable {World Choice EnvEvent : Type} {Result : Task → Type}
  {M : Machine ε Op Ret World Choice EnvEvent Task Result}

/-- The steps of `t` in a log of all steps. -/
def historyOf (t : Nat) (log : List (Nat × Step ε Op Ret)) : List (Step ε Op Ret) :=
  (log.filter fun e => e.1 = t).map (·.2)

theorem historyOf_append_self (t : Nat) (log : List (Nat × Step ε Op Ret)) (e : Step ε Op Ret) :
    historyOf t (log ++ [(t, e)]) = historyOf t log ++ [e] := by
  simp [historyOf, List.filter_append]

theorem historyOf_append_of_ne {t t' : Nat} (h : t' ≠ t) (log : List (Nat × Step ε Op Ret))
    (e : Step ε Op Ret) : historyOf t' (log ++ [(t, e)]) = historyOf t' log := by
  simp [historyOf, List.filter_append, h.symm]

theorem historyOf_append (t : Nat) (log log' : List (Nat × Step ε Op Ret)) :
    historyOf t (log ++ log') = historyOf t log ++ historyOf t log' := by
  simp [historyOf]

theorem historyOf_cons_self (t : Nat) (e : Step ε Op Ret) (log : List (Nat × Step ε Op Ret)) :
    historyOf t ((t, e) :: log) = e :: historyOf t log := by
  simp [historyOf]

theorem historyOf_cons_of_ne {t t' : Nat} (h : t' ≠ t) (e : Step ε Op Ret)
    (log : List (Nat × Step ε Op Ret)) : historyOf t ((t', e) :: log) = historyOf t log := by
  simp [historyOf, h]

theorem mem_historyOf {t : Nat} {step : Step ε Op Ret} {log : List (Nat × Step ε Op Ret)} :
    step ∈ historyOf t log ↔ (t, step) ∈ log := by
  unfold historyOf
  rw [List.mem_map]
  constructor
  · rintro ⟨⟨t', step'⟩, hmem, rfl⟩
    obtain ⟨hlog, htid⟩ := List.mem_filter.mp hmem
    obtain rfl : t' = t := by simpa using htid
    exact hlog
  · intro h
    exact ⟨(t, step), List.mem_filter.mpr ⟨h, by simp⟩, rfl⟩

/-- The machine keeps a log, and an invariant of its worlds vouches for the answers. -/
structure Machine.Logs (M : Machine ε Op Ret World Choice EnvEvent Task Result)
    (log : World → List (Nat × Step ε Op Ret)) (Sound : World → Prop)
    (admits : (op : Op) → Except ε (Ret op) → Prop) : Prop where
  exec : ∀ {t op c w r w'}, Sound w → M.exec t op c w = some (r, w') →
    Sound w' ∧ admits op r ∧ log w' = log w ++ [(t, ⟨op, r⟩)]
  env : ∀ {e w}, Sound w → Sound (M.env e w) ∧ log (M.env e w) = log w
  kill : ∀ {t w}, Sound w → Sound (M.kill t w) ∧ log (M.kill t w) = log w

/-- Every logged operation was awaited under the guard of its task. -/
def GuardedLog (guard : Guard ε Op Ret Task) (τ : Nat → Option Task)
    (log : List (Nat × Step ε Op Ret)) : Prop :=
  ∀ pre t e post, log = pre ++ (t, e) :: post →
    ∃ k, τ t = some k ∧ guard k (historyOf t pre) e.op

theorem GuardedLog.snoc {τ : Nat → Option Task} {log : List (Nat × Step ε Op Ret)}
    (h : GuardedLog guard τ log) {t : Nat} {k : Task} {e : Step ε Op Ret} (hτ : τ t = some k)
    (he : guard k (historyOf t log) e.op) : GuardedLog guard τ (log ++ [(t, e)]) := by
  intro pre t' e' post heq
  rcases post.eq_nil_or_concat with rfl | ⟨post, last, rfl⟩
  · have hlast := List.append_inj' heq rfl
    obtain ⟨rfl, hsingle⟩ := hlast
    simp only [List.cons.injEq, Prod.mk.injEq, and_true] at hsingle
    obtain ⟨rfl, rfl⟩ := hsingle
    exact ⟨k, hτ, he⟩
  · have hinit := List.append_inj' (heq.trans (by simp : _ = (pre ++ (t', e') :: post) ++ [last])) rfl
    exact h pre t' e' post hinit.1

/-- The discipline of a guard. -/
def Machine.guardDiscipline {log : World → List (Nat × Step ε Op Ret)} {Sound : World → Prop}
    (hM : M.Logs log Sound admits) (ok : Label Choice EnvEvent Task → Prop)
    (post : (k : Task) → Except ε (Result k) → List (Step ε Op Ret) → Prop)
    (hprog : ∀ t k, ok (.spawn t k) → (Protocol.guarded guard admits).Conforms
      (fun r s => post k r s.2) (M.prog k) (some k, [])) :
    M.Discipline ok where
  P := Protocol.guarded guard admits
  Inv w σ τ := Sound w ∧ (∀ t, (σ t).1 = τ t ∧ (σ t).2 = historyOf t (log w)) ∧
    (∀ t, τ t = none → historyOf t (log w) = []) ∧ GuardedLog guard τ (log w)
  idle := (none, [])
  start k := (some k, [])
  onKill s := s
  post k r s := post k r s.2
  conforms := hprog
  spawn := by
    rintro w σ τ t k - ⟨hw, hσ, hidle, hlog⟩ hτ
    refine ⟨hw, fun t' => ?_, fun t' ht' => ?_, ?_⟩
    · by_cases heq : t' = t
      · subst heq
        rw [Function.update_self, Function.update_self]
        exact ⟨rfl, (hidle _ hτ).symm⟩
      · rw [Function.update_of_ne heq, Function.update_of_ne heq]
        exact hσ t'
    · by_cases heq : t' = t
      · subst heq; simp at ht'
      · rw [Function.update_of_ne heq] at ht'
        exact hidle t' ht'
    · intro pre t' e rest heq
      obtain ⟨k', hk', hguard⟩ := hlog pre t' e rest heq
      have hne : t' ≠ t := by
        rintro rfl
        simp [hτ] at hk'
      exact ⟨k', by rw [Function.update_of_ne hne]; exact hk', hguard⟩
  exec := by
    rintro w σ τ t k op ch r w' - ⟨hw, hσ, hidle, hlog⟩ hτ ⟨k', hk', hguard⟩ he
    obtain ⟨hw', hadmits, hlog'⟩ := hM.exec hw he
    obtain rfl : k = k' := Option.some.inj ((hτ.symm.trans (hσ t).1.symm).trans hk')
    refine ⟨hadmits, hw', fun t' => ?_, fun t' ht' => ?_, ?_⟩
    · by_cases heq : t' = t
      · subst heq
        rw [Function.update_self, hlog', historyOf_append_self]
        exact ⟨(hσ _).1, congrArg (· ++ [(⟨op, r⟩ : Step ε Op Ret)]) (hσ _).2⟩
      · rw [Function.update_of_ne heq, hlog', historyOf_append_of_ne heq]
        exact hσ t'
    · have hne : t' ≠ t := by
        rintro rfl
        simp [hτ] at ht'
      rw [hlog', historyOf_append_of_ne hne]
      exact hidle t' ht'
    · rw [hlog']
      exact hlog.snoc hτ ((hσ t).2 ▸ hguard)
  env := by
    rintro w σ τ e - ⟨hw, hσ, hidle, hlog⟩
    obtain ⟨hw', hlog'⟩ := hM.env (e := e) hw
    rw [hlog']
    exact ⟨hw', hσ, hidle, hlog⟩
  kill := by
    rintro w σ τ t k - ⟨hw, hσ, hidle, hlog⟩ hτ
    obtain ⟨hw', hlog'⟩ := hM.kill (t := t) hw
    rw [hlog', Function.update_eq_self]
    exact ⟨hw', hσ, hidle, hlog⟩

/-- **The guard theorem.**  In every run, every operation was awaited under its guard,
    and the results of finished coroutines fit their histories. -/
theorem Machine.guarded_run {log : World → List (Nat × Step ε Op Ret)} {Sound : World → Prop}
    (hM : M.Logs log Sound admits) {ok : Label Choice EnvEvent Task → Prop}
    {post : (k : Task) → Except ε (Result k) → List (Step ε Op Ret) → Prop}
    (hprog : ∀ t k, ok (.spawn t k) → (Protocol.guarded guard admits).Conforms
      (fun r s => post k r s.2) (M.prog k) (some k, []))
    {w : World} (hw : Sound w) (hempty : log w = []) {ls : List (Label Choice EnvEvent Task)}
    {c : Config ε Op Ret World Result} (hok : ∀ l ∈ ls, ok l)
    (h : M.run (Config.start w) ls = some c) :
    GuardedLog guard c.taskOf (log c.world) ∧
      ∀ t k r, c.threads t = some ⟨k, .ret r, true⟩ → post k r (historyOf t (log c.world)) := by
  have hinit : (M.guardDiscipline hM ok post hprog).Inv w
      (fun _ => (M.guardDiscipline hM ok post hprog).idle) fun _ => none := by
    refine ⟨hw, fun t => ⟨rfl, by rw [hempty]; rfl⟩, fun t _ => by rw [hempty]; rfl, ?_⟩
    intro pre t e rest heq
    simp [hempty] at heq
  obtain ⟨σ, ⟨-, hσ, -, hlog⟩, hconf⟩ :=
    (M.guardDiscipline hM ok post hprog).holds_run hinit hok h
  refine ⟨hlog, fun t k r ht => ?_⟩
  have hpost : post k r (σ t).2 := hconf t _ ht rfl
  rwa [(hσ t).2] at hpost

/-- A program may await what it comes to await. -/
theorem Protocol.Conforms.awaits {Result : Task → Type} {prog : (k : Task) → Prog ε Op Ret (Result k)}
    {k : Task} {p : Prog ε Op Ret (Result k)} {history : List (Step ε Op Ret)}
    (h : (prog k).Reaches history p) :
    (Protocol.guarded (fun k history op => (prog k).Awaits history op) admits).Conforms
      (fun _ _ => True) p (some k, history) := by
  induction p generalizing history with
  | ret r => trivial
  | await op f ih => exact ⟨⟨k, rfl, f, h⟩, fun r _ => ih r (h.snoc r)⟩

/-- A property of every coroutine survives the move of one of them. -/
theorem forall_update {threads : Nat → Option (Thread ε Op Ret Result)} {t : Nat}
    {th' : Thread ε Op Ret Result} {Good Good' : Nat → Thread ε Op Ret Result → Prop}
    (h : ∀ t th, threads t = some th → Good t th) (hmoved : Good' t th')
    (hkept : ∀ t₁ th, t₁ ≠ t → Good t₁ th → Good' t₁ th) :
    ∀ t₁ th, Function.update threads t (some th') t₁ = some th → Good' t₁ th := by
  intro t₁ th hth
  by_cases heq : t₁ = t
  · subst heq
    rw [Function.update_self, Option.some.injEq] at hth
    exact hth ▸ hmoved
  · rw [Function.update_of_ne heq] at hth
    exact hkept t₁ th heq (h t₁ th hth)

theorem update_eq_none {threads : Nat → Option (Thread ε Op Ret Result)} {t t₁ : Nat}
    {th' : Thread ε Op Ret Result} (h : Function.update threads t (some th') t₁ = none) :
    t₁ ≠ t ∧ threads t₁ = none := by
  by_cases heq : t₁ = t
  · simp [heq] at h
  · rw [Function.update_of_ne heq] at h
    exact ⟨heq, h⟩

/-- **Histories.**  In every run, every coroutine stands where the answers of its history
    have brought it. -/
theorem Machine.run_reaches {log : World → List (Nat × Step ε Op Ret)} {Sound : World → Prop}
    (hM : M.Logs log Sound admits) {w : World} (hw : Sound w) (hempty : log w = [])
    {ls : List (Label Choice EnvEvent Task)} {c : Config ε Op Ret World Result}
    (h : M.run (Config.start w) ls = some c) :
    ∀ t th, c.threads t = some th →
      (M.prog th.task).Reaches (historyOf t (log c.world)) th.prog := by
  let Inv (c : Config ε Op Ret World Result) : Prop :=
    Sound c.world ∧ (∀ t, c.threads t = none → historyOf t (log c.world) = []) ∧
      ∀ t th, c.threads t = some th →
        (M.prog th.task).Reaches (historyOf t (log c.world)) th.prog
  have hinit : Inv (Config.start w) := by
    refine ⟨hw, fun t _ => ?_, fun t th ht => ?_⟩
    · simp [Config.start, hempty, historyOf]
    · simp [Config.start] at ht
  have hstep : ∀ c l c', Inv c → True → M.step c l = some c' → Inv c' := by
    rintro c l c' ⟨hsound, hidle, hreach⟩ - hs
    cases l with
    | spawn t k =>
      obtain ⟨ht, rfl⟩ := step_spawn hs
      refine ⟨hsound, fun t' ht' => hidle t' (update_eq_none ht').2, ?_⟩
      refine forall_update hreach ?_ fun _ _ _ h => h
      have hnil : historyOf t (log c.world) = [] := hidle t ht
      change (M.prog k).Reaches (historyOf t (log c.world)) (M.prog k)
      rw [hnil]
      exact .here _
    | step t ch =>
      obtain ⟨k, op, f, r, w', ht, he, rfl⟩ := step_step hs
      obtain ⟨hsound', -, hlog⟩ := hM.exec hsound he
      refine ⟨hsound', fun t' ht' => ?_, forall_update hreach ?_ fun t' th hne h => ?_⟩
      · obtain ⟨hne, hnone⟩ := update_eq_none ht'
        rw [hlog, historyOf_append_of_ne hne]
        exact hidle t' hnone
      · rw [hlog, historyOf_append_self]
        exact (hreach t _ ht).snoc r
      · rw [hlog, historyOf_append_of_ne hne]
        exact h
    | env e =>
      obtain rfl : _ = c' := Option.some.inj hs
      obtain ⟨hsound', hlog⟩ := hM.env (e := e) hsound
      refine ⟨hsound', ?_, ?_⟩
      · simpa only [hlog] using hidle
      · simpa only [hlog] using hreach
    | kill t =>
      obtain ⟨k, op, f, ht, rfl⟩ := step_kill hs
      obtain ⟨hsound', hlog⟩ := hM.kill (t := t) hsound
      refine ⟨hsound', fun t' ht' => ?_, forall_update hreach ?_ fun t' th _ h => ?_⟩
      · rw [hlog]
        exact hidle t' (update_eq_none ht').2
      · have hstood := hreach t _ ht
        rw [hlog]
        exact hstood
      · rw [hlog]
        exact h
  exact (run_induction Inv (fun _ => True) hstep hinit (fun _ _ => trivial) h).2.2

theorem Machine.run_sound {log : World → List (Nat × Step ε Op Ret)} {Sound : World → Prop}
    (hM : M.Logs log Sound admits) {ls : List (Label Choice EnvEvent Task)}
    {c c' : Config ε Op Ret World Result} (hc : Sound c.world) (h : M.run c ls = some c') :
    Sound c'.world := by
  refine run_induction (fun c => Sound c.world) (fun _ => True) ?_ hc (fun _ _ => trivial) h
  intro c l c' hc _ hs
  cases l with
  | spawn t k =>
    obtain ⟨-, rfl⟩ := step_spawn hs
    exact hc
  | step t ch =>
    obtain ⟨k, op, f, r, w, -, he, rfl⟩ := step_step hs
    exact (hM.exec hc he).1
  | env e =>
    obtain rfl : _ = c' := Option.some.inj hs
    exact (hM.env hc).1
  | kill t =>
    obtain ⟨k, op, f, -, rfl⟩ := step_kill hs
    exact (hM.kill hc).1

/-- **Instants.**  Every logged operation was carried out at some point of the run. -/
theorem Machine.run_happened {log : World → List (Nat × Step ε Op Ret)} {Sound : World → Prop}
    (hM : M.Logs log Sound admits) {w : World} (hw : Sound w) (hempty : log w = [])
    {ls : List (Label Choice EnvEvent Task)} {c : Config ε Op Ret World Result}
    (h : M.run (Config.start w) ls = some c) {pre post : List (Nat × Step ε Op Ret)} {t : Nat}
    {e : Step ε Op Ret} (heq : log c.world = pre ++ (t, e) :: post) :
    ∃ before ch after c₁ c₂, ls = before ++ .step t ch :: after ∧
      M.run (Config.start w) before = some c₁ ∧ log c₁.world = pre ∧
      M.step c₁ (.step t ch) = some c₂ ∧ M.exec t e.op ch c₁.world = some (e.result, c₂.world) ∧
      M.run c₂ after = some c := by
  induction ls using List.reverseRecOn generalizing c post with
  | nil =>
    obtain rfl : Config.start w = c := by simpa using h
    simp [Config.start, hempty] at heq
  | append_singleton ls l ih =>
    obtain ⟨d, hd, hl⟩ := run_snoc_eq_some.mp h
    have hsound : Sound d.world := run_sound hM hw hd
    -- an operation that was in the log before the last step
    have hearlier : ∀ post', log d.world = pre ++ (t, e) :: post' →
        ∃ before ch after c₁ c₂, ls ++ [l] = before ++ .step t ch :: after ∧
          M.run (Config.start w) before = some c₁ ∧ log c₁.world = pre ∧
          M.step c₁ (.step t ch) = some c₂ ∧
          M.exec t e.op ch c₁.world = some (e.result, c₂.world) ∧ M.run c₂ after = some c := by
      intro post' hpost
      obtain ⟨before, ch, after, c₁, c₂, rfl, h₁, hlog, hs, he, h₂⟩ := ih hd hpost
      exact ⟨before, ch, after ++ [l], c₁, c₂, by simp, h₁, hlog, hs, he,
        run_snoc_eq_some.mpr ⟨d, h₂, hl⟩⟩
    cases l with
    | spawn t' k =>
      obtain ⟨-, rfl⟩ := step_spawn hl
      exact hearlier post heq
    | step t' ch =>
      obtain ⟨k, op, f, r, w', ht, he, rfl⟩ := step_step hl
      obtain ⟨-, -, hlog⟩ := hM.exec hsound he
      rw [show log (_ : World) = _ from hlog] at heq
      rcases post.eq_nil_or_concat with rfl | ⟨post', last, rfl⟩
      · obtain ⟨hpre, hlast⟩ := List.append_inj' heq rfl
        simp only [List.cons.injEq, Prod.mk.injEq, and_true] at hlast
        obtain ⟨rfl, rfl⟩ := hlast
        exact ⟨ls, ch, [], d, _, rfl, hd, hpre, hl, he, rfl⟩
      · rw [show pre ++ (t, e) :: post'.concat last = (pre ++ (t, e) :: post') ++ [last] by simp]
          at heq
        exact hearlier post' (List.append_inj' heq rfl).1
    | env ev =>
      obtain rfl : _ = c := Option.some.inj hl
      rw [show log (M.env ev d.world) = _ from (hM.env hsound).2] at heq
      exact hearlier post heq
    | kill t' =>
      obtain ⟨k, op, f, -, rfl⟩ := step_kill hl
      rw [show log (M.kill t' d.world) = _ from (hM.kill hsound).2] at heq
      exact hearlier post heq

end Guarded

end Async
