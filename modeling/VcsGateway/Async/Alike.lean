import VcsGateway.Async.System
import Mathlib.Data.List.Forall2

/-!
# Two runs in lockstep

Two programs are alike when they await alike operations and, whatever alike answers
these get, go on alike.  On a machine that answers alike operations alike, a run of the
one is a run of the other.  This is the proof rule for properties of two runs, such as
that a secret does not flow.
-/

namespace Async

variable {ε Op : Type} {Ret : Op → Type} {α α' β β' : Type}

/-- Which operations of the two runs correspond, and which of their answers. -/
structure Likeness (ε Op : Type) (Ret : Op → Type) where
  op : Op → Op → Prop
  answer : (o o' : Op) → Except ε (Ret o) → Except ε (Ret o') → Prop

/-- The same exception, or values related by `S`. -/
def SameOutcome (S : α → α' → Prop) : Except ε α → Except ε α' → Prop
  | .ok a, .ok a' => S a a'
  | .error e, .error e' => e = e'
  | _, _ => False

theorem sameOutcome_eq {r r' : Except ε α} (h : SameOutcome (fun a a' => a = a') r r') : r = r' := by
  cases r with
  | ok a =>
    cases r' with
    | ok a' => exact congrArg Except.ok h
    | error e' => exact h.elim
  | error e =>
    cases r' with
    | ok a' => exact h.elim
    | error e' => exact congrArg Except.error h

theorem sameOutcome_refl {S : α → α → Prop} (hS : ∀ a, S a a) (r : Except ε α) :
    SameOutcome S r r := by
  cases r with
  | ok a => exact hS a
  | error e => exact rfl

namespace Prog

variable (L : Likeness ε Op Ret)

/-- The two programs await alike operations and end with results related by `Q`. -/
def Alike (Q : Except ε α → Except ε α' → Prop) : Prog ε Op Ret α → Prog ε Op Ret α' → Prop
  | .ret r, .ret r' => Q r r'
  | .await o k, .await o' k' => L.op o o' ∧ ∀ a a', L.answer o o' a a' → Alike Q (k a) (k' a')
  | _, _ => False

variable {L} {Q : Except ε α → Except ε α' → Prop} {p : Prog ε Op Ret α} {p' : Prog ε Op Ret α'}

@[simp] theorem alike_ret {r : Except ε α} {r' : Except ε α'} :
    Alike L Q (.ret r) (.ret r') ↔ Q r r' := Iff.rfl

/-- Only an await is like an await. -/
theorem Alike.await_left {o : Op} {k : Except ε (Ret o) → Prog ε Op Ret α}
    (h : Alike L Q (.await o k) p') : ∃ o' k', p' = .await o' k' ∧ L.op o o' ∧
      ∀ a a', L.answer o o' a a' → Alike L Q (k a) (k' a') := by
  cases p' with
  | ret r' => exact h.elim
  | await o' k' => exact ⟨o', k', rfl, h.1, h.2⟩

theorem Alike.ret_left {r : Except ε α} (h : Alike L Q (.ret r) p') : ∃ r', p' = .ret r' ∧ Q r r' := by
  cases p' with
  | ret r' => exact ⟨r', rfl, h⟩
  | await o' k' => exact h.elim

theorem Alike.perform {o o' : Op} {Q : Except ε (Ret o) → Except ε (Ret o') → Prop}
    (ho : L.op o o') (hQ : ∀ a a', L.answer o o' a a' → Q a a') :
    Alike L Q (perform o) (perform o') :=
  ⟨ho, hQ⟩

theorem Alike.andThen {R : Except ε β → Except ε β' → Prop} {f : Except ε α → Prog ε Op Ret β}
    {f' : Except ε α' → Prog ε Op Ret β'} (hp : Alike L Q p p')
    (hf : ∀ r r', Q r r' → Alike L R (f r) (f' r')) : Alike L R (p.andThen f) (p'.andThen f') := by
  induction p generalizing p' with
  | ret r =>
    obtain ⟨r', rfl, hr⟩ := hp.ret_left
    exact hf r r' hr
  | await o k ih =>
    obtain ⟨o', k', rfl, ho, hk⟩ := hp.await_left
    exact ⟨ho, fun a a' ha => ih a (hk a a' ha)⟩

/-- The rule of consequence. -/
theorem Alike.mono {Q' : Except ε α → Except ε α' → Prop} (hp : Alike L Q p p')
    (h : ∀ r r', Q r r' → Q' r r') : Alike L Q' p p' := by
  induction p generalizing p' with
  | ret r =>
    obtain ⟨r', rfl, hr⟩ := hp.ret_left
    exact h r r' hr
  | await o k ih =>
    obtain ⟨o', k', rfl, ho, hk⟩ := hp.await_left
    exact ⟨ho, fun a a' ha => ih a (hk a a' ha)⟩

section Outcome

variable {S : α → α' → Prop} {T : β → β' → Prop}

theorem Alike.bind {f : α → Prog ε Op Ret β} {f' : α' → Prog ε Op Ret β'}
    (hp : Alike L (SameOutcome S) p p')
    (hf : ∀ a a', S a a' → Alike L (SameOutcome T) (f a) (f' a')) :
    Alike L (SameOutcome T) (p >>= f) (p' >>= f') := by
  refine hp.andThen fun r r' hr => ?_
  cases r with
  | ok a =>
    cases r' with
    | ok a' => exact hf a a' hr
    | error e' => exact hr.elim
  | error e =>
    cases r' with
    | ok a' => exact hr.elim
    | error e' => exact hr

theorem Alike.handle {h : ε → Prog ε Op Ret α} {h' : ε → Prog ε Op Ret α'}
    (hp : Alike L (SameOutcome S) p p') (hh : ∀ e, Alike L (SameOutcome S) (h e) (h' e)) :
    Alike L (SameOutcome S) (p.handle h) (p'.handle h') := by
  refine hp.andThen fun r r' hr => ?_
  cases r with
  | ok a =>
    cases r' with
    | ok a' => exact hr
    | error e' => exact hr.elim
  | error e =>
    cases r' with
    | ok a' => exact hr.elim
    | error e' =>
      have heq : e = e' := hr
      rw [← heq]
      exact hh e

end Outcome

/-- A program is like itself when its operations are answered equally in the two runs. -/
theorem Alike.refl {Q : Except ε α → Except ε α → Prop} {p : Prog ε Op Ret α}
    (hp : p.Only fun o => L.op o o ∧ ∀ a a', L.answer o o a a' → a = a') (hQ : ∀ r, Q r r) :
    Alike L Q p p := by
  induction p with
  | ret r => exact hQ r
  | await o k ih =>
    rw [only_await] at hp
    refine ⟨hp.1.1, fun a a' ha => ?_⟩
    rw [← hp.1.2 a a' ha]
    exact ih a (hp.2 a)

end Prog

section Machine

variable {World Choice Event Task : Type} {Result : Task → Type}

/-- The same coroutine moves, and the environment makes the same choice. -/
inductive Label.Alike (tasks : Task → Task → Prop) (envs : Event → Event → Prop) :
    Label Choice Event Task → Label Choice Event Task → Prop
  | spawn (t : Nat) {k k' : Task} (h : tasks k k') : Alike tasks envs (.spawn t k) (.spawn t k')
  | step (t : Nat) (c : Choice) : Alike tasks envs (.step t c) (.step t c)
  | env {e e' : Event} (h : envs e e') : Alike tasks envs (.env e) (.env e')
  | kill (t : Nat) : Alike tasks envs (.kill t) (.kill t)

namespace Machine

variable {M : Machine ε Op Ret World Choice Event Task Result} {c : Config ε Op Ret World Result}
  {t : Nat} {k : Task}

/-! ### Steps that can be taken -/

theorem step_spawn_of (ht : c.threads t = none) : M.step c (.spawn t k) =
    some { c with threads := Function.update c.threads t (some ⟨k, M.prog k, true⟩) } := by
  simp only [step, ht]

theorem step_step_of {o : Op} {f : Except ε (Ret o) → Prog ε Op Ret (Result k)} {ch : Choice}
    {a : Except ε (Ret o)} {w : World} (ht : c.threads t = some ⟨k, .await o f, true⟩)
    (he : M.exec t o ch c.world = some (a, w)) : M.step c (.step t ch) =
      some ⟨w, Function.update c.threads t (some ⟨k, f a, true⟩)⟩ := by
  simp only [step, ht, he]

theorem step_kill_of {o : Op} {f : Except ε (Ret o) → Prog ε Op Ret (Result k)}
    (ht : c.threads t = some ⟨k, .await o f, true⟩) : M.step c (.kill t) =
      some ⟨M.kill t c.world, Function.update c.threads t (some ⟨k, .await o f, false⟩)⟩ := by
  simp only [step, ht]

end Machine

/-! ### Machines -/

/-- A relation of worlds that alike operations and alike events preserve. -/
structure Machine.Lockstep (M : Machine ε Op Ret World Choice Event Task Result) where
  likeness : Likeness ε Op Ret
  tasks : Task → Task → Prop
  envs : Event → Event → Prop
  worlds : World → World → Prop
  post : (k k' : Task) → Except ε (Result k) → Except ε (Result k') → Prop
  progs : ∀ {k k'}, tasks k k' → Prog.Alike likeness (post k k') (M.prog k) (M.prog k')
  exec : ∀ {w w' t o o' c a w₁}, worlds w w' → likeness.op o o' → M.exec t o c w = some (a, w₁) →
    ∃ a' w₁', M.exec t o' c w' = some (a', w₁') ∧ likeness.answer o o' a a' ∧ worlds w₁ w₁'
  env : ∀ {w w' e e'}, envs e e' → worlds w w' → worlds (M.env e w) (M.env e' w')
  kill : ∀ {w w'} (t : Nat), worlds w w' → worlds (M.kill t w) (M.kill t w')

namespace Machine.Lockstep

variable {M : Machine ε Op Ret World Choice Event Task Result} (S : M.Lockstep)

/-- The coroutines have come equally far. -/
structure Abreast (th th' : Thread ε Op Ret Result) : Prop where
  alive : th.alive = th'.alive
  tasks : S.tasks th.task th'.task
  prog : Prog.Alike S.likeness (S.post th.task th'.task) th.prog th'.prog

structure Related (c c' : Config ε Op Ret World Result) : Prop where
  worlds : S.worlds c.world c'.world
  threads : ∀ t, Option.Rel S.Abreast (c.threads t) (c'.threads t)

variable {S}

theorem Related.start {w w' : World} (h : S.worlds w w') :
    S.Related (Config.start w) (Config.start w') :=
  ⟨h, fun _ => .none⟩

theorem Related.update {c c' : Config ε Op Ret World Result} (h : S.Related c c') {w w' : World}
    (hw : S.worlds w w') {t : Nat} {th th' : Thread ε Op Ret Result} (hth : S.Abreast th th') :
    S.Related ⟨w, Function.update c.threads t (some th)⟩
      ⟨w', Function.update c'.threads t (some th')⟩ := by
  refine ⟨hw, fun t' => ?_⟩
  by_cases heq : t' = t
  · rw [heq]
    simp only [Function.update_self]
    exact .some hth
  · simp only [Function.update_of_ne heq]
    exact h.threads t'

theorem Related.thread {c c' : Config ε Op Ret World Result} (h : S.Related c c') {t : Nat}
    {th : Thread ε Op Ret Result} (ht : c.threads t = some th) :
    ∃ th', c'.threads t = some th' ∧ S.Abreast th th' := by
  have hrel := h.threads t
  rw [ht] at hrel
  generalize c'.threads t = o at hrel
  cases hrel with
  | some hth => exact ⟨_, rfl, hth⟩

theorem Related.unstarted {c c' : Config ε Op Ret World Result} (h : S.Related c c') {t : Nat}
    (ht : c.threads t = none) : c'.threads t = none := by
  have hrel := h.threads t
  rw [ht] at hrel
  generalize c'.threads t = o at hrel
  cases hrel
  rfl

/-- The coroutine at an await has a counterpart at a like await. -/
theorem Related.awaiting {c c' : Config ε Op Ret World Result} (h : S.Related c c') {t : Nat}
    {k : Task} {o : Op} {f : Except ε (Ret o) → Prog ε Op Ret (Result k)}
    (ht : c.threads t = some ⟨k, .await o f, true⟩) :
    ∃ k' o' f', c'.threads t = some ⟨k', .await o' f', true⟩ ∧ S.tasks k k' ∧ S.likeness.op o o' ∧
      ∀ a a', S.likeness.answer o o' a a' → Prog.Alike S.likeness (S.post k k') (f a) (f' a') := by
  obtain ⟨⟨k', p', alive'⟩, ht', halive, htasks, hprog⟩ := h.thread ht
  obtain ⟨o', f', hp', ho, hf⟩ := hprog.await_left
  simp only at halive hp'
  rw [← halive, hp'] at ht'
  exact ⟨k', o', f', ht', htasks, ho, hf⟩

theorem Related.step {c c' d : Config ε Op Ret World Result} (h : S.Related c c')
    {l l' : Label Choice Event Task} (hl : l.Alike S.tasks S.envs l') (hs : M.step c l = some d) :
    ∃ d', M.step c' l' = some d' ∧ S.Related d d' := by
  cases hl with
  | spawn t htasks =>
    obtain ⟨ht, rfl⟩ := step_spawn hs
    refine ⟨_, step_spawn_of (h.unstarted ht), ?_⟩
    exact h.update h.worlds ⟨rfl, htasks, S.progs htasks⟩
  | step t ch =>
    obtain ⟨k, o, f, a, w, ht, he, rfl⟩ := step_step hs
    obtain ⟨k', o', f', ht', htasks, ho, hf⟩ := h.awaiting ht
    obtain ⟨a', w', he', ha, hw⟩ := S.exec h.worlds ho he
    refine ⟨_, step_step_of ht' he', ?_⟩
    exact h.update hw ⟨rfl, htasks, hf a a' ha⟩
  | env he =>
    obtain rfl : _ = d := Option.some.inj hs
    exact ⟨_, rfl, S.env he h.worlds, h.threads⟩
  | kill t =>
    obtain ⟨k, o, f, ht, rfl⟩ := step_kill hs
    obtain ⟨k', o', f', ht', htasks, ho, hf⟩ := h.awaiting ht
    refine ⟨_, step_kill_of ht', ?_⟩
    exact h.update (S.kill t h.worlds) ⟨rfl, htasks, ho, hf⟩

/-- **The lockstep rule.**  Alike labels lead from related configurations to related
    configurations. -/
theorem Related.run {ls ls' : List (Label Choice Event Task)}
    (hls : List.Forall₂ (Label.Alike S.tasks S.envs) ls ls') {c c' d : Config ε Op Ret World Result}
    (h : S.Related c c') (hr : M.run c ls = some d) :
    ∃ d', M.run c' ls' = some d' ∧ S.Related d d' := by
  induction hls generalizing c c' with
  | nil =>
    obtain rfl : c = d := by simpa using hr
    exact ⟨c', rfl, h⟩
  | cons hl _ ih =>
    obtain ⟨c₁, hs, hr⟩ := run_cons_eq_some.mp hr
    obtain ⟨c₁', hs', h₁⟩ := h.step hl hs
    obtain ⟨d', hr', hd⟩ := ih h₁ hr
    exact ⟨d', run_cons_eq_some.mpr ⟨c₁', hs', hr'⟩, hd⟩

end Machine.Lockstep

end Machine

end Async
