import VcsGateway.Async.Protocol

/-!
# Interleaved runs

A machine executes the operations of many coroutines against one shared world.
A run is a list of labels, and every label carries all of the nondeterminism of
its step (who moves, and what the environment chooses), so running a list of
labels is a function.  `Machine.Discipline` is the proof rule: when every
program conforms to a protocol and every allowed operation preserves an
invariant of the world and the protocol states, the invariant holds in every
state of every run.
-/

namespace Async

/-- What the operations do.  `exec t op c w` runs `op` for coroutine `t` under the
    environment's choice `c`; `none` means that the step cannot happen now (the
    coroutine waits, or the choice does not apply). -/
structure Machine (ε Op : Type) (Ret : Op → Type) (World Choice Event Task : Type)
    (Result : Task → Type) where
  exec : Nat → (op : Op) → Choice → World → Option (Except ε (Ret op) × World)
  env : Event → World → World
  /-- What remains to be done for a coroutine that vanished. -/
  kill : Nat → World → World
  prog : (k : Task) → Prog ε Op Ret (Result k)

structure Thread (ε Op : Type) (Ret : Op → Type) {Task : Type} (Result : Task → Type) where
  task : Task
  prog : Prog ε Op Ret (Result task)
  alive : Bool

structure Config (ε Op : Type) (Ret : Op → Type) (World : Type) {Task : Type}
    (Result : Task → Type) where
  world : World
  threads : Nat → Option (Thread ε Op Ret Result)

inductive Label (Choice Event Task : Type) where
  | spawn (t : Nat) (k : Task)
  | step (t : Nat) (c : Choice)
  | env (e : Event)
  | kill (t : Nat)

variable {ε Op : Type} {Ret : Op → Type} {World Choice Event Task : Type} {Result : Task → Type}

/-- The configuration in which no coroutine has been started. -/
def Config.start (w : World) : Config ε Op Ret World Result := ⟨w, fun _ => none⟩

/-- The task of coroutine `t`, once started. -/
def Config.taskOf (c : Config ε Op Ret World Result) (t : Nat) : Option Task :=
  (c.threads t).map (·.task)

theorem Config.taskOf_update (c : Config ε Op Ret World Result) (w : World) (t : Nat)
    (th : Thread ε Op Ret Result) :
    (⟨w, Function.update c.threads t (some th)⟩ : Config ε Op Ret World Result).taskOf =
      Function.update c.taskOf t (some th.task) := by
  funext t'
  by_cases heq : t' = t
  · subst heq; simp [taskOf]
  · simp [taskOf, heq]

/-- Advancing a coroutine does not change which task it carries out. -/
theorem Config.taskOf_advance {c : Config ε Op Ret World Result} {w : World} {t : Nat}
    {th th' : Thread ε Op Ret Result} (ht : c.threads t = some th) (heq : th'.task = th.task) :
    (⟨w, Function.update c.threads t (some th')⟩ : Config ε Op Ret World Result).taskOf =
      c.taskOf := by
  rw [taskOf_update, heq, Function.update_eq_self_iff]
  simp [taskOf, ht]

namespace Machine

variable (M : Machine ε Op Ret World Choice Event Task Result)

/-- One step; `none` when the label does not apply. -/
def step (c : Config ε Op Ret World Result) :
    Label Choice Event Task → Option (Config ε Op Ret World Result)
  | .spawn t k =>
    match c.threads t with
    | none => some { c with threads := Function.update c.threads t (some ⟨k, M.prog k, true⟩) }
    | some _ => none
  | .step t ch =>
    match c.threads t with
    | some ⟨k, .await op f, true⟩ =>
      match M.exec t op ch c.world with
      | some (r, w) => some ⟨w, Function.update c.threads t (some ⟨k, f r, true⟩)⟩
      | none => none
    | _ => none
  | .env e => some { c with world := M.env e c.world }
  | .kill t =>
    match c.threads t with
    | some ⟨k, .await op f, true⟩ =>
      some ⟨M.kill t c.world, Function.update c.threads t (some ⟨k, .await op f, false⟩)⟩
    | _ => none

def run (c : Config ε Op Ret World Result) :
    List (Label Choice Event Task) → Option (Config ε Op Ret World Result)
  | [] => some c
  | l :: ls => (M.step c l).bind fun c' => run c' ls

variable {M}

@[simp] theorem run_nil (c : Config ε Op Ret World Result) : M.run c [] = some c := rfl

theorem run_cons_eq_some {c c' : Config ε Op Ret World Result} {l : Label Choice Event Task}
    {ls : List (Label Choice Event Task)} :
    M.run c (l :: ls) = some c' ↔ ∃ d, M.step c l = some d ∧ M.run d ls = some c' := by
  simp [run, Option.bind_eq_some_iff]

theorem run_append {c : Config ε Op Ret World Result} {ls ls' : List (Label Choice Event Task)} :
    M.run c (ls ++ ls') = (M.run c ls).bind fun d => M.run d ls' := by
  induction ls generalizing c with
  | nil => rfl
  | cons l ls ih =>
    simp only [List.cons_append, run]
    rcases M.step c l with _ | d
    · rfl
    · exact ih

theorem run_snoc_eq_some {c c' : Config ε Op Ret World Result} {l : Label Choice Event Task}
    {ls : List (Label Choice Event Task)} :
    M.run c (ls ++ [l]) = some c' ↔ ∃ d, M.run c ls = some d ∧ M.step d l = some c' := by
  rw [run_append, Option.bind_eq_some_iff]
  constructor
  · rintro ⟨d, hd, hl⟩
    obtain ⟨d', hstep, hnil⟩ := run_cons_eq_some.mp hl
    obtain rfl : d' = c' := Option.some.inj hnil
    exact ⟨d, hd, hstep⟩
  · rintro ⟨d, hd, hl⟩
    exact ⟨d, hd, run_cons_eq_some.mpr ⟨c', hl, rfl⟩⟩

/-! ### What one step can do -/

theorem step_spawn {c c' : Config ε Op Ret World Result} {t : Nat} {k : Task}
    (h : M.step c (.spawn t k) = some c') :
    c.threads t = none ∧
      c' = { c with threads := Function.update c.threads t (some ⟨k, M.prog k, true⟩) } := by
  simp only [step] at h
  rcases ht : c.threads t with _ | th
  · rw [ht] at h
    exact ⟨rfl, (Option.some.inj h).symm⟩
  · rw [ht] at h; simp at h

theorem step_step {c c' : Config ε Op Ret World Result} {t : Nat} {ch : Choice}
    (h : M.step c (.step t ch) = some c') :
    ∃ k op f r w, c.threads t = some ⟨k, .await op f, true⟩ ∧
      M.exec t op ch c.world = some (r, w) ∧
      c' = ⟨w, Function.update c.threads t (some ⟨k, f r, true⟩)⟩ := by
  simp only [step] at h
  rcases ht : c.threads t with _ | ⟨k, p, alive⟩
  · rw [ht] at h; simp at h
  · rw [ht] at h
    rcases p with r | ⟨op, f⟩
    · simp at h
    · cases alive with
      | false => simp at h
      | true =>
        simp only at h
        rcases he : M.exec t op ch c.world with _ | ⟨r, w⟩
        · rw [he] at h; simp at h
        · rw [he] at h
          exact ⟨k, op, f, r, w, rfl, he, (Option.some.inj h).symm⟩

theorem step_kill {c c' : Config ε Op Ret World Result} {t : Nat}
    (h : M.step c (.kill t) = some c') :
    ∃ k op f, c.threads t = some ⟨k, .await op f, true⟩ ∧
      c' = ⟨M.kill t c.world, Function.update c.threads t (some ⟨k, .await op f, false⟩)⟩ := by
  simp only [step] at h
  rcases ht : c.threads t with _ | ⟨k, p, alive⟩
  · rw [ht] at h; simp at h
  · rw [ht] at h
    rcases p with r | ⟨op, f⟩
    · simp at h
    · cases alive with
      | false => simp at h
      | true => exact ⟨k, op, f, rfl, (Option.some.inj h).symm⟩

/-! ### Invariants of runs -/

/-- An invariant of single steps is an invariant of runs. -/
theorem run_induction (Inv : Config ε Op Ret World Result → Prop)
    (ok : Label Choice Event Task → Prop)
    (hstep : ∀ c l c', Inv c → ok l → M.step c l = some c' → Inv c') :
    ∀ {ls : List (Label Choice Event Task)} {c c' : Config ε Op Ret World Result},
      Inv c → (∀ l ∈ ls, ok l) → M.run c ls = some c' → Inv c' := by
  intro ls
  induction ls with
  | nil =>
    intro c c' hc _ hr
    obtain rfl : c = c' := by simpa using hr
    exact hc
  | cons l ls ih =>
    intro c c' hc hok hr
    obtain ⟨d, hd, hr⟩ := run_cons_eq_some.mp hr
    exact ih (hstep c l d hc (hok l (by simp)) hd) (fun l' hl' => hok l' (by simp [hl'])) hr

/-- A coroutine carries out the task as which it was started. -/
theorem run_spawned {w : World} {ls : List (Label Choice Event Task)}
    {c : Config ε Op Ret World Result} (h : M.run (Config.start w) ls = some c) {t : Nat} {k : Task}
    (ht : c.taskOf t = some k) : .spawn t k ∈ ls := by
  suffices hall : ∀ t k, c.taskOf t = some k → .spawn t k ∈ ls from hall t k ht
  refine run_induction (fun c => ∀ t k, c.taskOf t = some k → .spawn t k ∈ ls) (· ∈ ls) ?_ ?_
    (fun _ hl => hl) h
  · intro c l c' hc hl hs
    cases l with
    | spawn t k =>
      obtain ⟨-, rfl⟩ := step_spawn hs
      rw [Config.taskOf_update c c.world t ⟨k, M.prog k, true⟩]
      intro t' k' hk'
      by_cases heq : t' = t
      · subst heq
        rw [Function.update_self, Option.some.injEq] at hk'
        subst hk'
        exact hl
      · rw [Function.update_of_ne heq] at hk'
        exact hc t' k' hk'
    | step t ch =>
      obtain ⟨k, op, f, r, w, ht, -, rfl⟩ := step_step hs
      have htask : (⟨w, Function.update c.threads t (some ⟨k, f r, true⟩)⟩ :
          Config ε Op Ret World Result).taskOf = c.taskOf := Config.taskOf_advance ht rfl
      rw [htask]
      exact hc
    | env e =>
      obtain rfl : _ = c' := Option.some.inj hs
      exact hc
    | kill t =>
      obtain ⟨k, op, f, ht, rfl⟩ := step_kill hs
      have htask : (⟨M.kill t c.world,
          Function.update c.threads t (some ⟨k, .await op f, false⟩)⟩ :
          Config ε Op Ret World Result).taskOf = c.taskOf := Config.taskOf_advance ht rfl
      rw [htask]
      exact hc
  · intro t k hk
    simp [Config.start, Config.taskOf] at hk

theorem run_tasks {allowed : Task → Prop} {ok : Label Choice Event Task → Prop}
    (hspawn : ∀ t k, ok (.spawn t k) → allowed k) {w : World} {ls : List (Label Choice Event Task)}
    {c : Config ε Op Ret World Result} (hok : ∀ l ∈ ls, ok l)
    (h : M.run (Config.start w) ls = some c) {t : Nat} {k : Task} (ht : c.taskOf t = some k) :
    allowed k :=
  hspawn t k (hok _ (run_spawned h ht))

/-- A protocol for the programs of `M` together with an invariant of the world
    and the protocol states that every allowed operation preserves.  `ok` says
    which labels occur in the runs under consideration. -/
structure Discipline (M : Machine ε Op Ret World Choice Event Task Result)
    (ok : Label Choice Event Task → Prop) where
  P : Protocol ε Op Ret
  Inv : World → (Nat → P.State) → (Nat → Option Task) → Prop
  /-- The protocol state of a coroutine that has not been started. -/
  idle : P.State
  start : Task → P.State
  onKill : P.State → P.State
  post : (k : Task) → Except ε (Result k) → P.State → Prop
  conforms : ∀ t k, ok (.spawn t k) → P.Conforms (post k) (M.prog k) (start k)
  spawn : ∀ {w σ τ t k}, ok (.spawn t k) → Inv w σ τ → τ t = none →
    Inv w (Function.update σ t (start k)) (Function.update τ t (some k))
  exec : ∀ {w σ τ t k op ch r w'}, ok (.step t ch) → Inv w σ τ → τ t = some k →
    P.allows (σ t) op → M.exec t op ch w = some (r, w') →
    P.admits op r ∧ Inv w' (Function.update σ t (P.next (σ t) op r)) τ
  env : ∀ {w σ τ e}, ok (.env e) → Inv w σ τ → Inv (M.env e w) σ τ
  kill : ∀ {w σ τ t k}, ok (.kill t) → Inv w σ τ → τ t = some k →
    Inv (M.kill t w) (Function.update σ t (onKill (σ t))) τ

namespace Discipline

variable {ok : Label Choice Event Task → Prop} (D : Discipline M ok)

/-- The invariant, and conformance of what is left of each living coroutine. -/
def Holds (c : Config ε Op Ret World Result) : Prop :=
  ∃ σ : Nat → D.P.State, D.Inv c.world σ c.taskOf ∧
    ∀ t th, c.threads t = some th → th.alive = true →
      D.P.Conforms (D.post th.task) th.prog (σ t)

/-- Only the coroutine that moved has to conform anew. -/
theorem conforms_update {threads : Nat → Option (Thread ε Op Ret Result)}
    {σ : Nat → D.P.State} {t : Nat} {th' : Thread ε Op Ret Result} {s' : D.P.State}
    (hconf : ∀ t th, threads t = some th → th.alive = true →
      D.P.Conforms (D.post th.task) th.prog (σ t))
    (h : th'.alive = true → D.P.Conforms (D.post th'.task) th'.prog s') :
    ∀ t' th, Function.update threads t (some th') t' = some th → th.alive = true →
      D.P.Conforms (D.post th.task) th.prog (Function.update σ t s' t') := by
  intro t' th hth halive
  by_cases heq : t' = t
  · subst heq
    simp only [Function.update_self, Option.some.injEq] at hth ⊢
    subst hth
    exact h halive
  · rw [Function.update_of_ne heq] at hth ⊢
    exact hconf t' th hth halive

theorem holds_step {c c' : Config ε Op Ret World Result} {l : Label Choice Event Task}
    (hc : D.Holds c) (hok : ok l) (h : M.step c l = some c') : D.Holds c' := by
  obtain ⟨σ, hinv, hconf⟩ := hc
  cases l with
  | spawn t k =>
    obtain ⟨ht, rfl⟩ := step_spawn h
    have hτ : c.taskOf t = none := by simp [Config.taskOf, ht]
    refine ⟨Function.update σ t (D.start k), ?_,
      D.conforms_update hconf fun _ => D.conforms t k hok⟩
    have hinv' := D.spawn hok hinv hτ
    rwa [← Config.taskOf_update c c.world t ⟨k, M.prog k, true⟩] at hinv'
  | step t ch =>
    obtain ⟨k, op, f, r, w, ht, he, rfl⟩ := step_step h
    have hτ : c.taskOf t = some k := by simp [Config.taskOf, ht]
    obtain ⟨hallow, hcont⟩ := hconf t _ ht rfl
    obtain ⟨hadm, hinv'⟩ := D.exec hok hinv hτ hallow he
    refine ⟨Function.update σ t (D.P.next (σ t) op r), ?_,
      D.conforms_update hconf fun _ => hcont r hadm⟩
    have htask : (⟨w, Function.update c.threads t (some ⟨k, f r, true⟩)⟩ :
        Config ε Op Ret World Result).taskOf = c.taskOf := Config.taskOf_advance ht rfl
    rw [htask]
    exact hinv'
  | env e =>
    obtain rfl : _ = c' := Option.some.inj h
    exact ⟨σ, D.env hok hinv, hconf⟩
  | kill t =>
    obtain ⟨k, op, f, ht, rfl⟩ := step_kill h
    have hτ : c.taskOf t = some k := by simp [Config.taskOf, ht]
    refine ⟨Function.update σ t (D.onKill (σ t)), ?_,
      D.conforms_update hconf fun halive => by simp at halive⟩
    have htask : (⟨M.kill t c.world,
        Function.update c.threads t (some ⟨k, .await op f, false⟩)⟩ :
        Config ε Op Ret World Result).taskOf = c.taskOf := Config.taskOf_advance ht rfl
    rw [htask]
    exact D.kill hok hinv hτ

/-- **The interleaving rule.**  A discipline that holds initially holds in every
    state of every run. -/
theorem holds_run {w : World} {ls : List (Label Choice Event Task)}
    {c : Config ε Op Ret World Result}
    (hinit : D.Inv w (fun _ => D.idle) fun _ => none)
    (hok : ∀ l ∈ ls, ok l) (h : M.run (Config.start w) ls = some c) : D.Holds c := by
  refine run_induction D.Holds ok (fun c l c' hc hl hs => D.holds_step hc hl hs) ?_ hok h
  exact ⟨fun _ => D.idle, hinit, by intro t th hth; simp [Config.start] at hth⟩

end Discipline

end Machine

end Async
