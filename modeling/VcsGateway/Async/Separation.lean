import VcsGateway.Async.Alike

/-!
# A run without some of its coroutines

Strike from a run all labels of some coroutines.  When what these do does not matter to
the rest of the world, the other coroutines go exactly the way they went: every answer they
get is the same, and so is every result.
-/

namespace Async

variable {ε Op : Type} {Ret : Op → Type} {World Choice Event Task : Type} {Result : Task → Type}

/-- The protocol that watches the operations, and counts on their answers. -/
def Protocol.heeding (ok : Op → Prop) (admits : (op : Op) → Except ε (Ret op) → Prop) :
    Protocol ε Op Ret where
  State := Unit
  allows _ op := ok op
  next _ _ _ := ()
  admits := admits

theorem Prog.Only.heeding {α : Type} {ok : Op → Prop} {admits : (op : Op) → Except ε (Ret op) → Prop}
    {p : Prog ε Op Ret α} (hp : p.Only ok) :
    (Protocol.heeding ok admits).Conforms (fun _ _ => True) p () := by
  apply Protocol.Conforms.within (I := fun _ => True) (hp.mono ?_) trivial
  exact fun op hop _ _ => ⟨hop, fun _ _ => trivial⟩

/-- The labels of the coroutines `own`, and those of the environment. -/
def Label.of (own : Nat → Bool) : Label Choice Event Task → Bool
  | .spawn t _ | .step t _ | .kill t => own t
  | .env _ => true

namespace Machine

variable {M : Machine ε Op Ret World Choice Event Task Result} {c c' : Config ε Op Ret World Result}

/-- A coroutine keeps its task. -/
theorem step_taskOf {l : Label Choice Event Task} (hs : M.step c l = some c') {t : Nat} {k : Task}
    (ht : c.taskOf t = some k ∨ l = .spawn t k) : c'.taskOf t = some k := by
  cases l with
  | spawn t' k' =>
    obtain ⟨hnone, rfl⟩ := step_spawn hs
    rw [Config.taskOf_update c c.world t' ⟨k', M.prog k', true⟩]
    rcases ht with ht | ht
    · have hne : t ≠ t' := by
        rintro rfl
        simp [Config.taskOf, hnone] at ht
      rw [Function.update_of_ne hne]
      exact ht
    · obtain ⟨rfl, rfl⟩ : t' = t ∧ k' = k := by simpa using ht
      rw [Function.update_self]
  | step t' ch =>
    obtain ⟨k', op, f, r, w, ht', -, rfl⟩ := step_step hs
    have htasks : (⟨w, Function.update c.threads t' (some ⟨k', f r, true⟩)⟩ :
        Config ε Op Ret World Result).taskOf = c.taskOf := Config.taskOf_advance ht' rfl
    rw [htasks]
    simpa using ht
  | env e =>
    obtain rfl : _ = c' := Option.some.inj hs
    have ht : c.taskOf t = some k := by simpa using ht
    exact ht
  | kill t' =>
    obtain ⟨k', op, f, ht', rfl⟩ := step_kill hs
    have htasks : (⟨M.kill t' c.world,
        Function.update c.threads t' (some ⟨k', .await op f, false⟩)⟩ :
        Config ε Op Ret World Result).taskOf = c.taskOf := Config.taskOf_advance ht' rfl
    rw [htasks]
    simpa using ht

/-- What has been started in a run has the task as which it was started. -/
theorem run_taskOf {ls : List (Label Choice Event Task)} (hr : M.run c ls = some c') {t : Nat}
    {k : Task} (ht : c.taskOf t = some k ∨ .spawn t k ∈ ls) : c'.taskOf t = some k := by
  induction ls generalizing c with
  | nil =>
    obtain rfl : c = c' := by simpa using hr
    simpa using ht
  | cons l ls ih =>
    obtain ⟨c₁, hs, hr⟩ := run_cons_eq_some.mp hr
    apply ih hr
    rcases ht with ht | ht
    · exact .inl (step_taskOf hs (.inl ht))
    · rcases List.mem_cons.mp ht with heq | ht
      · exact .inl (step_taskOf hs (.inr heq.symm))
      · exact .inr ht

end Machine

/-- A relation between a world and the world of the kept coroutines alone. -/
structure Machine.Separation (M : Machine ε Op Ret World Choice Event Task Result)
    (ok : Label Choice Event Task → Prop) where
  kept : Task → Prop
  /-- What a coroutine with this task awaits. -/
  ops : Task → Op → Prop
  admits : (op : Op) → Except ε (Ret op) → Prop
  Sim : World → World → (Nat → Option Task) → Prop
  conforms : ∀ t k, ok (.spawn t k) →
    (Protocol.heeding (ops k) admits).Conforms (fun _ _ => True) (M.prog k) ()
  spawn : ∀ {w w' τ t k}, ok (.spawn t k) → Sim w w' τ → τ t = none →
    Sim w w' (Function.update τ t (some k))
  keptExec : ∀ {w w' τ t k op ch a w₁}, Sim w w' τ → τ t = some k → kept k → ops k op →
    M.exec t op ch w = some (a, w₁) →
    admits op a ∧ ∃ w₁', M.exec t op ch w' = some (a, w₁') ∧ Sim w₁ w₁' τ
  leftExec : ∀ {w w' τ t k op ch a w₁}, Sim w w' τ → τ t = some k → ¬kept k → ops k op →
    M.exec t op ch w = some (a, w₁) → admits op a ∧ Sim w₁ w' τ
  env : ∀ {w w' τ e}, ok (.env e) → Sim w w' τ → Sim (M.env e w) (M.env e w') τ
  keptKill : ∀ {w w' τ t k}, Sim w w' τ → τ t = some k → kept k →
    Sim (M.kill t w) (M.kill t w') τ
  leftKill : ∀ {w w' τ t k}, Sim w w' τ → τ t = some k → ¬kept k → Sim (M.kill t w) w' τ

namespace Machine.Separation

variable {M : Machine ε Op Ret World Choice Event Task Result} {ok : Label Choice Event Task → Prop}
  (S : M.Separation ok) (own : Nat → Bool)

/-- What remains of a coroutine keeps to the operations of its task. -/
def Keeps (th : Thread ε Op Ret Result) : Prop :=
  th.alive = true →
    (Protocol.heeding (S.ops th.task) S.admits).Conforms (fun _ _ => True) th.prog ()

/-- `c'` is `c` without the coroutines that are not `own`. -/
structure Related (c c' : Config ε Op Ret World Result) : Prop where
  sim : S.Sim c.world c'.world c.taskOf
  tasks : ∀ t k, c.taskOf t = some k → (own t = true ↔ S.kept k)
  threads : ∀ t, c'.threads t = if own t then c.threads t else none
  keeps : ∀ t th, c.threads t = some th → S.Keeps th

variable {S own}

theorem Related.start {w w' : World} (h : S.Sim w w' fun _ => none) :
    S.Related own (Config.start w) (Config.start w') where
  sim := h
  tasks := by
    intro t k ht
    simp [Config.taskOf, Config.start] at ht
  threads t := by
    simp only [Config.start]
    split <;> rfl
  keeps := by
    intro t th ht
    simp [Config.start] at ht

theorem update_keeps {threads : Nat → Option (Thread ε Op Ret Result)} {t : Nat}
    {th : Thread ε Op Ret Result} (h : ∀ t th, threads t = some th → S.Keeps th) (hth : S.Keeps th) :
    ∀ t' th', Function.update threads t (some th) t' = some th' → S.Keeps th' := by
  intro t' th' ht'
  by_cases heq : t' = t
  · subst heq
    rw [Function.update_self, Option.some.injEq] at ht'
    rw [← ht']
    exact hth
  · rw [Function.update_of_ne heq] at ht'
    exact h t' th' ht'

/-- One of the kept coroutines moves, in both configurations. -/
theorem update_kept {threads threads' : Nat → Option (Thread ε Op Ret Result)} {t : Nat}
    {th : Thread ε Op Ret Result} (h : ∀ t, threads' t = if own t then threads t else none)
    (ht : own t = true) : ∀ t', Function.update threads' t (some th) t' =
      if own t' then Function.update threads t (some th) t' else none := by
  intro t'
  by_cases heq : t' = t
  · rw [heq, Function.update_self, Function.update_self, if_pos ht]
  · rw [Function.update_of_ne heq, Function.update_of_ne heq]
    exact h t'

/-- One of the others moves, in the larger configuration only. -/
theorem update_left {threads threads' : Nat → Option (Thread ε Op Ret Result)} {t : Nat}
    {th : Thread ε Op Ret Result} (h : ∀ t, threads' t = if own t then threads t else none)
    (ht : ¬own t = true) : ∀ t', threads' t' =
      if own t' then Function.update threads t (some th) t' else none := by
  intro t'
  by_cases heq : t' = t
  · rw [h t', heq, if_neg ht, if_neg ht]
  · rw [Function.update_of_ne heq]
    exact h t'

variable {c c' d : Config ε Op Ret World Result}

theorem Related.spawn (h : S.Related own c c') {t : Nat} {k : Task} (hok : ok (.spawn t k))
    (hown : own t = true ↔ S.kept k) (ht : c.threads t = none) :
    S.Related own { c with threads := Function.update c.threads t (some ⟨k, M.prog k, true⟩) }
      (if own t then { c' with threads := Function.update c'.threads t (some ⟨k, M.prog k, true⟩) }
        else c') := by
  have hτ : c.taskOf t = none := by simp [Config.taskOf, ht]
  have hsim := S.spawn hok h.sim hτ
  rw [← Config.taskOf_update c c.world t ⟨k, M.prog k, true⟩] at hsim
  have hnew : ∀ t' k', Config.taskOf (⟨c.world, Function.update c.threads t
      (some ⟨k, M.prog k, true⟩)⟩ : Config ε Op Ret World Result) t' = some k' →
      (own t' = true ↔ S.kept k') := by
    intro t' k' hk'
    rw [Config.taskOf_update c c.world t ⟨k, M.prog k, true⟩] at hk'
    by_cases heq : t' = t
    · subst heq
      rw [Function.update_self, Option.some.injEq] at hk'
      rw [← hk']
      exact hown
    · rw [Function.update_of_ne heq] at hk'
      exact h.tasks t' k' hk'
  have hkeeps : ∀ t' th', Function.update c.threads t (some ⟨k, M.prog k, true⟩) t' = some th' →
      S.Keeps th' := update_keeps h.keeps fun _ => S.conforms t k hok
  by_cases hself : own t = true
  · rw [if_pos hself]
    exact ⟨hsim, hnew, update_kept h.threads hself, hkeeps⟩
  · rw [if_neg hself]
    exact ⟨hsim, hnew, update_left h.threads hself, hkeeps⟩

/-- After a coroutine has moved on. -/
theorem Related.advance (h : S.Related own c c') {w w' : World} {t : Nat}
    {th th' : Thread ε Op Ret Result} {threads' : Nat → Option (Thread ε Op Ret Result)}
    (ht : c.threads t = some th) (htask : th'.task = th.task) (hsim : S.Sim w w' c.taskOf)
    (hkeeps : S.Keeps th') (hthreads : ∀ t', threads' t' =
      if own t' then Function.update c.threads t (some th') t' else none) :
    S.Related own ⟨w, Function.update c.threads t (some th')⟩ ⟨w', threads'⟩ := by
  have htasks := Config.taskOf_advance (c := c) (w := w) ht htask
  refine ⟨?_, ?_, hthreads, update_keeps h.keeps hkeeps⟩
  · rw [htasks]
    exact hsim
  · intro t' k' hk'
    rw [htasks] at hk'
    exact h.tasks t' k' hk'

theorem Related.step (h : S.Related own c c') {l : Label Choice Event Task} (hok : ok l)
    (hown : ∀ t k, l = .spawn t k → (own t = true ↔ S.kept k)) (hs : M.step c l = some d) :
    ∃ d', M.run c' ([l].filter (Label.of own)) = some d' ∧ S.Related own d d' := by
  -- a run of one label, or of none
  have hone : ∀ {d'}, l.of own = true → M.step c' l = some d' →
      M.run c' ([l].filter (Label.of own)) = some d' := by
    intro d' hl hs'
    rw [List.filter_cons_of_pos hl]
    exact run_cons_eq_some.mpr ⟨d', hs', rfl⟩
  have hnone : ¬l.of own = true → M.run c' ([l].filter (Label.of own)) = some c' := by
    intro hl
    rw [List.filter_cons_of_neg hl]
    rfl
  cases l with
  | spawn t k =>
    obtain ⟨ht, rfl⟩ := step_spawn hs
    have hspawned := h.spawn hok (hown t k rfl) ht
    by_cases hself : own t = true
    · rw [if_pos hself] at hspawned
      have ht' : c'.threads t = none := by rw [h.threads t, if_pos hself, ht]
      exact ⟨_, hone hself (step_spawn_of ht'), hspawned⟩
    · rw [if_neg hself] at hspawned
      exact ⟨c', hnone hself, hspawned⟩
  | step t ch =>
    obtain ⟨k, op, f, a, w, ht, he, rfl⟩ := step_step hs
    have hτ : c.taskOf t = some k := by simp [Config.taskOf, ht]
    obtain ⟨hop, hcont⟩ := h.keeps t _ ht rfl
    by_cases hself : own t = true
    · obtain ⟨hadmits, w', he', hsim⟩ := S.keptExec h.sim hτ ((h.tasks t k hτ).mp hself) hop he
      have ht' : c'.threads t = some ⟨k, .await op f, true⟩ := by
        rw [h.threads t, if_pos hself, ht]
      exact ⟨_, hone hself (step_step_of ht' he'),
        h.advance ht rfl hsim (fun _ => hcont a hadmits) (update_kept h.threads hself)⟩
    · have hleft : ¬S.kept k := fun hk => hself ((h.tasks t k hτ).mpr hk)
      obtain ⟨hadmits, hsim⟩ := S.leftExec h.sim hτ hleft hop he
      exact ⟨c', hnone hself,
        h.advance ht rfl hsim (fun _ => hcont a hadmits) (update_left h.threads hself)⟩
  | env e =>
    obtain rfl : _ = d := Option.some.inj hs
    exact ⟨_, hone rfl rfl, S.env hok h.sim, h.tasks, h.threads, h.keeps⟩
  | kill t =>
    obtain ⟨k, op, f, ht, rfl⟩ := step_kill hs
    have hτ : c.taskOf t = some k := by simp [Config.taskOf, ht]
    have hdead : S.Keeps ⟨k, .await op f, false⟩ := fun halive => by simp at halive
    by_cases hself : own t = true
    · have ht' : c'.threads t = some ⟨k, .await op f, true⟩ := by
        rw [h.threads t, if_pos hself, ht]
      have hsim := S.keptKill h.sim hτ ((h.tasks t k hτ).mp hself)
      exact ⟨_, hone hself (step_kill_of ht'),
        h.advance ht rfl hsim hdead (update_kept h.threads hself)⟩
    · have hsim := S.leftKill h.sim hτ fun hk => hself ((h.tasks t k hτ).mpr hk)
      exact ⟨c', hnone hself, h.advance ht rfl hsim hdead (update_left h.threads hself)⟩

/-- **The separation rule.**  Without the labels of the others, the run leads to what is left
    of its end without the others. -/
theorem Related.run {ls : List (Label Choice Event Task)} (hok : ∀ l ∈ ls, ok l)
    (hown : ∀ t k, .spawn t k ∈ ls → (own t = true ↔ S.kept k)) (h : S.Related own c c')
    (hr : M.run c ls = some d) :
    ∃ d', M.run c' (ls.filter (Label.of own)) = some d' ∧ S.Related own d d' := by
  induction ls generalizing c c' with
  | nil =>
    obtain rfl : c = d := by simpa using hr
    exact ⟨c', rfl, h⟩
  | cons l ls ih =>
    obtain ⟨c₁, hs, hr⟩ := run_cons_eq_some.mp hr
    obtain ⟨c₁', hs', h₁⟩ := h.step (hok l (by simp)) (fun t k hl => hown t k (by simp [hl])) hs
    obtain ⟨d', hr', hd⟩ := ih (fun l' hl' => hok l' (by simp [hl']))
      (fun t k hk => hown t k (by simp [hk])) h₁ hr
    refine ⟨d', ?_, hd⟩
    rw [← List.singleton_append, List.filter_append, run_append, hs']
    exact hr'

end Machine.Separation

end Async
