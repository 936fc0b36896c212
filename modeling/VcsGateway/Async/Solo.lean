import VcsGateway.Async.System

/-!
# A coroutine run alone

`Prog.solo` runs a program to its end with no other coroutine in between; `choose` says
how the environment answers each await.  `Ensures` is the total-correctness triple for
such runs, `Attains` excuses awaits that are never answered, and `Machine.run_solo` finds
the run again among the interleaved ones.
-/

namespace Async

variable {ε Op : Type} {Ret : Op → Type} {World Choice α β : Type}

namespace Prog

variable (exec : (op : Op) → Choice → World → Option (Except ε (Ret op) × World))
  (choose : World → Op → Choice)

/-- Run `p` from `w`; `none` when an await is never answered. -/
def solo : Prog ε Op Ret α → World → Option (Except ε α × World)
  | .ret r, w => some (r, w)
  | .await op k, w =>
    match exec op (choose w op) w with
    | some (a, w') => (k a).solo w'
    | none => none

/-- `p` ends when run alone from `w`, with a result and a world that satisfy `Q`. -/
def Ensures (Q : Except ε α → World → Prop) (p : Prog ε Op Ret α) (w : World) : Prop :=
  ∃ r w', p.solo exec choose w = some (r, w') ∧ Q r w'

variable {exec choose} {Q : Except ε α → World → Prop} {w : World}

@[simp] theorem ensures_ret {r : Except ε α} :
    (Prog.ret r : Prog ε Op Ret α).Ensures exec choose Q w ↔ Q r w := by
  constructor
  · rintro ⟨r', w', h, hQ⟩
    simp only [solo, Option.some.injEq, Prod.mk.injEq] at h
    rw [h.1, h.2]
    exact hQ
  · intro hQ
    exact ⟨r, w, rfl, hQ⟩

theorem Ensures.await {op : Op} {k : Except ε (Ret op) → Prog ε Op Ret α} {a : Except ε (Ret op)}
    {w₁ : World} (he : exec op (choose w op) w = some (a, w₁))
    (h : (k a).Ensures exec choose Q w₁) : (Prog.await op k).Ensures exec choose Q w := by
  obtain ⟨r, w', hr, hQ⟩ := h
  refine ⟨r, w', ?_, hQ⟩
  simp only [solo, he]
  exact hr

theorem Ensures.mono {Q' : Except ε α → World → Prop} {p : Prog ε Op Ret α}
    (h : p.Ensures exec choose Q w) (hQ : ∀ r w', Q r w' → Q' r w') :
    p.Ensures exec choose Q' w := by
  obtain ⟨r, w', hr, hq⟩ := h
  exact ⟨r, w', hr, hQ r w' hq⟩

theorem solo_andThen (p : Prog ε Op Ret α) (f : Except ε α → Prog ε Op Ret β) (w : World) :
    (p.andThen f).solo exec choose w =
      (p.solo exec choose w).bind fun (r, w') => (f r).solo exec choose w' := by
  induction p generalizing w with
  | ret r => rfl
  | await op k ih =>
    simp only [await_andThen, solo]
    rcases exec op (choose w op) w with _ | ⟨a, w'⟩
    · rfl
    · exact ih a w'

theorem Ensures.andThen {R : Except ε β → World → Prop} {p : Prog ε Op Ret α}
    {f : Except ε α → Prog ε Op Ret β} (hp : p.Ensures exec choose Q w)
    (hf : ∀ r w', Q r w' → (f r).Ensures exec choose R w') :
    (p.andThen f).Ensures exec choose R w := by
  obtain ⟨r, w₁, hr, hQ⟩ := hp
  obtain ⟨r', w₂, hr', hR⟩ := hf r w₁ hQ
  exact ⟨r', w₂, by rw [solo_andThen, hr]; exact hr', hR⟩

theorem Ensures.bind {R : Except ε β → World → Prop} {p : Prog ε Op Ret α}
    {f : α → Prog ε Op Ret β} (hp : p.Ensures exec choose Q w)
    (hok : ∀ a w', Q (.ok a) w' → (f a).Ensures exec choose R w')
    (herr : ∀ e w', Q (.error e) w' → R (.error e) w') :
    (p >>= f).Ensures exec choose R w := by
  refine hp.andThen fun r w' hr => ?_
  cases r with
  | ok a => exact hok a w' hr
  | error e => exact ensures_ret.mpr (herr e w' hr)

theorem Ensures.ofExcept_bind {R : Except ε β → World → Prop} {r : Except ε α}
    {f : α → Prog ε Op Ret β} (hok : ∀ a, r = .ok a → (f a).Ensures exec choose R w)
    (herr : ∀ e, r = .error e → R (.error e) w) :
    (ofExcept r >>= f).Ensures exec choose R w := by
  cases r with
  | ok a => exact hok a rfl
  | error e => exact ensures_ret.mpr (herr e rfl)

/-! ### Awaits that are never answered -/

variable (exec choose)

/-- `p`, run alone from `w`, ends with a result and a world that satisfy `Q`, or it waits at an
    operation that is `stuck`. -/
def Attains (stuck : World → Op → Prop) (Q : Except ε α → World → Prop) :
    Prog ε Op Ret α → World → Prop
  | .ret r, w => Q r w
  | .await op k, w =>
    match exec op (choose w op) w with
    | some (a, w') => (k a).Attains stuck Q w'
    | none => stuck w op

variable {exec choose} {stuck : World → Op → Prop}

@[simp] theorem attains_ret {r : Except ε α} :
    (Prog.ret r : Prog ε Op Ret α).Attains exec choose stuck Q w ↔ Q r w :=
  Iff.rfl

theorem Attains.await {op : Op} {k : Except ε (Ret op) → Prog ε Op Ret α} {a : Except ε (Ret op)}
    {w₁ : World} (he : exec op (choose w op) w = some (a, w₁))
    (h : (k a).Attains exec choose stuck Q w₁) :
    (Prog.await op k).Attains exec choose stuck Q w := by
  simp only [Attains, he]
  exact h

theorem Attains.waits {op : Op} {k : Except ε (Ret op) → Prog ε Op Ret α}
    (he : exec op (choose w op) w = none) (h : stuck w op) :
    (Prog.await op k).Attains exec choose stuck Q w := by
  simp only [Attains, he]
  exact h

/-- What ends is excused from nothing. -/
theorem Ensures.attains {p : Prog ε Op Ret α} (h : p.Ensures exec choose Q w) :
    p.Attains exec choose stuck Q w := by
  induction p generalizing w with
  | ret r => exact ensures_ret.mp h
  | await op k ih =>
    obtain ⟨r, w', hr, hQ⟩ := h
    simp only [solo] at hr
    rcases he : exec op (choose w op) w with _ | ⟨a, w₁⟩
    · simp [he] at hr
    · rw [he] at hr
      exact .await he (ih a ⟨r, w', hr, hQ⟩)

/-- A run that ends satisfies `Q`. -/
theorem Attains.ended {p : Prog ε Op Ret α} (h : p.Attains exec choose stuck Q w) {r : Except ε α}
    {w' : World} (hr : p.solo exec choose w = some (r, w')) : Q r w' := by
  induction p generalizing w with
  | ret r' =>
    simp only [solo, Option.some.injEq, Prod.mk.injEq] at hr
    rw [← hr.1, ← hr.2]
    exact h
  | await op k ih =>
    simp only [solo] at hr
    rcases he : exec op (choose w op) w with _ | ⟨a, w₁⟩
    · simp [he] at hr
    · rw [he] at hr
      simp only [Attains, he] at h
      exact ih a h hr

theorem Attains.mono {Q' : Except ε α → World → Prop} {p : Prog ε Op Ret α}
    (h : p.Attains exec choose stuck Q w) (hQ : ∀ r w', Q r w' → Q' r w') :
    p.Attains exec choose stuck Q' w := by
  induction p generalizing w with
  | ret r => exact hQ r w h
  | await op k ih =>
    rcases he : exec op (choose w op) w with _ | ⟨a, w₁⟩
    · simp only [Attains, he] at h ⊢
      exact h
    · simp only [Attains, he] at h
      exact .await he (ih a h)

theorem Attains.andThen {R : Except ε β → World → Prop} {p : Prog ε Op Ret α}
    {f : Except ε α → Prog ε Op Ret β} (hp : p.Attains exec choose stuck Q w)
    (hf : ∀ r w', Q r w' → (f r).Attains exec choose stuck R w') :
    (p.andThen f).Attains exec choose stuck R w := by
  induction p generalizing w with
  | ret r => exact hf r w hp
  | await op k ih =>
    rw [await_andThen]
    rcases he : exec op (choose w op) w with _ | ⟨a, w₁⟩
    · simp only [Attains, he] at hp ⊢
      exact hp
    · simp only [Attains, he] at hp
      exact .await he (ih a hp)

theorem Attains.bind {R : Except ε β → World → Prop} {p : Prog ε Op Ret α}
    {f : α → Prog ε Op Ret β} (hp : p.Attains exec choose stuck Q w)
    (hok : ∀ a w', Q (.ok a) w' → (f a).Attains exec choose stuck R w')
    (herr : ∀ e w', Q (.error e) w' → R (.error e) w') :
    (p >>= f).Attains exec choose stuck R w := by
  refine hp.andThen fun r w' hr => ?_
  cases r with
  | ok a => exact hok a w' hr
  | error e => exact herr e w' hr

theorem Attains.ofExcept_bind {R : Except ε β → World → Prop} {r : Except ε α}
    {f : α → Prog ε Op Ret β} (hok : ∀ a, r = .ok a → (f a).Attains exec choose stuck R w)
    (herr : ∀ e, r = .error e → R (.error e) w) :
    (ofExcept r >>= f).Attains exec choose stuck R w := by
  cases r with
  | ok a => exact hok a rfl
  | error e => exact herr e rfl

/-- The invariant `I` speaks of the elements that the loop is done with. -/
theorem Attains.forEach {xs : List β} {body : β → Prog ε Op Ret Unit} {Q : Except ε Unit → World → Prop}
    (I : List β → World → Prop) (hinit : I [] w)
    (hstep : ∀ ys x w, ys ++ [x] <+: xs → I ys w → (body x).Attains exec choose stuck
      (fun r w' => (r = .ok () ∧ I (ys ++ [x]) w') ∨ ∃ e, r = .error e ∧ Q (.error e) w') w)
    (hend : ∀ w', I xs w' → Q (.ok ()) w') :
    (Prog.forEach xs body).Attains exec choose stuck Q w := by
  -- `done` is what the loop is done with; the induction is on the rest
  suffices h : ∀ rest done w, done ++ rest = xs → I done w →
      (Prog.forEach rest body).Attains exec choose stuck Q w from h xs [] w rfl hinit
  intro rest
  induction rest with
  | nil =>
    intro done w heq hI
    rw [List.append_nil] at heq
    exact hend w (heq ▸ hI)
  | cons x rest ih =>
    intro done w heq hI
    have hprefix : done ++ [x] <+: xs := ⟨rest, by rw [← heq, List.append_assoc]; rfl⟩
    apply (hstep done x w hprefix hI).andThen
    rintro r w' (⟨rfl, hI'⟩ | ⟨e, rfl, hQ⟩)
    · exact ih (done ++ [x]) w' (by rw [← heq, List.append_assoc]; rfl) hI'
    · exact hQ

end Prog

/-- A program that follows a protocol ends when run alone, if the environment answers the
    operations that the protocol allows, but for those that are stuck. -/
theorem Protocol.Conforms.attains {A : Protocol ε Op Ret} {Q : Except ε α → A.State → Prop}
    {exec : (op : Op) → Choice → World → Option (Except ε (Ret op) × World)}
    {choose : World → Op → Choice} {stuck : World → Op → Prop} {I : World → A.State → Prop}
    (hstep : ∀ w s op, I w s → A.allows s op → (exec op (choose w op) w = none ∧ stuck w op) ∨
      ∃ a w', exec op (choose w op) w = some (a, w') ∧ A.admits op a ∧ I w' (A.next s op a))
    {p : Prog ε Op Ret α} {w : World} {s : A.State} (h : A.Conforms Q p s) (hw : I w s) :
    p.Attains exec choose stuck (fun r w' => ∃ s', Q r s' ∧ I w' s') w := by
  induction p generalizing w s with
  | ret r => exact ⟨s, h, hw⟩
  | await op k ih =>
    rcases hstep w s op hw h.1 with ⟨hnone, hstuck⟩ | ⟨a, w', he, hadmits, hw'⟩
    · exact .waits hnone hstuck
    · exact .await he (ih a (h.2 a hadmits) hw')

variable {Event Task : Type} {Result : Task → Type}
  {M : Machine ε Op Ret World Choice Event Task Result} {choose : World → Op → Choice}

/-- A run alone is a run of the machine in which only that coroutine moves. -/
theorem Machine.run_solo {t : Nat} {k : Task} {p : Prog ε Op Ret (Result k)}
    {c : Config ε Op Ret World Result} {r : Except ε (Result k)} {w' : World}
    (hc : c.threads t = some ⟨k, p, true⟩)
    (h : p.solo (M.exec t) choose c.world = some (r, w')) :
    ∃ ls, (∀ l ∈ ls, ∃ ch, l = .step t ch) ∧
      M.run c ls = some ⟨w', Function.update c.threads t (some ⟨k, .ret r, true⟩)⟩ := by
  induction p generalizing c with
  | ret r' =>
    simp only [Prog.solo, Option.some.injEq, Prod.mk.injEq] at h
    obtain ⟨rfl, rfl⟩ := h
    refine ⟨[], by simp, ?_⟩
    rw [run_nil, ← hc, Function.update_eq_self]
  | await op f ih =>
    simp only [Prog.solo] at h
    rcases he : M.exec t op (choose c.world op) c.world with _ | ⟨a, w₁⟩
    · simp [he] at h
    · simp only [he] at h
      have hstep : M.step c (.step t (choose c.world op)) =
          some ⟨w₁, Function.update c.threads t (some ⟨k, f a, true⟩)⟩ := by
        simp [step, hc, he]
      obtain ⟨ls, hls, hrun⟩ := ih a
        (c := ⟨w₁, Function.update c.threads t (some ⟨k, f a, true⟩)⟩)
        (Function.update_self t _ c.threads) h
      refine ⟨.step t (choose c.world op) :: ls, ?_, run_cons_eq_some.mpr ⟨_, hstep, ?_⟩⟩
      · intro l hl
        rcases List.mem_cons.mp hl with rfl | hl
        · exact ⟨_, rfl⟩
        · exact hls l hl
      · rw [hrun, Function.update_idem]

/-- The coroutine runs on, and comes to its end or to an operation that is stuck. -/
theorem Machine.run_attains {stuck : World → Op → Prop} {t : Nat} {k : Task}
    {p : Prog ε Op Ret (Result k)} {Q : Except ε (Result k) → World → Prop}
    {c : Config ε Op Ret World Result} (hc : c.threads t = some ⟨k, p, true⟩)
    (h : p.Attains (M.exec t) choose stuck Q c.world) :
    ∃ ls c', (∀ l ∈ ls, ∃ ch, l = .step t ch) ∧ M.run c ls = some c' ∧
      ((∃ r, Q r c'.world) ∨ ∃ op, stuck c'.world op) := by
  induction p generalizing c with
  | ret r => exact ⟨[], c, by simp, rfl, .inl ⟨r, h⟩⟩
  | await op f ih =>
    rcases he : M.exec t op (choose c.world op) c.world with _ | ⟨a, w₁⟩
    · simp only [Prog.Attains, he] at h
      exact ⟨[], c, by simp, rfl, .inr ⟨op, h⟩⟩
    · simp only [Prog.Attains, he] at h
      have hstep : M.step c (.step t (choose c.world op)) =
          some ⟨w₁, Function.update c.threads t (some ⟨k, f a, true⟩)⟩ := by
        simp [step, hc, he]
      obtain ⟨ls, c', hls, hrun, hend⟩ := ih a
        (c := ⟨w₁, Function.update c.threads t (some ⟨k, f a, true⟩)⟩)
        (Function.update_self t _ c.threads) h
      refine ⟨.step t (choose c.world op) :: ls, c', ?_, run_cons_eq_some.mpr ⟨_, hstep, hrun⟩, hend⟩
      intro l hl
      rcases List.mem_cons.mp hl with rfl | hl
      · exact ⟨_, rfl⟩
      · exact hls l hl

/-- Only finitely many coroutines have been started. -/
theorem Machine.run_bounded {w : World} {ls : List (Label Choice Event Task)}
    {c : Config ε Op Ret World Result} (h : M.run (Config.start w) ls = some c) :
    ∃ n, ∀ t, n ≤ t → c.threads t = none := by
  refine run_induction (fun c => ∃ n, ∀ t, n ≤ t → c.threads t = none) (fun _ => True) ?_
    ⟨0, fun _ _ => rfl⟩ (fun _ _ => trivial) h
  rintro c l c' ⟨n, hn⟩ - hs
  have hupdate : ∀ t th, ∃ n, ∀ t', n ≤ t' → Function.update c.threads t th t' = none := by
    intro t th
    refine ⟨max n (t + 1), fun t' ht' => ?_⟩
    rw [Function.update_of_ne (by omega)]
    exact hn t' (by omega)
  cases l with
  | spawn t k =>
    obtain ⟨-, rfl⟩ := step_spawn hs
    exact hupdate t _
  | step t ch =>
    obtain ⟨k, op, f, r, w, -, -, rfl⟩ := step_step hs
    exact hupdate t _
  | env e =>
    obtain rfl : _ = c' := Option.some.inj hs
    exact ⟨n, hn⟩
  | kill t =>
    obtain ⟨k, op, f, -, rfl⟩ := step_kill hs
    exact hupdate t _

end Async
