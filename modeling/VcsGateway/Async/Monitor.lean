import VcsGateway.Async.System

/-!
# Monitored runs

A monitor watches a run and keeps what it needs to judge the next step.  The runs that
it accepts satisfy every invariant that the accepted steps keep.
-/

namespace Async

variable {ε Op : Type} {Ret : Op → Type} {World Choice Event Task : Type} {Result : Task → Type}

/-! ### What is left of the coroutines -/

/-- What is left of each living coroutine conforms to the protocol, and ends in `Q`. -/
def Protocol.Guides (A : Protocol ε Op Ret) (Q : A.State → Prop)
    (c : Config ε Op Ret World Result) (σ : Nat → A.State) : Prop :=
  ∀ t th, c.threads t = some th → th.alive = true → A.Conforms (fun _ => Q) th.prog (σ t)

namespace Protocol.Guides

variable {A : Protocol ε Op Ret} {Q : A.State → Prop} {c : Config ε Op Ret World Result}
  {σ : Nat → A.State}

/-- Only the coroutine that moved has to conform anew. -/
theorem update (h : A.Guides Q c σ) {t : Nat} {th' : Thread ε Op Ret Result} {s' : A.State}
    {w : World} (hself : th'.alive = true → A.Conforms (fun _ => Q) th'.prog s') :
    A.Guides Q ⟨w, Function.update c.threads t (some th')⟩ (Function.update σ t s') := by
  intro t' th hth halive
  have hth : Function.update c.threads t (some th') t' = some th := hth
  by_cases heq : t' = t
  · subst heq
    rw [Function.update_self, Option.some.injEq] at hth
    subst hth
    rw [Function.update_self]
    exact hself halive
  · rw [Function.update_of_ne heq] at hth ⊢
    exact h t' th hth halive

/-- A coroutine that has been told to stop conforms to everything. -/
theorem kill (h : A.Guides Q c σ) {t : Nat} {th' : Thread ε Op Ret Result} {w : World}
    (hdead : th'.alive = false) :
    A.Guides Q ⟨w, Function.update c.threads t (some th')⟩ σ := by
  have hupdate : A.Guides Q ⟨w, Function.update c.threads t (some th')⟩
      (Function.update σ t (σ t)) := h.update (by simp [hdead])
  rwa [Function.update_eq_self] at hupdate

end Protocol.Guides

/-! ### Monitors -/

structure Monitor (ε Op : Type) (Ret : Op → Type) (World Choice Event : Type) {Task : Type}
    (Result : Task → Type) where
  State : Type
  observe : State → Config ε Op Ret World Result → Label Choice Event Task → State
  /-- The step may be taken. -/
  ok : State → Config ε Op Ret World Result → Label Choice Event Task → Prop

namespace Monitor

variable (m : Monitor ε Op Ret World Choice Event Result)
  (M : Machine ε Op Ret World Choice Event Task Result)

/-- Every step of the run may be taken. -/
def Accepts : m.State → Config ε Op Ret World Result → List (Label Choice Event Task) → Prop
  | _, _, [] => True
  | g, c, l :: ls => m.ok g c l ∧ ∀ c', M.step c l = some c' → Accepts (m.observe g c l) c' ls

variable {m M}

/-- An invariant of the accepted steps is an invariant of the accepted runs. -/
theorem run_induction (Inv : m.State → Config ε Op Ret World Result → Prop)
    (hstep : ∀ g c l c', Inv g c → m.ok g c l → M.step c l = some c' → Inv (m.observe g c l) c') :
    ∀ {ls : List (Label Choice Event Task)} {g : m.State} {c c' : Config ε Op Ret World Result},
      Inv g c → m.Accepts M g c ls → M.run c ls = some c' → ∃ g', Inv g' c' := by
  intro ls
  induction ls with
  | nil =>
    intro g c c' hc _ hrun
    obtain rfl : c = c' := by simpa using hrun
    exact ⟨g, hc⟩
  | cons l ls ih =>
    intro g c c' hc haccepts hrun
    obtain ⟨d, hd, hrun⟩ := Machine.run_cons_eq_some.mp hrun
    exact ih (hstep g c l d hc haccepts.1 hd) (haccepts.2 d hd) hrun

/-- The same, tested on the way. -/
def accepts (m : Monitor ε Op Ret World Choice Event Result)
    (M : Machine ε Op Ret World Choice Event Task Result)
    (test : m.State → Config ε Op Ret World Result → Label Choice Event Task → Bool) :
    m.State → Config ε Op Ret World Result → List (Label Choice Event Task) → Bool
  | _, _, [] => true
  | g, c, l :: ls => test g c l &&
      match M.step c l with
      | some c' => accepts m M test (m.observe g c l) c' ls
      | none => true

theorem accepts_sound
    {test : m.State → Config ε Op Ret World Result → Label Choice Event Task → Bool}
    (htest : ∀ g c l, test g c l = true → m.ok g c l) {ls : List (Label Choice Event Task)}
    {g : m.State} {c : Config ε Op Ret World Result} (h : m.accepts M test g c ls = true) :
    m.Accepts M g c ls := by
  induction ls generalizing g c with
  | nil => exact trivial
  | cons l ls ih =>
    rw [accepts, Bool.and_eq_true] at h
    refine ⟨htest g c l h.1, fun c' hstep => ?_⟩
    have hrest := h.2
    rw [hstep] at hrest
    exact ih hrest

end Monitor

end Async
