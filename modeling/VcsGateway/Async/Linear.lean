import VcsGateway.Async.System
import Mathlib.Data.List.Nodup

/-!
# Linearizability

An object answers one call after the other.  A run linearizes to an object when its calls can be
put in one order of which, at every moment of the run, a first part accounts for what the calls
have answered until then.  Such an order keeps to real time.
-/

namespace Async

/-- A sequential object; `answer` is `none` for what the object does not answer in this state. -/
structure Object (State Answer : Type) where
  init : State
  answer : State → Answer → Option State

namespace Object

variable {State Answer : Type} (O : Object State Answer)

def run (s : State) : List Answer → Option State
  | [] => some s
  | a :: as => (O.answer s a).bind fun s' => run s' as

theorem run_append (s : State) (as as' : List Answer) :
    O.run s (as ++ as') = (O.run s as).bind fun s' => O.run s' as' := by
  induction as generalizing s with
  | nil => rfl
  | cons a as ih =>
    simp only [List.cons_append, run]
    rcases O.answer s a with _ | s'
    · rfl
    · exact ih s'

end Object

variable {ε Op : Type} {Ret : Op → Type} {World Choice Event Task : Type} {Result : Task → Type}
  {State Answer : Type}

/-- Coroutine `t` has ended with the result `r`. -/
def Config.Ended (c : Config ε Op Ret World Result) (t : Nat) (k : Task) (r : Except ε (Result k)) :
    Prop :=
  c.threads t = some ⟨k, .ret r, true⟩

/-- What the tasks of a machine have to do with an object: how their results answer, after which
    results a call may have taken effect all the same, and which state the world shows. -/
structure Clients (ε World : Type) {Task : Type} (Result : Task → Type) (State Answer : Type) where
  answers : (k : Task) → Except ε (Result k) → Answer → Prop
  excused : (k : Task) → Except ε (Result k) → Prop
  shows : World → State → Prop

/-- `order` accounts for the calls of `c`. -/
structure Object.Explains (O : Object State Answer) (S : Clients ε World Result State Answer)
    (c : Config ε Op Ret World Result) (order : List (Nat × Answer)) : Prop where
  /-- Each answer is the one of the object, which ends in the state that the world shows. -/
  legal : ∃ s, O.run O.init (order.map Prod.snd) = some s ∧ S.shows c.world s
  once : (order.map Prod.fst).Nodup
  started : ∀ e ∈ order, c.threads e.1 ≠ none
  complete : ∀ t k r a, c.Ended t k r → S.answers k r a → (t, a) ∈ order
  sound : ∀ e ∈ order, ∀ k r, c.Ended e.1 k r → S.answers k r e.2 ∨ S.excused k r

/-- `t` had given the answer `a` before `t'` was called. -/
def Machine.Before (M : Machine ε Op Ret World Choice Event Task Result)
    (S : Clients ε World Result State Answer) (c₀ : Config ε Op Ret World Result)
    (ls : List (Label Choice Event Task)) (t : Nat) (a : Answer) (t' : Nat) : Prop :=
  ∃ ls₁ ls₂ c k r, ls = ls₁ ++ ls₂ ∧ M.run c₀ ls₁ = some c ∧ c.Ended t k r ∧ S.answers k r a ∧
    c.threads t' = none

/-- The calls of the run take effect at once, in this order. -/
structure Machine.Linearizes (M : Machine ε Op Ret World Choice Event Task Result)
    (O : Object State Answer) (S : Clients ε World Result State Answer)
    (c₀ : Config ε Op Ret World Result) (ls : List (Label Choice Event Task))
    (order : List (Nat × Answer)) : Prop where
  moments : ∀ ls₁ ls₂ c, ls = ls₁ ++ ls₂ → M.run c₀ ls₁ = some c →
    ∃ order₁ order₂, order = order₁ ++ order₂ ∧ O.Explains S c order₁
  realTime : ∀ t a t' a', M.Before S c₀ ls t a t' → (t', a') ∈ order →
    [(t, a), (t', a')].Sublist order

variable {M : Machine ε Op Ret World Choice Event Task Result} {O : Object State Answer}
  {S : Clients ε World Result State Answer} {c₀ c : Config ε Op Ret World Result}
  {order : List (Nat × Answer)}

/-- The moments keep to real time. -/
theorem Machine.linearizes_of_moments {ls : List (Label Choice Event Task)}
    (h : ∀ ls₁ ls₂ c, ls = ls₁ ++ ls₂ → M.run c₀ ls₁ = some c →
      ∃ order₁ order₂, order = order₁ ++ order₂ ∧ O.Explains S c order₁) :
    M.Linearizes O S c₀ ls order where
  moments := h
  realTime := by
    rintro t a t' a' ⟨ls₁, ls₂, c, k, r, hls, hrun, hended, hanswers, hnone⟩ hmem
    obtain ⟨order₁, order₂, rfl, hexplains⟩ := h ls₁ ls₂ c hls hrun
    have hfirst : (t, a) ∈ order₁ := hexplains.complete t k r a hended hanswers
    have hsecond : (t', a') ∈ order₂ := by
      rcases List.mem_append.mp hmem with hmem | hmem
      · exact absurd hnone (hexplains.started _ hmem)
      · exact hmem
    exact (List.singleton_sublist.mpr hfirst).append (List.singleton_sublist.mpr hsecond)

/-- **Linearization points.**  If the order can be kept up in every step by additions at its end, the
    run linearizes. -/
theorem Machine.linearizes (Inv : Config ε Op Ret World Result → List (Nat × Answer) → Prop)
    (ok : Label Choice Event Task → Prop)
    (hexplains : ∀ {c order}, Inv c order → O.Explains S c order)
    (hstep : ∀ {c l c' order}, Inv c order → ok l → M.step c l = some c' →
      ∃ new, Inv c' (order ++ new)) :
    ∀ {ls : List (Label Choice Event Task)}, Inv c₀ [] → (∀ l ∈ ls, ok l) → M.run c₀ ls = some c →
      ∃ order, Inv c order ∧ M.Linearizes O S c₀ ls order := by
  suffices hmoments : ∀ {ls : List (Label Choice Event Task)} {c₀ : Config ε Op Ret World Result}
      {order₀ : List (Nat × Answer)}, Inv c₀ order₀ → (∀ l ∈ ls, ok l) → M.run c₀ ls = some c →
      ∃ new, Inv c (order₀ ++ new) ∧ ∀ ls₁ ls₂ c₁, ls = ls₁ ++ ls₂ → M.run c₀ ls₁ = some c₁ →
        ∃ new₁ new₂, new = new₁ ++ new₂ ∧ O.Explains S c₁ (order₀ ++ new₁) by
    intro ls hstart hok hrun
    obtain ⟨new, hinv, hall⟩ := hmoments hstart hok hrun
    exact ⟨new, hinv, linearizes_of_moments hall⟩
  intro ls
  induction ls with
  | nil =>
    intro c₀ order₀ hinv _ hrun
    obtain rfl : c₀ = c := Option.some.inj hrun
    refine ⟨[], by simpa using hinv, fun ls₁ ls₂ c₁ hls hrun₁ => ?_⟩
    obtain ⟨rfl, rfl⟩ := List.append_eq_nil_iff.mp hls.symm
    obtain rfl : c₀ = c₁ := Option.some.inj hrun₁
    exact ⟨[], [], rfl, by simpa using hexplains hinv⟩
  | cons l ls ih =>
    intro c₀ order₀ hinv hok hrun
    obtain ⟨d, hd, hrun⟩ := run_cons_eq_some.mp hrun
    obtain ⟨new, hinv'⟩ := hstep hinv (hok l (by simp)) hd
    obtain ⟨later, hlater, hall⟩ := ih hinv' (fun l' hl' => hok l' (by simp [hl'])) hrun
    refine ⟨new ++ later, by rw [← List.append_assoc]; exact hlater, ?_⟩
    intro ls₁ ls₂ c₁ hls hrun₁
    cases ls₁ with
    | nil =>
      obtain rfl : c₀ = c₁ := Option.some.inj hrun₁
      exact ⟨[], new ++ later, rfl, by simpa using hexplains hinv⟩
    | cons l' ls₁ =>
      rw [List.cons_append] at hls
      obtain ⟨rfl, hrest⟩ := List.cons.inj hls
      obtain ⟨d', hd', hrun₁⟩ := run_cons_eq_some.mp hrun₁
      obtain rfl : d = d' := Option.some.inj (hd.symm.trans hd')
      obtain ⟨new₁, new₂, rfl, hexplained⟩ := hall ls₁ ls₂ c₁ hrest hrun₁
      exact ⟨new ++ new₁, new₂, (List.append_assoc ..).symm, by rw [← List.append_assoc]; exact hexplained⟩

end Async
