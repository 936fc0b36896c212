import VcsGateway.Async.History
import Mathlib.Order.Basic

/-!
# The instants of a run

The states that a run passes through, and the steps taken in them.  What holds at the end
of a run and did not hold at its start was brought about by one of its steps
(`Machine.run_brought_about`).
-/

namespace Async

variable {ε Op : Type} {Ret : Op → Type} {World Choice EnvEvent Task : Type} {Result : Task → Type}

namespace Machine

/-- The run passes through `d`. -/
def Passes (M : Machine ε Op Ret World Choice EnvEvent Task Result)
    (c : Config ε Op Ret World Result) (ls : List (Label Choice EnvEvent Task))
    (d : Config ε Op Ret World Result) : Prop :=
  ∃ before after, ls = before ++ after ∧ M.run c before = some d

/-- In the state `d` of the run, `t` awaits an operation and is answered. -/
def Takes (M : Machine ε Op Ret World Choice EnvEvent Task Result)
    (c : Config ε Op Ret World Result) (ls : List (Label Choice EnvEvent Task))
    (d : Config ε Op Ret World Result) (t : Nat) (e : Step ε Op Ret) : Prop :=
  ∃ before ch after k f w, ls = before ++ .step t ch :: after ∧ M.run c before = some d ∧
    d.threads t = some ⟨k, .await e.op f, true⟩ ∧ M.exec t e.op ch d.world = some (e.result, w)

variable {M : Machine ε Op Ret World Choice EnvEvent Task Result}
  {c c' d : Config ε Op Ret World Result} {ls : List (Label Choice EnvEvent Task)} {t : Nat}
  {e : Step ε Op Ret}

theorem Takes.passes (h : M.Takes c ls d t e) : M.Passes c ls d := by
  obtain ⟨before, ch, after, -, -, -, heq, hrun, -⟩ := h
  exact ⟨before, .step t ch :: after, heq, hrun⟩

theorem Passes.append (h : M.Passes c ls d) (more : List (Label Choice EnvEvent Task)) :
    M.Passes c (ls ++ more) d := by
  obtain ⟨before, after, rfl, hrun⟩ := h
  exact ⟨before, after ++ more, by simp, hrun⟩

theorem Takes.append (h : M.Takes c ls d t e) (more : List (Label Choice EnvEvent Task)) :
    M.Takes c (ls ++ more) d t e := by
  obtain ⟨before, ch, after, k, f, w, rfl, h⟩ := h
  exact ⟨before, ch, after ++ more, k, f, w, by simp, h⟩

/-- The state behind a step. -/
theorem Takes.behind (h : M.Takes c ls d t e) :
    ∃ before ch after d', ls = (before ++ [.step t ch]) ++ after ∧ M.run c before = some d ∧
      M.run c (before ++ [.step t ch]) = some d' ∧
      M.exec t e.op ch d.world = some (e.result, d'.world) := by
  obtain ⟨before, ch, after, k, f, w, rfl, hd, ht, he⟩ := h
  refine ⟨before, ch, after, ⟨w, Function.update d.threads t (some ⟨k, f e.result, true⟩)⟩, by simp,
    hd, run_snoc_eq_some.mpr ⟨d, hd, ?_⟩, he⟩
  simp only [step, ht, he]

/-- The last step of a run. -/
theorem run_last {ch : Choice} (h : M.run c (ls ++ [.step t ch]) = some c') :
    ∃ d e, M.Takes c (ls ++ [.step t ch]) d t e ∧ M.run c ls = some d ∧
      M.exec t e.op ch d.world = some (e.result, c'.world) := by
  obtain ⟨d, hd, hstep⟩ := run_snoc_eq_some.mp h
  obtain ⟨k, op, f, r, w, ht, he, rfl⟩ := step_step hstep
  exact ⟨d, ⟨op, r⟩, ⟨ls, ch, [], k, f, w, rfl, hd, ht, he⟩, hd, he⟩

/-- A quantity that no step and no event lowers never falls. -/
theorem run_le {α : Type} [Preorder α] {f : World → α}
    (hexec : ∀ {t op ch w r w'}, M.exec t op ch w = some (r, w') → f w ≤ f w')
    (henv : ∀ {e w}, f w ≤ f (M.env e w)) (hkill : ∀ {t w}, f w ≤ f (M.kill t w))
    (h : M.run c ls = some c') : f c.world ≤ f c'.world := by
  refine run_induction (fun d => f c.world ≤ f d.world) (fun _ => True) ?_ (le_refl _)
    (fun _ _ => trivial) h
  intro d l d' hd _ hs
  cases l with
  | spawn t k =>
    obtain ⟨-, rfl⟩ := step_spawn hs
    exact hd
  | step t ch =>
    obtain ⟨k, op, g, r, w, -, he, rfl⟩ := step_step hs
    exact le_trans hd (hexec he)
  | env e =>
    obtain rfl : _ = d' := Option.some.inj hs
    exact le_trans hd henv
  | kill t =>
    obtain ⟨k, op, g, -, rfl⟩ := step_kill hs
    exact le_trans hd hkill

/-- **Causes.**  What neither events nor vanished coroutines bring about, some step did. -/
theorem run_brought_about {Q : World → Prop} (henv : ∀ {e w}, Q (M.env e w) → Q w)
    (hkill : ∀ {t w}, Q (M.kill t w) → Q w) (h : M.run c ls = some c') (hc : ¬Q c.world)
    (hc' : Q c'.world) :
    ∃ d t e ch w, M.Takes c ls d t e ∧ M.exec t e.op ch d.world = some (e.result, w) ∧
      ¬Q d.world ∧ Q w := by
  induction ls using List.reverseRecOn generalizing c' with
  | nil =>
    obtain rfl : c = c' := by simpa using h
    exact absurd hc' hc
  | append_singleton ls l ih =>
    obtain ⟨d, hd, hl⟩ := run_snoc_eq_some.mp h
    -- it held before the last label already
    have hearlier : Q d.world → ∃ d t e ch w, M.Takes c (ls ++ [l]) d t e ∧
        M.exec t e.op ch d.world = some (e.result, w) ∧ ¬Q d.world ∧ Q w := by
      intro hQ
      obtain ⟨d₁, t, e, ch, w, htakes, hrest⟩ := ih hd hQ
      exact ⟨d₁, t, e, ch, w, htakes.append [l], hrest⟩
    cases l with
    | spawn t k =>
      obtain ⟨-, rfl⟩ := step_spawn hl
      exact hearlier hc'
    | step t ch =>
      obtain ⟨k, op, f, r, w, ht, he, rfl⟩ := step_step hl
      by_cases hQ : Q d.world
      · exact hearlier hQ
      · exact ⟨d, t, ⟨op, r⟩, ch, w, ⟨ls, ch, [], k, f, w, rfl, hd, ht, he⟩, he, hQ, hc'⟩
    | env e =>
      obtain rfl : _ = c' := Option.some.inj hl
      exact hearlier (henv hc')
    | kill t =>
      obtain ⟨k, op, f, -, rfl⟩ := step_kill hl
      exact hearlier (hkill hc')

variable {log : World → List (Nat × Step ε Op Ret)} {Sound : World → Prop}
  {admits : (op : Op) → Except ε (Ret op) → Prop}

/-- Every logged operation was carried out in a state of the run, whose log ends before it. -/
theorem run_took (hM : M.Logs log Sound admits) {w : World} (hw : Sound w) (hempty : log w = [])
    (h : M.run (Config.start w) ls = some c) {pre post : List (Nat × Step ε Op Ret)}
    (heq : log c.world = pre ++ (t, e) :: post) :
    ∃ d, M.Takes (Config.start w) ls d t e ∧ log d.world = pre := by
  obtain ⟨before, ch, after, d, d', rfl, hd, hlog, hstep, he, -⟩ :=
    run_happened hM hw hempty h heq
  obtain ⟨k, op, f, r, w', ht, he', rfl⟩ := step_step hstep
  have hsound : Sound d.world := run_sound hM hw hd
  -- the log tells which operation it was
  have hsame := (hM.exec hsound he).2.2.symm.trans (hM.exec hsound he').2.2
  obtain ⟨op', r'⟩ := e
  simp only [List.append_cancel_left_eq, List.cons.injEq, Prod.mk.injEq, Step.mk.injEq, true_and,
    and_true] at hsame
  obtain ⟨rfl, heq⟩ := hsame
  obtain rfl := eq_of_heq heq
  exact ⟨d, ⟨before, ch, after, k, f, w', rfl, hd, ht, he⟩, hlog⟩

/-- What was carried out stays in the log. -/
theorem Takes.logged (hM : M.Logs log Sound admits) (hc : Sound c.world) (h : M.Takes c ls d t e)
    (hrun : M.run c ls = some c') : (t, e) ∈ log c'.world := by
  obtain ⟨before, ch, after, d', rfl, hd, hd', he⟩ := h.behind
  obtain ⟨hsound, -, hlog⟩ := hM.exec (run_sound hM hc hd) he
  rw [run_append, hd', Option.bind_some] at hrun
  have hinit : Sound d'.world ∧ (t, e) ∈ log d'.world := by
    rw [hlog]
    exact ⟨hsound, by simp⟩
  refine (run_induction (fun c => Sound c.world ∧ (t, e) ∈ log c.world) (fun _ => True) ?_ hinit
    (fun _ _ => trivial) hrun).2
  rintro c l c' ⟨hc, hmem⟩ - hs
  cases l with
  | spawn t k =>
    obtain ⟨-, rfl⟩ := step_spawn hs
    exact ⟨hc, hmem⟩
  | step t ch =>
    obtain ⟨k, op, f, r, w, -, he, rfl⟩ := step_step hs
    obtain ⟨hsound, -, hlog⟩ := hM.exec hc he
    exact ⟨hsound, by rw [hlog]; exact List.mem_append_left _ hmem⟩
  | env e =>
    obtain rfl : _ = c' := Option.some.inj hs
    obtain ⟨hsound, hlog⟩ := hM.env (e := e) hc
    exact ⟨hsound, by rw [hlog]; exact hmem⟩
  | kill t =>
    obtain ⟨k, op, f, -, rfl⟩ := step_kill hs
    obtain ⟨hsound, hlog⟩ := hM.kill (t := t) hc
    exact ⟨hsound, by rw [hlog]; exact hmem⟩

end Machine

/-- Where an operation of `t` stands in the log. -/
theorem historyOf_eq_append {log : List (Nat × Step ε Op Ret)} {past later : List (Step ε Op Ret)}
    {t : Nat} {e : Step ε Op Ret} (h : historyOf t log = past ++ e :: later) :
    ∃ pre post, log = pre ++ (t, e) :: post ∧ historyOf t pre = past ∧ historyOf t post = later := by
  unfold historyOf at h
  obtain ⟨first, rest, hfilter, rfl, hrest⟩ := List.map_eq_append_iff.mp h
  obtain ⟨⟨t', e'⟩, rest, rfl, rfl, rfl⟩ := List.map_eq_cons_iff.mp hrest
  obtain ⟨pre, log', rfl, rfl, hlog'⟩ := List.filter_eq_append_iff.mp hfilter
  obtain ⟨skipped, post, rfl, hskipped, htid, rfl⟩ := List.filter_eq_cons_iff.mp hlog'
  obtain rfl : t' = t := by simpa using htid
  have hnone : skipped.filter (fun e => e.1 = t') = [] := by
    rw [List.filter_eq_nil_iff]
    intro e he
    simpa using hskipped e he
  exact ⟨pre ++ skipped, post, by simp, by simp [historyOf, hnone], rfl⟩

end Async
