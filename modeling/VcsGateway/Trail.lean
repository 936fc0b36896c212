import VcsGateway.Async.History
import VcsGateway.Storage
import VcsGateway.Footprint

/-!
# The log of a run

The trace of the world as the log of the guard theorem, and what Redis owes to it.
-/

namespace VcsGateway

open Async

abbrev GatewayStep := Step Exn Op Op.Ret

abbrev GatewayGuard := Guard Exn Op Op.Ret Task

def World.log (w : World) : List (Nat × GatewayStep) := w.trace.map fun e => (e.tid, ⟨e.op, e.result⟩)

variable {P : Platform}

theorem gateway_logs : (gateway P).Logs World.log World.Sound Op.Answers where
  exec := by
    intro t op c w r w' hw he
    refine ⟨hw.exec he, hw.answers he, ?_⟩
    obtain ⟨w₁, h₁, rfl⟩ := exec_eq_some he
    have htrace : w₁.trace = w.trace := (execOp_frame h₁).trace
    simp [World.log, World.record, htrace]
  env := by
    intro e w hw
    refine ⟨hw.envStep e, ?_⟩
    cases e <;> rfl
  kill := by
    intro t w hw
    refine ⟨hw.vanish t, ?_⟩
    change (vanish t w).log = w.log
    unfold World.log
    rw [vanish_trace]

/-- The guard theorem for the gateway. -/
theorem reachable_guarded {allowed : Task → Prop} {guard : GatewayGuard}
    {post : (k : Task) → Except Exn k.Result → List GatewayStep → Prop}
    (hprog : ∀ k, allowed k → (Protocol.guarded guard Op.Answers).Conforms
      (fun r s => post k r s.2) (k.prog P) (some k, []))
    {c : GatewayConfig} (h : Reachable P allowed c) :
    GuardedLog guard c.taskOf c.world.log ∧
      ∀ t k r, Finished c t k r → post k r (historyOf t c.world.log) := by
  obtain ⟨tenants, whitelist, ls, hls, hrun⟩ := h
  exact Machine.guarded_run gateway_logs (fun _ k hk => hprog k hk) (World.Sound.initial tenants whitelist)
    rfl hls hrun

/-- Every logged operation is one that its task had come to await. -/
theorem reachable_awaited {allowed : Task → Prop} {c : GatewayConfig} (h : Reachable P allowed c) :
    GuardedLog (fun k history op => (k.prog P).Awaits history op) c.taskOf c.world.log :=
  (@reachable_guarded P allowed _ (fun _ _ _ => True) (fun k _ => .awaits (.here (k.prog P))) c h).1

theorem reachable_allowed {allowed : Task → Prop} {c : GatewayConfig} (h : Reachable P allowed c)
    {t : Nat} {k : Task} (hk : c.taskOf t = some k) : allowed k := by
  obtain ⟨tenants, whitelist, ls, hls, hrun⟩ := h
  exact Machine.run_tasks (fun _ _ hspawn => hspawn) hls hrun hk

/-! ### The course of one task -/

/-- The operations of `t` so far, with their answers. -/
def stepsOf (c : GatewayConfig) (t : Nat) : List GatewayStep := historyOf t c.world.log

theorem mem_stepsOf {c : GatewayConfig} {t : Nat} {step : GatewayStep} :
    step ∈ stepsOf c t ↔ (t, step) ∈ c.world.log := mem_historyOf

/-- A task stands where the answers to its operations have brought it. -/
theorem reachable_reaches {allowed : Task → Prop} {c : GatewayConfig} (h : Reachable P allowed c)
    {t : Nat} {th : Thread Exn Op Op.Ret Task.Result} (ht : c.threads t = some th) :
    (th.task.prog P).Reaches (stepsOf c t) th.prog := by
  obtain ⟨tenants, whitelist, ls, -, hrun⟩ := h
  exact Machine.run_reaches gateway_logs (World.Sound.initial tenants whitelist) rfl hrun t th ht

theorem Finished.follows {allowed : Task → Prop} {c : GatewayConfig} (h : Reachable P allowed c)
    {t : Nat} {k : Task} {r : Except Exn k.Result} (hfin : Finished c t k r) :
    (k.prog P).Follows (stepsOf c t) r := by
  have hreach : (k.prog P).Reaches (stepsOf c t) (.ret r) := reachable_reaches h hfin
  simpa using hreach.follows (.ret r)

/-- Every operation that was answered was carried out in some reachable state, before which
    the log was shorter. -/
theorem reachable_happened_before {allowed : Task → Prop} {c : GatewayConfig}
    (h : Reachable P allowed c) {t : Nat} {step : GatewayStep} (hstep : step ∈ stepsOf c t) :
    ∃ c₁ ch w₂, Reachable P allowed c₁ ∧
      exec P t step.op ch c₁.world = some (step.result, w₂) ∧ c₁.world.log ⊆ c.world.log := by
  obtain ⟨tenants, whitelist, ls, hls, hrun⟩ := h
  obtain ⟨pre, post, heq⟩ := List.append_of_mem (mem_stepsOf.mp hstep)
  obtain ⟨before, ch, after, c₁, c₂, rfl, h₁, hlog, -, he, -⟩ :=
    Machine.run_happened gateway_logs (World.Sound.initial tenants whitelist) rfl hrun heq
  refine ⟨c₁, ch, c₂.world, ⟨tenants, whitelist, before, fun l hl => ?_, h₁⟩, he, ?_⟩
  · exact hls l (List.mem_append_left _ hl)
  · rw [show c₁.world.log = pre from hlog, heq]
    exact List.subset_append_left _ _

theorem reachable_happened {allowed : Task → Prop} {c : GatewayConfig} (h : Reachable P allowed c)
    {t : Nat} {step : GatewayStep} (hstep : step ∈ stepsOf c t) :
    ∃ c₁ ch w₂, Reachable P allowed c₁ ∧
      exec P t step.op ch c₁.world = some (step.result, w₂) := by
  obtain ⟨c₁, ch, w₂, hreach, he, -⟩ := reachable_happened_before h hstep
  exact ⟨c₁, ch, w₂, hreach, he⟩

theorem reachable_answers {allowed : Task → Prop} {c : GatewayConfig} (h : Reachable P allowed c)
    {t : Nat} {step : GatewayStep} (hstep : step ∈ stepsOf c t) : step.op.Answers step.result := by
  obtain ⟨c₁, ch, w₂, h₁, he⟩ := reachable_happened h hstep
  obtain ⟨tenants, whitelist, ls, -, hrun⟩ := h₁
  have hsound : c₁.world.Sound :=
    Machine.run_sound (c := Config.start (World.initial tenants whitelist)) gateway_logs
      (World.Sound.initial tenants whitelist) hrun
  exact hsound.answers he

/-! ### Redis -/

/-- A world of which every Redis entry was written by a logged operation. -/
def World.RedisLogged (w : World) : Prop :=
  ∀ key v, w.redis key = some v → ∃ t ttl r, (t, ⟨.redisSetex key ttl v.1, r⟩) ∈ w.log

theorem World.RedisLogged.exec {t : Nat} {op : Op} {c : Choice} {w w' : World}
    {r : Except Exn op.Ret} (h : w.RedisLogged) (he : VcsGateway.exec P t op c w = some (r, w')) :
    w'.RedisLogged := by
  obtain ⟨w₁, h₁, rfl⟩ := exec_eq_some he
  have hframe := execOp_frame h₁
  have hlog : (w₁.record ⟨t, op, r⟩).log = w.log ++ [(t, ⟨op, r⟩)] := by
    simp [World.log, World.record, hframe.trace]
  intro key v hv
  change w₁.redis key = some v at hv
  rw [hlog]
  -- an entry that was there before is in the old log
  have hold : w.redis key = some v →
      ∃ t' ttl r', (t', ⟨.redisSetex key ttl v.1, r'⟩) ∈ w.log ++ [(t, ⟨op, r⟩)] := by
    intro hv
    obtain ⟨t', ttl, r', hmem⟩ := h key v hv
    exact ⟨t', ttl, r', List.mem_append_left _ hmem⟩
  by_cases hop : ∃ key ttl value, op = .redisSetex key ttl value
  · obtain ⟨key', ttl, value, rfl⟩ := hop
    rcases execSetex_eq_some h₁ with ⟨_, _, _, rfl⟩ | ⟨_, rfl⟩
    · exact hold hv
    · by_cases heq : key = key'
      · subst heq
        have hvalue : v.1 = value := by
          change Function.update w.redis key _ key = some v at hv
          rw [Function.update_self] at hv
          exact congrArg Prod.fst (Option.some.inj hv).symm
        exact ⟨t, ttl, r, by simp [hvalue]⟩
      · refine hold ?_
        change Function.update w.redis key' _ key = some v at hv
        rwa [Function.update_of_ne heq] at hv
  · refine hold ?_
    rwa [hframe.redis fun key ttl value heq => hop ⟨key, ttl, value, heq⟩] at hv

theorem reachable_redisLogged {allowed : Task → Prop} {c : GatewayConfig}
    (h : Reachable P allowed c) : c.world.RedisLogged := by
  obtain ⟨tenants, whitelist, ls, -, hrun⟩ := h
  refine Machine.run_induction (fun c : GatewayConfig => c.world.RedisLogged) (fun _ => True)
    ?_ ?_ (fun _ _ => trivial) hrun
  · intro c l c' hc _ hs
    cases l with
    | spawn t k =>
      obtain ⟨-, rfl⟩ := Machine.step_spawn hs
      exact hc
    | step t ch =>
      obtain ⟨k, op, f, r, w, -, he, rfl⟩ := Machine.step_step hs
      exact hc.exec he
    | env e =>
      obtain rfl : _ = c' := Option.some.inj hs
      cases e with
      | evict key =>
        intro key' v hv
        change Function.update c.world.redis key none key' = some v at hv
        by_cases heq : key' = key
        · simp [heq] at hv
        · rw [Function.update_of_ne heq] at hv
          exact hc key' v hv
      | tick n => exact hc
      | tickApp n => exact hc
      | setTenant id row => exact hc
      | setWhitelist rows => exact hc
      | dropChannel ch => exact hc
    | kill t =>
      obtain ⟨k, op, f, -, rfl⟩ := Machine.step_kill hs
      change (vanish t c.world).RedisLogged
      unfold World.RedisLogged World.log
      rw [vanish_redis, vanish_trace]
      exact hc
  · intro key v hv
    simp [Config.start, World.initial] at hv

end VcsGateway
