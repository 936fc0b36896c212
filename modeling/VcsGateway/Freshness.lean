import VcsGateway.Async.Instants
import VcsGateway.TenantCache
import VcsGateway.Calls
import VcsGateway.Outcomes
import VcsGateway.Text

/-!
# How stale the tenant cache is

For how long `get_webhook_secret` gives a secret that has been revoked.
-/

namespace VcsGateway

open Async

variable {P : Platform}

/-! ### Runs and their clock -/

section Run

variable {tenants : UUID → Option Tenant} {whitelist : List VcsEventWhitelist}
  {c c' d : GatewayConfig} {ls : List GatewayLabel} {t : Nat}

theorem run_clock_le (h : (gateway P).run c ls = some c') : c.world.clock ≤ c'.world.clock := by
  apply Machine.run_le (f := fun w : World => w.clock) ?_ ?_ ?_ h
  · intro t op ch w r w' he
    obtain ⟨w₁, h₁, rfl⟩ := exec_eq_some he
    exact (execOp_frame h₁).clock.ge
  · intro e w
    cases e with
    | tick n => exact Nat.le_add_right w.clock n
    | tickApp n => exact le_rfl
    | evict key => exact le_rfl
    | setTenant id row => exact le_rfl
    | setWhitelist rows => exact le_rfl
    | dropChannel ch => exact le_rfl
  · intro t w
    change w.clock ≤ (vanish t w).clock
    unfold vanish
    split <;> exact le_rfl

/-- Given the tenant and whitelist tables, nothing has been started. -/
abbrev start (tenants : UUID → Option Tenant) (whitelist : List VcsEventWhitelist) : GatewayConfig :=
  Config.start (World.initial tenants whitelist)

theorem passes_clock_le (h : (gateway P).run c ls = some c') (hd : (gateway P).Passes c ls d) :
    d.world.clock ≤ c'.world.clock := by
  obtain ⟨before, after, rfl, hbefore⟩ := hd
  rw [Machine.run_append, hbefore] at h
  exact run_clock_le h

theorem passes_reachable (hls : ∀ l ∈ ls, starts serviceTask l)
    (hd : (gateway P).Passes (start tenants whitelist) ls d) : Reachable P serviceTask d := by
  obtain ⟨before, after, rfl, hbefore⟩ := hd
  exact ⟨tenants, whitelist, before, fun l hl => hls l (List.mem_append_left _ hl), hbefore⟩

/-- The steps of `t` up to the last one of the run. -/
theorem stepsOf_last {step : GatewayStep} {w : World} {ch : Choice}
    (he : exec P t step.op ch d.world = some (step.result, w)) (hw : w = c.world) :
    stepsOf c t = stepsOf d t ++ [step] := by
  obtain ⟨w₁, h₁, rfl⟩ := exec_eq_some he
  have hlog : c.world.log = d.world.log ++ [(t, step)] := by
    simp [← hw, World.log, World.record, (execOp_frame h₁).trace]
  unfold stepsOf
  rw [hlog, historyOf_append_self]

end Run

/-! ### Where an entry comes from -/

section Origin

variable {tenants : UUID → Option Tenant} {whitelist : List VcsEventWhitelist}
  {c d : GatewayConfig} {ls : List GatewayLabel} {t : Nat}

theorem exec_selectTenant {t : Nat} {id : UUID} {ch : Choice} {w w' : World} {row : Option Tenant}
    (he : exec P t (.selectTenant id) ch w = some (.ok row, w')) : w.db.tenants id = row := by
  obtain ⟨w₁, h₁, -⟩ := exec_eq_some he
  rcases awaited_eq_some h₁ with ⟨e, heq, -⟩ | heq
  · simp at heq
  · simp only [Option.some.injEq, Prod.mk.injEq, Except.ok.injEq] at heq
    exact heq.1

/-- A Redis entry expires as long after its `SETEX` as that one said. -/
theorem redis_written {w : World} (hempty : w.redis = fun _ => none)
    (h : (gateway P).run (Config.start w) ls = some c) {key : String} {v : String × Time}
    (hv : c.world.redis key = some v) :
    ∃ d t ttl b, (gateway P).Takes (Config.start w) ls d t ⟨.redisSetex key ttl v.1, b⟩ ∧
      v.2 = d.world.clock + seconds ttl := by
  have henv : ∀ {e : EnvEvent} {w : World}, (envStep e w).redis key = some v → w.redis key = some v := by
    intro e w hv
    cases e with
    | evict key' =>
      by_cases heq : key = key'
      · simp [envStep, heq] at hv
      · simpa [envStep, Function.update_of_ne heq] using hv
    | tick n => exact hv
    | tickApp n => exact hv
    | setTenant id row => exact hv
    | setWhitelist rows => exact hv
    | dropChannel ch => exact hv
  have hkill : ∀ {t : Nat} {w : World}, (vanish t w).redis key = some v → w.redis key = some v := by
    intro t w hv
    rwa [vanish_redis] at hv
  have hstart : ¬w.redis key = some v := by simp [hempty]
  obtain ⟨d, t, ⟨op, b⟩, ch, w', htakes, he, hbefore, hafter⟩ :=
    @Machine.run_brought_about _ _ _ _ _ _ _ _ (gateway P) _ _ _ (fun w => w.redis key = some v)
      henv hkill h hstart hv
  obtain ⟨w₁, h₁, rfl⟩ := exec_eq_some he
  -- only a `SETEX` of this key changes the entry
  by_cases hop : ∃ key' ttl value, op = .redisSetex key' ttl value
  · obtain ⟨key', ttl, value, rfl⟩ := hop
    rcases execSetex_eq_some h₁ with ⟨_, _, _, rfl⟩ | ⟨_, rfl⟩
    · exact absurd hafter hbefore
    · change Function.update d.world.redis key' _ key = some v at hafter
      by_cases heq : key = key'
      · subst heq
        rw [Function.update_self] at hafter
        obtain rfl := Option.some.inj hafter
        exact ⟨d, t, ttl, b, htakes, rfl⟩
      · rw [Function.update_of_ne heq] at hafter
        exact absurd hafter hbefore
  · have hkeeps := (execOp_frame h₁).redis fun key ttl value heq => hop ⟨key, ttl, value, heq⟩
    change w₁.redis key = some v at hafter
    rw [hkeeps] at hafter
    exact absurd hafter hbefore

/-- In `d` the row of the tenant `id` was read, and was `tenant`. -/
structure ReadIn (P : Platform) (c₀ : GatewayConfig) (ls : List GatewayLabel) (d : GatewayConfig)
    (t : Nat) (id : UUID) (tenant : Tenant) : Prop where
  takes : (gateway P).Takes c₀ ls d t ⟨.selectTenant id, .ok (some tenant)⟩
  row : d.world.db.tenants id = some tenant

/-- The write of an entry comes right after the read of the row. -/
theorem entry_read (hls : ∀ l ∈ ls, starts serviceTask l) {id : UUID} {ttl : Nat} {value : String}
    {b : Except Exn Unit} (h : (gateway P).Takes (start tenants whitelist) ls d t
      ⟨.redisSetex (tenantConfigKey id) ttl value, b⟩) :
    ∃ d₀ tenant, ReadIn P (start tenants whitelist) ls d₀ t id tenant ∧
      stepsOf d t = stepsOf d₀ t ++ [⟨.selectTenant id, .ok (some tenant)⟩] ∧ ttl = 300 ∧
      tenant.isActive = true ∧ value = P.dumps tenant.modelDump := by
  obtain ⟨before, ch, after, d', rfl, hd, hd', he⟩ := h.behind
  have hreach : Reachable P serviceTask d' :=
    ⟨tenants, whitelist, _, fun l hl => hls l (List.mem_append_left _ hl), hd'⟩
  obtain ⟨hlog, -⟩ := @reachable_guarded P _ _ (fun _ _ _ => True) task_snapshots d' hreach
  have hsplit : d'.world.log = d.world.log ++
      [(t, ⟨.redisSetex (tenantConfigKey id) ttl value, b⟩)] :=
    (gateway_logs.exec (Machine.run_sound gateway_logs (World.Sound.initial tenants whitelist) hd) he).2.2
  obtain ⟨k', -, hk | ⟨id', tenant, past, hkey, hpast, httl, hactive, hvalue⟩⟩ :=
    hlog _ t _ [] hsplit
  · obtain ⟨k'', hk⟩ := hk
    exact absurd hk.symm (idempotencyKey_ne_tenantConfigKey k'' id)
  obtain rfl : id = id' := by
    apply UUID.str_injective
    have hlist := congrArg String.toList hkey
    simpa [tenantConfigKey, String.toList_append, String.toList_inj] using hlist
  obtain ⟨pre, post, heq, hpre, -⟩ := historyOf_eq_append hpast
  obtain ⟨d₀, htook, hlog₀⟩ :=
    Machine.run_took gateway_logs (World.Sound.initial tenants whitelist) rfl hd heq
  have hrow : d₀.world.db.tenants id = some tenant := by
    obtain ⟨_, ch₀, _, _, _, w₀, -, -, -, he₀⟩ := htook
    exact exec_selectTenant he₀
  refine ⟨d₀, tenant, ⟨(htook.append _).append after, hrow⟩, ?_, httl, hactive, hvalue⟩
  change historyOf t d.world.log = historyOf t d₀.world.log ++ _
  rw [hpast, hlog₀, hpre]

end Origin

/-! ### The bound -/

section Bound

variable (P : Platform) (c₀ : GatewayConfig) (ls : List GatewayLabel)

/-- No call takes more than `d` from its read of a row to its write of the entry. -/
def Prompt (d : Time) : Prop :=
  ∀ dr dw t id tenant ttl value b,
    (gateway P).Takes c₀ ls dr t ⟨.selectTenant id, .ok (some tenant)⟩ →
    (gateway P).Takes c₀ ls dw t ⟨.redisSetex (tenantConfigKey id) ttl value, b⟩ →
    stepsOf dw t = stepsOf dr t ++ [⟨.selectTenant id, .ok (some tenant)⟩] →
    dw.world.clock ≤ dr.world.clock + d

/-- A call of `get_webhook_secret` by `t`, after the steps `past`, ends with the last step of
    the run. -/
structure SecretCall (c : GatewayConfig) (t : Nat) (id : UUID) (past steps : List GatewayStep)
    (r : Except Exn String) : Prop where
  last : ∃ before ch, ls = before ++ [.step t ch]
  course : stepsOf c t = past ++ steps
  follows : (getWebhookSecret P id).Follows steps r

/-- What the cache does to the secrets of a run from `c₀` to `c`. -/
structure BoundedStaleness (c : GatewayConfig) (d : Time) : Prop where
  /-- A secret was in force not long ago. -/
  returned : ∀ t id past steps secret, SecretCall P ls c t id past steps (.ok secret) →
    ∃ d₀ tenant, (gateway P).Passes c₀ ls d₀ ∧ d₀.world.clock ≤ c.world.clock ∧
      c.world.clock ≤ d₀.world.clock + (seconds 300 + d) ∧
      d₀.world.db.tenants id = some tenant ∧ tenant.isActive = true ∧ tenant.webhookSecret = secret
  /-- A refusal tells of the row as it was within the call. -/
  refused : ∀ t id past steps e, SecretCall P ls c t id past steps (.error e) →
    (∃ message details, e = .notFoundError message details) ∨ e = tenantInactive →
    ∃ d₀, (gateway P).Passes c₀ ls d₀ ∧ past.length < (stepsOf d₀ t).length ∧
      (stepsOf d₀ t).length < (stepsOf c t).length ∧
      ∀ tenant, d₀.world.db.tenants id = some tenant → tenant.isActive = false
  /-- An entry is a version of the row of its tenant. -/
  entries : ∀ id v, c.world.redis (tenantConfigKey id) = some v →
    ∃ d₀ tenant, (gateway P).Passes c₀ ls d₀ ∧ d₀.world.db.tenants id = some tenant ∧
      tenant.isActive = true ∧ P.loadsStr v.1 = some tenant.modelDump

end Bound

section Fresh

variable {tenants : UUID → Option Tenant} {whitelist : List VcsEventWhitelist}
  {c d : GatewayConfig} {ls : List GatewayLabel} {t : Nat} {bound : Time}

theorem ReadIn.append {id : UUID} {tenant : Tenant} {c₀ : GatewayConfig} {before : List GatewayLabel}
    (h : ReadIn P c₀ before d t id tenant) (after : List GatewayLabel) :
    ReadIn P c₀ (before ++ after) d t id tenant :=
  ⟨h.takes.append after, h.row⟩

/-- `json.loads` gives back what was dumped of a row that the run has read. -/
theorem ReadIn.readsBack (h : (gateway P).run (start tenants whitelist) ls = some c)
    (hcodec : ReadsBack P c) {id : UUID} {tenant : Tenant}
    (hread : ReadIn P (start tenants whitelist) ls d t id tenant) :
    P.loadsStr (P.dumps tenant.modelDump) = some tenant.modelDump := by
  have hlogged := hread.takes.logged gateway_logs (World.Sound.initial tenants whitelist) h
  exact hcodec tenant (mem_tenantsRead hlogged)

theorem Prompt.before {c₀ : GatewayConfig} {before after : List GatewayLabel}
    (h : Prompt P c₀ (before ++ after) bound) : Prompt P c₀ before bound := by
  intro dr dw t id tenant ttl value b hread hwrite hsteps
  exact h dr dw t id tenant ttl value b (hread.append after) (hwrite.append after) hsteps

/-- An entry is the dump of the row as it was read, and expires with the bound behind that. -/
theorem entry_version (hls : ∀ l ∈ ls, starts serviceTask l)
    (h : (gateway P).run (start tenants whitelist) ls = some c)
    (hprompt : Prompt P (start tenants whitelist) ls bound) {id : UUID} {v : String × Time}
    (hv : c.world.redis (tenantConfigKey id) = some v) :
    ∃ d₀ t tenant, ReadIn P (start tenants whitelist) ls d₀ t id tenant ∧
      v.2 ≤ d₀.world.clock + (seconds 300 + bound) ∧ tenant.isActive = true ∧
      v.1 = P.dumps tenant.modelDump := by
  obtain ⟨dw, t, ttl, b, hwrite, hexpiry⟩ := redis_written rfl h hv
  obtain ⟨dr, tenant, hread, hsteps, rfl, hactive, hvalue⟩ := entry_read hls hwrite
  have hdelay := hprompt dr dw t id tenant 300 v.1 b hread.takes hwrite hsteps
  have hbound : v.2 ≤ dr.world.clock + (seconds 300 + bound) := by
    calc v.2 = dw.world.clock + seconds 300 := hexpiry
      _ ≤ dr.world.clock + bound + seconds 300 := Nat.add_le_add_right hdelay _
      _ = dr.world.clock + (seconds 300 + bound) := by rw [Nat.add_assoc, Nat.add_comm bound]
  exact ⟨dr, t, tenant, hread, hbound, hactive, hvalue⟩

/-- The last step of a call, in the state in which it was taken. -/
theorem SecretCall.last_step {id : UUID} {past steps : List GatewayStep} {step : GatewayStep}
    {r : Except Exn String} (h : (gateway P).run (start tenants whitelist) ls = some c)
    (hcall : SecretCall P ls c t id past (steps ++ [step]) r) :
    ∃ d before ch w, (gateway P).Takes (start tenants whitelist) ls d t step ∧
      (gateway P).run (start tenants whitelist) before = some d ∧ (∃ after, ls = before ++ after) ∧
      exec P t step.op ch d.world = some (step.result, w) ∧ stepsOf d t = past ++ steps ∧
      d.world.clock = c.world.clock := by
  obtain ⟨before, ch, rfl⟩ := hcall.last
  obtain ⟨d, e, htakes, hd, he⟩ := Machine.run_last h
  have hsplit : past ++ (steps ++ [step]) = stepsOf d t ++ [e] := by
    rw [← hcall.course]
    exact stepsOf_last he rfl
  rw [← List.append_assoc] at hsplit
  obtain ⟨hpast, hlast⟩ := List.append_inj' hsplit rfl
  obtain rfl : step = e := List.singleton_inj.mp hlast
  have hclock : c.world.clock = d.world.clock := by
    obtain ⟨w₁, h₁, heq⟩ := exec_eq_some he
    rw [heq]
    exact (execOp_frame h₁).clock
  exact ⟨d, before, ch, c.world, htakes, hd, ⟨_, rfl⟩, he, hpast.symm, hclock.symm⟩

/-- The secrets that come from the cache. -/
theorem hit_version (hls : ∀ l ∈ ls, starts serviceTask l)
    (h : (gateway P).run (start tenants whitelist) ls = some c)
    (hprompt : Prompt P (start tenants whitelist) ls bound) (hcodec : ReadsBack P c) {id : UUID}
    {past : List GatewayStep} {raw : String} {cached : Json} {r : Except Exn String}
    (hcall : SecretCall P ls c t id past [⟨.redisGet (tenantConfigKey id), .ok (some raw)⟩] r)
    (hloads : P.loadsStr raw = some cached) :
    ∃ d₀ tenant, (gateway P).Passes (start tenants whitelist) ls d₀ ∧
      d₀.world.clock ≤ c.world.clock ∧ c.world.clock ≤ d₀.world.clock + (seconds 300 + bound) ∧
      d₀.world.db.tenants id = some tenant ∧ tenant.isActive = true ∧
      secretOfCache P cached = .ok tenant.webhookSecret := by
  obtain ⟨d, before, ch, w, -, hd, ⟨after, rfl⟩, he, -, hclock⟩ :=
    @SecretCall.last_step P _ _ _ _ _ _ _ [] _ _ h hcall
  have hls' : ∀ l ∈ before, starts serviceTask l := fun l hl => hls l (List.mem_append_left _ hl)
  obtain ⟨v, hv, hraw, hlive⟩ := exec_redisGet_some he
  obtain ⟨d₀, t₀, tenant, hread, hexpiry, hactive, hvalue⟩ :=
    entry_version hls' hd hprompt.before hv
  have hback := (hread.append after).readsBack h hcodec
  rw [← hvalue, hraw, hloads] at hback
  obtain rfl := Option.some.inj hback
  refine ⟨d₀, tenant, (hread.append after).takes.passes, ?_, ?_, hread.row, hactive,
    secretOfCache_modelDump hactive⟩
  · exact passes_clock_le h (hread.append after).takes.passes
  · rw [← hclock]
    exact Nat.le_of_lt (Nat.lt_of_lt_of_le hlive hexpiry)

/-- The secrets that come from the database. -/
theorem miss_version (hls : ∀ l ∈ ls, starts serviceTask l)
    (h : (gateway P).run (start tenants whitelist) ls = some c)
    (hprompt : Prompt P (start tenants whitelist) ls bound) {id : UUID} {past : List GatewayStep}
    {a : Except Exn (Option String)} {tenant : Tenant} {value : String} {b : Except Exn Unit}
    {r : Except Exn String}
    (hcall : SecretCall P ls c t id past [⟨.redisGet (tenantConfigKey id), a⟩,
      ⟨.selectTenant id, .ok (some tenant)⟩, ⟨.redisSetex (tenantConfigKey id) 300 value, b⟩] r) :
    ∃ d₀, (gateway P).Passes (start tenants whitelist) ls d₀ ∧
      d₀.world.clock ≤ c.world.clock ∧ c.world.clock ≤ d₀.world.clock + (seconds 300 + bound) ∧
      d₀.world.db.tenants id = some tenant := by
  obtain ⟨dw, -, ch, w, hwrite, -, -, -, hsteps, hclock⟩ :=
    @SecretCall.last_step P _ _ _ _ _ _ _ [_, _] _ _ h hcall
  obtain ⟨dr, tenant', hread, hlast, -, -, -⟩ := entry_read hls hwrite
  have hsame : tenant = tenant' := by
    have heq := congrArg List.getLast? (hsteps.symm.trans hlast)
    simpa using heq
  subst hsame
  have hdelay := hprompt dr dw t id tenant 300 value b hread.takes hwrite hlast
  refine ⟨dr, hread.takes.passes, passes_clock_le h hread.takes.passes, ?_, hread.row⟩
  rw [← hclock]
  exact hdelay.trans (Nat.add_le_add_left (Nat.le_add_left bound _) _)

/-- The row is absent or inactive when the call reads it. -/
theorem refusal_within (h : (gateway P).run (start tenants whitelist) ls = some c) {id : UUID}
    {past : List GatewayStep} {a : Except Exn (Option String)} {row : Option Tenant}
    {r : Except Exn String}
    (hcall : SecretCall P ls c t id past [⟨.redisGet (tenantConfigKey id), a⟩,
      ⟨.selectTenant id, .ok row⟩] r) :
    ∃ d₀, (gateway P).Passes (start tenants whitelist) ls d₀ ∧
      past.length < (stepsOf d₀ t).length ∧ (stepsOf d₀ t).length < (stepsOf c t).length ∧
      d₀.world.db.tenants id = row := by
  obtain ⟨d, -, ch, w, htakes, -, -, he, hsteps, -⟩ :=
    @SecretCall.last_step P _ _ _ _ _ _ _ [_] _ _ h hcall
  refine ⟨d, htakes.passes, ?_, ?_, exec_selectTenant he⟩
  · simp [hsteps]
  · rw [hsteps, hcall.course]
    simp

/-- **The tenant cache is stale by a bounded time only.** -/
theorem bounded_staleness (hls : ∀ l ∈ ls, starts serviceTask l)
    (h : (gateway P).run (start tenants whitelist) ls = some c)
    (hprompt : Prompt P (start tenants whitelist) ls bound) (hcodec : ReadsBack P c) :
    BoundedStaleness P (start tenants whitelist) ls c bound where
  returned := by
    intro t id past steps secret hcall
    obtain ⟨a, later, rfl, hend⟩ := getWebhookSecret_follows hcall.follows
    rcases hend with ⟨-, heq⟩ | ⟨rfl, raw, cached, rfl, hloads, heq⟩ | ⟨e, -, heq⟩ | ⟨-, heq⟩ |
      ⟨tenant, ⟨-, -, heq⟩ | ⟨hactive, b, rfl, heq⟩⟩
    · simp at heq
    · obtain ⟨d₀, tenant, hpasses, hle, hbound, hrow, hactive, hsecret⟩ :=
        hit_version hls h hprompt hcodec hcall hloads
      exact ⟨d₀, tenant, hpasses, hle, hbound, hrow, hactive, Except.ok.inj (hsecret.symm.trans heq.symm)⟩
    · simp at heq
    · simp at heq
    · simp at heq
    · obtain ⟨d₀, hpasses, hle, hbound, hrow⟩ := miss_version hls h hprompt hcall
      have hsecret : tenant.webhookSecret = secret := by
        rcases heq with heq | heq
        · exact (Except.ok.inj heq).symm
        · simp at heq
      exact ⟨d₀, tenant, hpasses, hle, hbound, hrow, hactive, hsecret⟩
  refused := by
    intro t id past steps e hcall he
    have hreach : Reachable P serviceTask c := ⟨tenants, whitelist, ls, hls, h⟩
    have hservice : ∃ cls msg details, e = .service cls msg details := by
      rcases he with ⟨message, details, rfl⟩ | rfl
      · exact ⟨_, message, details, rfl⟩
      · exact ⟨_, _, _, rfl⟩
    obtain ⟨a, later, rfl, hend⟩ := getWebhookSecret_follows hcall.follows
    rcases hend with ⟨-, heq⟩ | ⟨rfl, raw, cached, rfl, hloads, heq⟩ | ⟨e', rfl, heq⟩ | ⟨rfl, -⟩ |
      ⟨tenant, ⟨hinactive, rfl, -⟩ | ⟨-, b, rfl, heq⟩⟩
    · obtain ⟨cls, msg, details, rfl⟩ := hservice
      simp at heq
    · -- an entry is the dump of an active row, and gives its secret
      obtain ⟨d₀, tenant, -, -, -, -, -, hsecret⟩ := hit_version hls h hprompt hcodec hcall hloads
      rw [hsecret] at heq
      simp at heq
    · -- PostgreSQL raises no errors of the service
      obtain rfl := Except.error.inj heq
      have hmem : (⟨.selectTenant id, .error e⟩ : GatewayStep) ∈ stepsOf c t := by
        rw [hcall.course]
        simp
      have hdb : e.OfDatabase := reachable_answers hreach hmem
      obtain ⟨cls, msg, details, rfl⟩ := hservice
      exact absurd rfl (hdb.ne_service cls msg details)
    · obtain ⟨d₀, hpasses, hbegun, hopen, hrow⟩ := refusal_within h hcall
      exact ⟨d₀, hpasses, hbegun, hopen, fun tenant htenant => by simp [hrow] at htenant⟩
    · obtain ⟨d₀, hpasses, hbegun, hopen, hrow⟩ := refusal_within h hcall
      refine ⟨d₀, hpasses, hbegun, hopen, fun tenant' htenant => ?_⟩
      obtain rfl := Option.some.inj (hrow.symm.trans htenant)
      exact hinactive
    · obtain ⟨cls, msg, details, rfl⟩ := hservice
      simp at heq
  entries := by
    intro id v hv
    obtain ⟨d₀, t, tenant, hread, -, hactive, hvalue⟩ := entry_version hls h hprompt hv
    refine ⟨d₀, tenant, hread.takes.passes, hread.row, hactive, ?_⟩
    rw [hvalue]
    exact hread.readsBack h hcodec

theorem Prompt.of_clock_le {c₀ : GatewayConfig} (h : (gateway P).run c₀ ls = some c)
    (hle : c.world.clock ≤ bound) : Prompt P c₀ ls bound := by
  intro dr dw t id tenant ttl value b _ hwrite _
  have hdw : dw.world.clock ≤ c.world.clock := passes_clock_le h hwrite.passes
  exact (hdw.trans hle).trans (Nat.le_add_left bound _)

end Fresh

namespace Example

/-- A tenant is looked up, deleted, and looked up again before its entry expires. -/
def deleted : List GatewayLabel :=
  solo (.webhook (delivery first)) [.fresh ⟨9⟩, .ok, .ok, .ok] ++
    [.env (.setTenant tenant.tenantId none), .env (.tick (seconds 299)),
      .spawn 1 (.webhook (delivery second)), .step 1 (.fresh ⟨10⟩), .step 1 .ok]

theorem deleted_run : ∃ c, (gateway platform).run initial deleted = some c ∧
    c.world.db.tenants tenant.tenantId = none ∧ c.world.clock = seconds 299 ∧
    c.world.redis (tenantConfigKey tenant.tenantId) = some (tenant.modelDump.text, seconds 300) ∧
    tenantsRead c = [tenant] ∧
    stepsOf c 1 = [⟨.uuid4, .ok ⟨10⟩⟩, ⟨.redisGet (tenantConfigKey tenant.tenantId),
      .ok (c.world.cached (tenantConfigKey tenant.tenantId))⟩] :=
  ⟨_, rfl, rfl, rfl, rfl, rfl, rfl⟩

theorem loadsStr_tenant : platform.loadsStr tenant.modelDump.text = some tenant.modelDump := by
  simp only [platform, if_true]

theorem hit_follows : (getWebhookSecret platform tenant.tenantId).Follows
    [⟨.redisGet (tenantConfigKey tenant.tenantId), .ok (some tenant.modelDump.text)⟩]
    (.ok "s3cret") := by
  refine Prog.follows_bind.mpr (.inl ⟨[_], [], some tenant.modelDump, rfl, .await _ ?_, ?_⟩)
  · simp only [Prog.ret_andThen, Prog.onOk, loadsStr_tenant]
    exact .ret _
  · change (Prog.ret (secretOfCache platform tenant.modelDump) : Coroutine String).Follows _ _
    rw [secretOfCache_modelDump rfl]
    exact .ret _

end Example

/-- The secret of a deleted tenant is still given, but no longer than the bound. -/
theorem bounded_staleness_deleted : ∃ c,
    (gateway Example.platform).run Example.initial Example.deleted = some c ∧
    c.world.db.tenants Example.tenant.tenantId = none ∧
    (∃ past steps, SecretCall Example.platform Example.deleted c 1 Example.tenant.tenantId past steps
      (.ok "s3cret")) ∧
    BoundedStaleness Example.platform Example.initial Example.deleted c (seconds 299) := by
  obtain ⟨c, hrun, hrow, hclock, hentry, hread, hsteps⟩ := Example.deleted_run
  have hls : ∀ l ∈ Example.deleted, starts serviceTask l := by
    intro l hl
    cases l with
    | spawn t k =>
      have hk : t = 0 ∧ k = .webhook (Example.delivery Example.first) ∨
          t = 1 ∧ k = .webhook (Example.delivery Example.second) := by
        simpa [Example.deleted, Example.solo] using hl
      rcases hk with ⟨-, rfl⟩ | ⟨-, rfl⟩
      · trivial
      · trivial
    | _ => trivial
  have hprompt : Prompt Example.platform Example.initial Example.deleted (seconds 299) :=
    Prompt.of_clock_le hrun hclock.le
  have hcodec : ReadsBack Example.platform c := by
    intro tenant htenant
    rw [hread, List.mem_singleton] at htenant
    rw [htenant]
    exact Example.loadsStr_tenant
  have hcached : c.world.cached (tenantConfigKey Example.tenant.tenantId) =
      some Example.tenant.modelDump.text := by
    have hlt : seconds 299 < seconds 300 := by decide
    simp only [World.cached, hentry, hclock, hlt, if_true]
  rw [hcached] at hsteps
  have hcall : SecretCall Example.platform Example.deleted c 1 Example.tenant.tenantId
      [⟨.uuid4, .ok ⟨10⟩⟩] _ (.ok "s3cret") :=
    { last := ⟨Example.deleted.dropLast, .ok, rfl⟩
      course := hsteps
      follows := Example.hit_follows }
  exact ⟨c, hrun, hrow, ⟨_, _, hcall⟩, bounded_staleness hls hrun hprompt hcodec⟩

end VcsGateway
