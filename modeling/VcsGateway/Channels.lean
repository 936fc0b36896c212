import VcsGateway.Containment

/-!
# Channels

Through which channel a publisher publishes after a failure.
-/

namespace VcsGateway

open Async

variable {P : Platform}

/-! ### One turn -/

section Turn

variable {self : Publisher} {steps : List GatewayStep}

/-- `_get_exchange` starts by reading the attributes of the publisher. -/
theorem ensureExchange_reads {r : Except Exn Exchange} (h : (ensureExchange self).Follows steps r) :
    ∃ step ∈ steps, step.op = .getSelf self.id := by
  obtain ⟨first, rest, state, rfl, hfirst, -⟩ | ⟨e, -, hfirst⟩ := Prog.follows_bind.mp h
  · obtain rfl := Prog.follows_perform.mp hfirst
    exact ⟨_, List.mem_append_left _ (List.mem_singleton_self _), rfl⟩
  · obtain rfl := Prog.follows_perform.mp hfirst
    exact ⟨_, List.mem_singleton_self _, rfl⟩

/-- A batch publishes through the exchange that it got before its first row. -/
theorem batchBody_publishes {ex : Exchange} {m : Message} {key : String}
    (h : (batchBody P self).Awaits steps (.publish ex m key)) :
    ∃ selecting getting delivering, steps = selecting ++ getting ++ delivering ∧
      (∀ step ∈ selecting, step.op.Select) ∧ (ensureExchange self).Follows getting (.ok ex) ∧
      ∀ step ∈ delivering, step.op.Deliver ex := by
  obtain hawaits | ⟨selecting, rest, rows, rfl, hselecting, hrest⟩ := Prog.Awaits.bind h
  · have hop := (selectDue_selects self.batchSize).awaits hawaits
    cases hop
  rcases rows with _ | ⟨row, rows⟩
  · exact absurd hrest Prog.Awaits.not_ret
  obtain hawaits | ⟨getting, delivering, exchange, rfl, hgetting, hdelivering⟩ :=
    Prog.Awaits.bind hrest
  · have hop := (ensureExchange_acquires self).awaits hawaits
    cases hop
  have honly : (Prog.forEach (row :: rows) (processRow P self exchange)).Only (Op.Deliver exchange) :=
    Prog.Only.forEach fun row => processRow_only P self exchange row
  have hop := honly.awaits hdelivering
  cases hop
  obtain ⟨k, hreaches⟩ := hdelivering
  exact ⟨selecting, getting, delivering, by simp, (selectDue_selects _).follows hselecting, hgetting,
    honly.reaches hreaches⟩

theorem runOnce_publishes {ex : Exchange} {m : Message} {key : String}
    (h : (runOnce P self).Awaits steps (.publish ex m key)) :
    ∃ before getting delivering, steps = before ++ getting ++ delivering ∧
      (∀ step ∈ before ++ getting, ∀ ex m key, step.op ≠ .publish ex m key) ∧
      (ensureExchange self).Follows getting (.ok ex) ∧ ∀ step ∈ delivering, step.op.Deliver ex := by
  obtain hawaits | ⟨first, rest, a, -, -, hrest⟩ := h.andThen
  swap
  · have hop := (afterBatch_only self a).awaits hrest
    cases hop
  obtain hbegin | ⟨first, rest, u, rfl, hfirst, hrest⟩ := Prog.Awaits.bind hawaits
  · have honly : (perform Op.begin).Only fun op => op = .begin := Prog.only_perform.mpr rfl
    exact absurd (honly.awaits hbegin) (by simp)
  obtain hbody | ⟨inner, last, r, -, -, hlast⟩ := Prog.Awaits.andThen hrest
  swap
  · -- `COMMIT` and `ROLLBACK` publish nothing
    have hend : ∀ (op : Op) (r : Except Exn Unit), (∀ ex m key, op ≠ .publish ex m key) →
        ¬(perform op >>= fun _ => (.ret r : Coroutine Unit)).Awaits last (.publish ex m key) := by
      intro op r hop hawaits
      have honly : (perform op >>= fun _ => (.ret r : Coroutine Unit)).Only fun op' => op' = op :=
        Prog.Only.bind (Prog.only_perform.mpr rfl) fun _ => trivial
      exact hop _ _ _ (honly.awaits hawaits).symm
    cases r with
    | ok a => exact absurd hlast (hend .commit (.ok a) (by simp))
    | error e => exact absurd hlast (hend .rollback (.error e) (by simp))
  obtain rfl := Prog.follows_perform.mp hfirst
  obtain ⟨selecting, getting, delivering, rfl, hselecting, hgetting, hdelivering⟩ :=
    batchBody_publishes hbody
  refine ⟨⟨.begin, .ok ()⟩ :: selecting, getting, delivering, by simp, ?_, hgetting, hdelivering⟩
  intro step hstep ex m key hop
  rcases List.mem_append.mp hstep with hstep | hstep
  · rcases List.mem_cons.mp hstep with rfl | hstep
    · simp at hop
    · have hselect := hselecting step hstep
      rw [hop] at hselect
      cases hselect
  · have hacquire := (ensureExchange_acquires self).follows hgetting step hstep
    rw [hop] at hacquire
    cases hacquire

end Turn

/-! ### All turns of a publisher -/

/-- `t` and `t'` are turns of the same publisher. -/
def SamePublisher (c : GatewayConfig) (t t' : Nat) : Prop :=
  ∃ self self', c.taskOf t = some (.publisher self) ∧ c.taskOf t' = some (.publisher self') ∧
    self.id = self'.id

/-- The turns of a publisher do not overlap: `run` starts the next one when the last one is
    over. -/
def TakesTurns (c : GatewayConfig) : Prop :=
  ∀ pre mid mid' post t t' (e₁ e₂ e₃ : GatewayStep),
    c.world.log = pre ++ (t, e₁) :: mid ++ (t', e₂) :: mid' ++ (t, e₃) :: post →
      SamePublisher c t t' → t = t'

/-- What a list has behind an element that is not in its first part lies in its second part. -/
theorem subset_of_append_eq {α : Type} {first second pre post : List α} {x : α}
    (h : pre ++ x :: post = first ++ second) (hx : x ∉ first) : post ⊆ second := by
  obtain ⟨rest, hfirst, hrest⟩ | ⟨rest, hpre, hrest⟩ := List.append_eq_append_iff.mp h
  · rcases rest with _ | ⟨y, rest⟩
    · rw [← List.nil_append second, ← hrest]
      exact List.subset_cons_self x post
    · obtain ⟨rfl, rfl⟩ := List.cons.inj hrest
      exact absurd (by simp [hfirst]) hx
  · rw [hrest]
    exact List.Subset.trans (List.subset_cons_self x post) (List.subset_append_right rest _)

/-- **A failed channel is not used again** if and only if the next publish is one of a later
    batch. -/
theorem next_exchange_iff {c : GatewayConfig} (h : Reachable P (fun _ => True) c)
    (hturns : TakesTurns c) {pre mid post : List (Nat × GatewayStep)} {t t' : Nat}
    {ex ex' : Exchange} {m m' : Message} {key key' : String} {e : Exn} {r : Except Exn Unit}
    (hlog : c.world.log = pre ++ (t, ⟨.publish ex m key, .error e⟩) :: mid ++
      (t', ⟨.publish ex' m' key', r⟩) :: post)
    {self self' : Publisher} (htask : c.taskOf t = some (.publisher self))
    (htask' : c.taskOf t' = some (.publisher self')) (hid : self.id = self'.id) :
    (ensureExchange self').Returned (historyOf t' mid) (.ok ex') ↔ t ≠ t' := by
  obtain ⟨k, hk, hawaits⟩ := reachable_awaited h _ t' _ post hlog
  obtain rfl := Option.some.inj (htask'.symm.trans hk)
  obtain ⟨before, getting, delivering, hhistory, hnone, hgetting, hdelivering⟩ :=
    runOnce_publishes hawaits
  rw [historyOf_append] at hhistory
  constructor
  · -- within one batch nothing reads the attributes of the publisher again
    rintro ⟨a, steps, b, hsteps, hreturned⟩ rfl
    rw [historyOf_cons_self] at hhistory
    have hsub : historyOf t mid ⊆ delivering := by
      refine subset_of_append_eq hhistory fun hmem => ?_
      exact hnone _ hmem ex m key rfl
    obtain ⟨step, hstep, hop⟩ := ensureExchange_reads hreturned
    have hdeliver := hdelivering step (hsub (by simp [hsteps, hstep]))
    rw [hop] at hdeliver
    cases hdeliver
  · intro hne
    -- the whole turn lies behind the failure
    have hpre : historyOf t' pre = [] := by
      by_contra hsome
      obtain ⟨step, hstep⟩ := List.exists_mem_of_ne_nil _ hsome
      obtain ⟨before', after, rfl⟩ := List.append_of_mem (mem_historyOf.mp hstep)
      have hswap := hturns before' after mid post t' t step _ _ (by simpa using hlog)
        ⟨self', self, htask', htask, hid.symm⟩
      exact hne hswap.symm
    rw [hpre, historyOf_cons_of_ne hne, List.nil_append] at hhistory
    rw [hhistory]
    exact ⟨before, getting, delivering, rfl, hgetting⟩

/-- The turns follow one another when the tasks of the log do. -/
theorem TakesTurns.of_sorted {c : GatewayConfig}
    (h : (c.world.trace.map (·.tid)).Pairwise (· ≤ ·)) : TakesTurns c := by
  intro pre mid mid' post t t' e₁ e₂ e₃ hlog _
  have hsorted : (c.world.log.map (·.1)).Pairwise (· ≤ ·) := by
    simpa [World.log, Function.comp_def] using h
  rw [hlog] at hsorted
  simp only [List.map_append, List.map_cons, List.append_assoc, List.cons_append] at hsorted
  have hrest := (List.pairwise_append.mp hsorted).2.1
  have hle := (List.pairwise_cons.mp hrest).1 t' (by simp)
  have hrest' := (List.pairwise_append.mp (List.pairwise_cons.mp hrest).2).2.1
  have hle' := (List.pairwise_cons.mp hrest').1 t (by simp)
  omega

theorem eq_take_cons_drop {α : Type} {l : List α} {i : Nat} {x : α} (h : l[i]? = some x) :
    l = l.take i ++ x :: l.drop (i + 1) := by
  obtain ⟨hi, hx⟩ := List.getElem?_eq_some_iff.mp h
  rw [← hx, ← List.drop_eq_getElem_cons hi, List.take_append_drop]

namespace Example

def readsPublisher (e : Nat × GatewayStep) : Bool :=
  match e.2.op with
  | .getSelf _ => true
  | _ => false

/-- The exchange of the first batch. -/
def exchange : Exchange := ⟨⟨3⟩, "vcs.webhook.received"⟩

/-- The first row is published, the second one fails and is taken up by the next batch. -/
def nextTurn : List GatewayLabel :=
  batch (publishes ++ fails ++ [.ok]) ++ .env (.tick (seconds 60)) :: .spawn 3 (.publisher publisher) ::
    [.ok, .ok, .ok, .ok, .fresh ⟨4⟩, .ok, .ok, .ok, .ok, .ok, .ok].map (.step 3)

theorem nextTurn_run : ∃ c m m', (gateway publishing).run initial nextTurn = some c ∧
    c.world.trace.map (·.tid) = List.replicate 4 0 ++ List.replicate 4 1 ++ List.replicate 22 2 ++
      List.replicate 11 3 ∧
    c.world.log[23]? = some (2, ⟨.publish exchange m "vcs.webhook.received", .error (.fault 0)⟩) ∧
    (c.world.log.drop 24)[16]? =
      some (3, ⟨.publish ⟨⟨4⟩, "vcs.webhook.received"⟩ m' "vcs.webhook.received", .ok ()⟩) ∧
    c.taskOf 2 = some (.publisher publisher) ∧ c.taskOf 3 = some (.publisher publisher) :=
  ⟨_, _, _, rfl, rfl, rfl, rfl, rfl, rfl⟩

/-- Both rows of a batch fail. -/
theorem sameBatch_run : ∃ c m m', (gateway publishing).run initial (batch (fails ++ fails)) = some c ∧
    c.world.trace.map (·.tid) = List.replicate 4 0 ++ List.replicate 4 1 ++ List.replicate 24 2 ∧
    c.world.log[19]? = some (2, ⟨.publish exchange m "vcs.webhook.received", .error (.fault 0)⟩) ∧
    (c.world.log.drop 20)[6]? =
      some (2, ⟨.publish exchange m' "vcs.webhook.received", .error (.fault 0)⟩) ∧
    ((c.world.log.drop 20).take 6).all (fun e => !readsPublisher e) = true ∧
    c.taskOf 2 = some (.publisher publisher) :=
  ⟨_, _, _, rfl, rfl, rfl, rfl, rfl, rfl⟩

end Example

theorem next_exchange_turn : ∃ c pre m mid m' post,
    Reachable Example.publishing (fun _ => True) c ∧
    c.world.log = pre ++
      (2, ⟨.publish Example.exchange m "vcs.webhook.received", .error (.fault 0)⟩) :: mid ++
      (3, ⟨.publish ⟨⟨4⟩, "vcs.webhook.received"⟩ m' "vcs.webhook.received", .ok ()⟩) :: post ∧
    (ensureExchange Example.publisher).Returned (historyOf 3 mid)
      (.ok ⟨⟨4⟩, "vcs.webhook.received"⟩) := by
  obtain ⟨c, m, m', hrun, htids, hfailed, hnext, htask, htask'⟩ := Example.nextTurn_run
  have hreach : Reachable Example.publishing (fun _ => True) c :=
    ⟨_, _, _, fun l _ => by cases l <;> exact trivial, hrun⟩
  have hturns : TakesTurns c := by
    apply TakesTurns.of_sorted
    rw [htids]
    decide
  have hlog := eq_take_cons_drop hfailed
  rw [eq_take_cons_drop hnext, ← List.cons_append, ← List.append_assoc] at hlog
  exact ⟨c, _, m, _, m', _, hreach, hlog,
    (next_exchange_iff hreach hturns hlog htask htask' rfl).mpr (by decide)⟩

/-- The next row of the batch goes through the channel that has just failed, and fails too. -/
theorem same_exchange_again : ∃ c pre m mid m' post,
    Reachable Example.publishing (fun _ => True) c ∧ TakesTurns c ∧
    c.world.log = pre ++
      (2, ⟨.publish Example.exchange m "vcs.webhook.received", .error (.fault 0)⟩) :: mid ++
      (2, ⟨.publish Example.exchange m' "vcs.webhook.received", .error (.fault 0)⟩) :: post ∧
    ¬(ensureExchange Example.publisher).Returned (historyOf 2 mid) (.ok Example.exchange) := by
  obtain ⟨c, m, m', hrun, htids, hfailed, hnext, hreads, htask⟩ := Example.sameBatch_run
  have hturns : TakesTurns c := by
    apply TakesTurns.of_sorted
    rw [htids]
    decide
  have hlog := eq_take_cons_drop hfailed
  rw [eq_take_cons_drop hnext, ← List.cons_append, ← List.append_assoc] at hlog
  refine ⟨c, _, m, _, m', _, Example.reachable_batch hrun, hturns, hlog, ?_⟩
  rintro ⟨before, steps, after, hsteps, hreturned⟩
  obtain ⟨⟨op, r⟩, hstep, rfl⟩ := ensureExchange_reads hreturned
  have hmem : ⟨.getSelf Example.publisher.id, r⟩ ∈ historyOf 2 ((c.world.log.drop 20).take 6) := by
    rw [hsteps]
    simp [hstep]
  have hnone := List.all_eq_true.mp hreads _ (mem_historyOf.mp hmem)
  simp [Example.readsPublisher] at hnone

end VcsGateway
