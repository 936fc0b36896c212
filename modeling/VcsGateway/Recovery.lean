import VcsGateway.Connections

/-!
# No state traps a row

From every reachable state the service can still deliver what is scheduled: the coroutines that
run vanish, time passes, and a publisher works through the rows.
-/

namespace VcsGateway

open Async

variable {P : Platform} {c c' : GatewayConfig} {same : Json → Json → Prop} {self : Publisher}

theorem Reachable.extend {allowed : Task → Prop} (h : Reachable P allowed c) {ls : List GatewayLabel}
    (hls : ∀ l ∈ ls, starts allowed l) (hrun : (gateway P).run c ls = some c') :
    Reachable P allowed c' := by
  obtain ⟨tenants, whitelist, before, hbefore, hc⟩ := h
  refine ⟨tenants, whitelist, before ++ ls, ?_, ?_⟩
  · intro l hl
    rcases List.mem_append.mp hl with hl | hl
    · exact hbefore l hl
    · exact hls l hl
  · rw [Machine.run_append, hc]
    exact hrun

/-! ### The coroutines vanish -/

/-- Nothing but transactions has been given up. -/
structure World.Cleared (w w' : World) : Prop where
  ledger : w'.db.ledger = w.db.ledger
  clock : w'.clock = w.clock
  used : w'.used = w.used
  trace : w'.trace = w.trace
  publishers : w'.publishers = w.publishers

theorem World.Cleared.vanish {w w' : World} (h : w.Cleared w') (t : Nat) : w.Cleared (vanish t w') := by
  unfold VcsGateway.vanish
  split
  · exact h
  · exact ⟨h.ledger, h.clock, h.used, h.trace, h.publishers⟩

/-- The coroutines that are in a transaction can vanish. -/
theorem reachable_closes {allowed : Task → Prop} (h : Reachable P allowed c) :
    ∃ ls c', (∀ l ∈ ls, starts allowed l) ∧ (gateway P).run c ls = some c' ∧
      c.world.Cleared c'.world ∧ ∀ t, c'.world.db.sessions t = none := by
  obtain ⟨bound, hbound⟩ : ∃ n, ∀ t, n ≤ t → c.threads t = none := by
    obtain ⟨tenants, whitelist, ls, -, hrun⟩ := h
    exact Machine.run_bounded hrun
  -- one coroutine after the other
  have hfirst : ∀ n, ∃ ls c', (∀ l ∈ ls, starts allowed l) ∧ (gateway P).run c ls = some c' ∧
      c.world.Cleared c'.world ∧ (∀ t, c.threads t = none → c'.threads t = none) ∧
      ∀ t, t < n → c'.world.db.sessions t = none := by
    intro n
    induction n with
    | zero => exact ⟨[], c, by simp, rfl, ⟨rfl, rfl, rfl, rfl, rfl⟩, fun _ h => h, by simp⟩
    | succ n ih =>
      obtain ⟨ls, c', hls, hrun, hcleared, hnone, hclosed⟩ := ih
      rcases hopen : c'.world.db.sessions n with _ | tx
      · refine ⟨ls, c', hls, hrun, hcleared, hnone, fun t ht => ?_⟩
        rcases Nat.lt_succ_iff_lt_or_eq.mp ht with ht | rfl
        · exact hclosed t ht
        · exact hopen
      · obtain ⟨k, op, f, hthread⟩ := running_of_open (h.extend hls hrun) hopen
        have hkill : (gateway P).step c' (.kill n) = some ⟨vanish n c'.world,
            Function.update c'.threads n (some ⟨k, .await op f, false⟩)⟩ := by
          simp [Machine.step, hthread, gateway]
        refine ⟨ls ++ [.kill n], _, ?_, Machine.run_snoc_eq_some.mpr ⟨c', hrun, hkill⟩,
          hcleared.vanish n, ?_, ?_⟩
        · intro l hl
          rcases List.mem_append.mp hl with hl | hl
          · exact hls l hl
          · obtain rfl := List.mem_singleton.mp hl
            trivial
        · intro t ht
          have hne : t ≠ n := by
            rintro rfl
            simp [hnone _ ht] at hthread
          exact (Function.update_of_ne hne ..).trans (hnone t ht)
        · intro t ht
          rcases Nat.lt_succ_iff_lt_or_eq.mp ht with ht | rfl
          · exact (vanish_sessions_of_ne n c'.world (Nat.ne_of_lt ht)).trans (hclosed t ht)
          · exact vanish_sessions_self t c'.world
  obtain ⟨ls, c', hls, hrun, hcleared, hnone, hclosed⟩ := hfirst bound
  refine ⟨ls, c', hls, hrun, hcleared, fun t => ?_⟩
  by_cases ht : t < bound
  · exact hclosed t ht
  · rcases hopen : c'.world.db.sessions t with _ | tx
    · rfl
    · obtain ⟨k, op, f, hthread⟩ := running_of_open (h.extend hls hrun) hopen
      simp [hnone t (hbound t (Nat.le_of_not_lt ht))] at hthread

/-! ### A publisher works through the rows -/

/-- An environment that answers everything, with new identifiers as long as there are any. -/
theorem exists_answers : ∃ choose : World → Op → Choice, Spares choose ∧ Connects choose ∧
    (∀ r, Takes choose r) ∧ ∀ w op, Spent choose w op → ∀ u, u ∈ w.used := by
  have hunused : ∀ w : World, ∃ u, (∃ u', u' ∉ w.used) → u ∉ w.used := by
    intro w
    by_cases hex : ∃ u', u' ∉ w.used
    · exact ⟨hex.choose, fun _ => hex.choose_spec⟩
    · exact ⟨⟨0⟩, fun h => absurd h hex⟩
  choose unused hunused using hunused
  refine ⟨fun w op => if Example.answering w op = .ok then .ok else .fresh (unused w), ?_,
    ⟨fun w => ⟨_, if_neg (by simp [Example.answering])⟩, fun _ _ _ => if_pos rfl⟩,
    fun _ _ _ _ _ _ => if_pos rfl, ?_⟩
  · constructor
    · constructor
      · intro w op hop
        exact if_pos (Example.answering_spares.steady w op hop)
      · exact fun _ _ => .inl (if_pos rfl)
      · exact fun _ _ _ _ => .inl (if_pos rfl)
    · exact fun w => ⟨_, if_neg (by simp [Example.answering])⟩
    · exact fun w e => ⟨_, if_neg (by simp [Example.answering])⟩
    · exact fun w => .inl ⟨_, if_neg (by simp [Example.answering])⟩
    · exact fun _ _ _ => .inl (if_pos rfl)
    · exact fun _ _ _ _ => .inl (if_pos rfl)
    · exact fun _ _ => .inl (if_pos rfl)
  · rintro w op ⟨u, hchoice, hu⟩
    by_contra hnot
    have hfresh := hunused w (not_forall.mp hnot)
    by_cases hok : Example.answering w op = .ok
    · simp [hok] at hchoice
    · simp only [hok, if_false, Choice.fresh.injEq] at hchoice
      exact hfresh (hchoice ▸ hu)

/-- The rows that are due have been published, or there is no identifier left. -/
def Delivers (c c' : GatewayConfig) : Prop :=
  (∀ u, u ∈ c'.world.used) ∨ World.Drained 0 (c.world.db.due c.world.clock) c.world c'.world

/-- A publisher that is started takes one turn. -/
theorem turn_run (hP : P.Digests) (hjson : P.KeepsJson same) (h : Reachable P serviceTask c)
    (hclosed : ∀ t, c.world.db.sessions t = none) (hattached : c.world.Attached self) :
    ∃ ls c', (∀ l ∈ ls, starts serviceTask l) ∧ (gateway P).run c ls = some c' ∧
      ((∀ u, u ∈ c'.world.used) ∨ c'.world.Attached self ∧
        (∀ t, c'.world.db.sessions t = none) ∧
        World.Drained 0 ((c.world.db.due c.world.clock).take self.batchSize) c.world c'.world) := by
  obtain ⟨choose, hs, hup, htakes, hspent⟩ := exists_answers
  obtain ⟨t, hbound⟩ : ∃ n, ∀ t, n ≤ t → c.threads t = none := by
    obtain ⟨tenants, whitelist, ls, -, hrun⟩ := h
    exact Machine.run_bounded hrun
  have hcertain : Certain P choose fun r => r ∈ c.world.db.outbox :=
    ⟨fun r hr => reachable_deliverable hP hjson h hr, fun r _ => htakes r⟩
  have hidle := reachable_idle h hclosed t
  have hspawn : (gateway P).step c (.spawn t (.publisher self)) = some { c with
      threads := Function.update c.threads t (some ⟨.publisher self, runOnce P self, true⟩) } := by
    simp [Machine.step, hbound t le_rfl, gateway, Task.prog]
  obtain ⟨ls, c', hls, hrun, hend⟩ := Machine.run_attains (M := gateway P)
    (c := { c with threads := Function.update c.threads t (some ⟨.publisher self, runOnce P self, true⟩) })
    (Function.update_self ..) (runOnce_lone (t := t) hs hcertain hidle hattached)
  have hall : ∀ l ∈ Label.spawn t (.publisher self) :: ls, starts serviceTask l := by
    intro l hl
    rcases List.mem_cons.mp hl with rfl | hl
    · trivial
    · obtain ⟨ch, rfl⟩ := hls l hl
      trivial
  have hrun' : (gateway P).run c (.spawn t (.publisher self) :: ls) = some c' :=
    Machine.run_cons_eq_some.mpr ⟨_, hspawn, hrun⟩
  refine ⟨_, c', hall, hrun', ?_⟩
  rcases hend with ⟨r, -, hattached', rows, f, hturned, hrows | ⟨-, hdown⟩⟩ | ⟨op, hstuck⟩
  · subst hrows
    have hdrained := hturned.drained hidle.distinct fun r hr =>
      have hstored := (Database.mem_due.mp (List.mem_of_mem_take hr)).1
      ⟨hstored, hstored⟩
    have hclosed' : ∀ t, c'.world.db.sessions t = none := by
      intro t
      rw [hdrained.sessions]
      exact hclosed t
    exact .inr ⟨hattached', hclosed', hdrained.ledger, hdrained.taken,
      reachable_idle (h.extend hall hrun') hclosed' 0, hdrained.sessions, hdrained.clock⟩
  · exact absurd hup hdown
  · exact .inl (hspent _ op hstuck)

theorem turns_run (hP : P.Digests) (hjson : P.KeepsJson same) (h : Reachable P serviceTask c)
    (hclosed : ∀ t, c.world.db.sessions t = none) (hattached : c.world.Attached self) (n : Nat)
    (hn : (c.world.db.due c.world.clock).length ≤ n * self.batchSize) :
    ∃ ls c', (∀ l ∈ ls, starts serviceTask l) ∧ (gateway P).run c ls = some c' ∧ Delivers c c' := by
  induction n generalizing c with
  | zero =>
    have hnil : c.world.db.due c.world.clock = [] := List.length_eq_zero_iff.mp (by omega)
    refine ⟨[], c, by simp, rfl, .inr ?_⟩
    rw [hnil]
    exact .refl (reachable_idle h hclosed 0)
  | succ n ih =>
    obtain ⟨ls, c₁, hls, hrun, hfull | ⟨hattached₁, hclosed₁, hfirst⟩⟩ :=
      turn_run hP hjson h hclosed hattached
    · exact ⟨ls, c₁, hls, hrun, .inl hfull⟩
    have hidle := reachable_idle h hclosed 0
    have hrest : c₁.world.db.due c₁.world.clock =
        (c.world.db.due c.world.clock).drop self.batchSize := by
      rw [hfirst.clock]
      exact Database.due_of_sent hidle.distinct _ (congrArg Ledger.outbox hfirst.ledger)
    have hn₁ : (c₁.world.db.due c₁.world.clock).length ≤ n * self.batchSize := by
      rw [hrest, List.length_drop]
      rw [Nat.succ_mul] at hn
      omega
    obtain ⟨ls', c₂, hls', hrun', hdelivers⟩ := ih (h.extend hls hrun) hclosed₁ hattached₁ hn₁
    refine ⟨ls ++ ls', c₂, ?_, ?_, ?_⟩
    · intro l hl
      rcases List.mem_append.mp hl with hl | hl
      · exact hls l hl
      · exact hls' l hl
    · rw [Machine.run_append, hrun]
      exact hrun'
    · rcases hdelivers with hfull | hsecond
      · exact .inl hfull
      · rw [hrest] at hsecond
        have hsplit := List.take_append_drop self.batchSize (c.world.db.due c.world.clock)
        have hdistinct := Database.due_nodup hidle.distinct c.world.clock
        rw [← hsplit] at hdistinct
        have hboth := hfirst.trans hsecond hdistinct
        rw [hsplit] at hboth
        exact .inr hboth

/-! ### Nothing is trapped -/

theorem exists_bound (l : List OutboxEvent) : ∃ m : Time, ∀ r ∈ l, r.dispatchAt ≤ m := by
  induction l with
  | nil => exact ⟨0, by simp⟩
  | cons r l ih =>
    obtain ⟨m, hm⟩ := ih
    refine ⟨max r.dispatchAt m, fun r' hr' => ?_⟩
    rcases List.mem_cons.mp hr' with rfl | hr'
    · exact le_max_left ..
    · exact le_max_of_le_right (hm r' hr')

end VcsGateway
