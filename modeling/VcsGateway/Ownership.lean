import VcsGateway.Async.Monitor
import VcsGateway.Channels

/-!
# The channels of a publisher

Which of the channels that an `OutboxPublisher` has opened may still be open between two
batches: `self._channel`, as long as no failure makes it forget an open one.  The two
failure handlers forget the channel without closing it.
-/

namespace VcsGateway

open Async

variable {P : Platform}

/-! ### What a step does to the channels -/

/-- What the operation does to the open channels and to `self._channel`. -/
structure Op.Handles (op : Op) (w w' : World) : Prop where
  /-- No channel opens again. -/
  channels : ∀ u ∈ w'.channels, u ∈ w.used → u ∈ w.channels
  held : ∀ p, (∀ ch, op ≠ .setChannel p ch) →
    (w'.publishers p).channel = (w.publishers p).channel

theorem Op.Handles.of_eq {op : Op} {w w' : World} (hchannels : w'.channels = w.channels)
    (hpublishers : w'.publishers = w.publishers) : op.Handles w w' := by
  constructor
  · intro u hu _
    rwa [hchannels] at hu
  · intro p _
    rw [hpublishers]

theorem execOp_handles {t : Nat} {ch : Choice} {w w' : World} : ∀ {op : Op} {r : Except Exn op.Ret},
    execOp P t ch w op = some (r, w') → op.Handles w w' := by
  have hdb : ∀ {α : Type} {o : Outcome Database α} {r : Except Exn α} (op : Op),
      w.onDb o = some (r, w') → op.Handles w w' := by
    intro α o r op h
    obtain ⟨db', -, rfl⟩ := onDb_eq_some h
    exact .of_eq rfl rfl
  have hread : ∀ {α : Type} {a : α} {r : Except Exn α} (op : Op),
      awaited ch w (some (.ok a, w)) = some (r, w') → op.Handles w w' := by
    intro α a r op h
    rcases awaited_world h with ⟨_, _, _, rfl⟩ | ⟨_, rfl⟩
    · exact .of_eq rfl rfl
    · exact .of_eq rfl rfl
  intro op r h
  cases op with
  | uuid4 =>
    obtain ⟨u, -, -, -, rfl⟩ := execUuid4_eq_some h
    exact .of_eq rfl rfl
  | redisSetex key ttl value =>
    rcases execSetex_eq_some h with ⟨_, _, _, rfl⟩ | ⟨_, rfl⟩
    · exact .of_eq rfl rfl
    · exact .of_eq rfl rfl
  | insertEvent e =>
    simp only [execOp, Option.bind_eq_some_iff] at h
    obtain ⟨w₁, hw₁, h⟩ := h
    obtain ⟨db', -, rfl⟩ := onDb_eq_some h
    rcases takeFresh_eq_some hw₁ with ⟨u, -, -, rfl⟩ | ⟨-, rfl⟩
    · exact .of_eq rfl rfl
    · exact .of_eq rfl rfl
  | openChannel =>
    rcases execOpenChannel_eq_some h with ⟨_, _, _, rfl⟩ | ⟨v, -, hfresh, -, rfl⟩
    · exact .of_eq rfl rfl
    · refine ⟨fun u hu hused => ?_, fun _ _ => rfl⟩
      rcases List.mem_cons.mp hu with rfl | hu
      · exact absurd hused hfresh
      · exact hu
  | closeChannel ch =>
    rcases awaited_world h with ⟨_, _, _, rfl⟩ | ⟨_, rfl⟩
    · exact .of_eq rfl rfl
    · exact ⟨fun u hu _ => List.mem_of_mem_erase hu, fun _ _ => rfl⟩
  | utcnow | isClosed ch | getSelf p =>
    obtain ⟨-, rfl⟩ := atOnce_eq_some h
    exact .of_eq rfl rfl
  | setChannel p ch =>
    obtain ⟨-, rfl⟩ := atOnce_eq_some h
    refine ⟨fun u hu _ => hu, fun q hq => ?_⟩
    have hne : q ≠ p := by
      rintro rfl
      exact hq ch rfl
    simp [hne]
  | setExchange p ex =>
    obtain ⟨-, rfl⟩ := atOnce_eq_some h
    refine ⟨fun u hu _ => hu, fun q _ => ?_⟩
    by_cases hq : q = p
    · simp [hq]
    · simp [hq]
  | redisGet | selectTenant | selectWhitelist | selectByPrHashKey | getExchange | publish =>
    exact hread _ h
  | _ => exact hdb _ h

/-! ### What a turn of a publisher knows -/

/-- What a turn of a publisher knows of `self._channel`. -/
inductive Grip where
  | calm
  /-- It was this channel when the turn read it. -/
  | holds (channel : Channel)
  /-- It was `None` or closed. -/
  | lost
  /-- The turn has opened this channel, and has not assigned it yet. -/
  | opened (channel : Channel)

structure OwnerState where
  /-- The publisher whose turn it is. -/
  publisher : Option Nat
  grip : Grip := .calm

namespace OwnerState

def Settled (s : OwnerState) : Prop := ∀ u, s.grip ≠ .opened u

/-- A publisher opens a channel when it has lost its own, and assigns it at once. -/
def allows (s : OwnerState) : Op → Prop
  | .openChannel => s.publisher = none ∨ s.grip = .lost
  | .setChannel p (some u) => s.publisher = some p ∧ s.grip = .opened u
  | .setChannel p none => s.publisher = some p ∧ s.Settled
  | _ => s.Settled

def next (s : OwnerState) : (op : Op) → Except Exn op.Ret → OwnerState
  | .getSelf p, .ok state =>
    if s.publisher = some p then
      match state.channel with
      | none => { s with grip := .lost }
      | some u => { s with grip := .holds u }
    else s
  | .isClosed u, .ok true =>
    match s.grip with
    | .holds v => if u = v then { s with grip := .lost } else s
    | _ => s
  | .openChannel, .ok u => if s.publisher = none then s else { s with grip := .opened u }
  | .setChannel _ _, _ => { s with grip := .calm }
  | _, _ => s

end OwnerState

def owning : Protocol Exn Op Op.Ret where
  State := OwnerState
  allows := OwnerState.allows
  next := OwnerState.next
  admits _ _ := True

/-- The publisher whose turn the task is. -/
def Task.publisherId : Task → Option Nat
  | .publisher self => some self.id
  | _ => none

section Conformance

variable {self : Publisher} {s : OwnerState}

/-- The state of a turn of the publisher, between two assignments. -/
structure InTurn (owner : Publisher) (s : OwnerState) : Prop where
  publisher : s.publisher = some owner.id
  settled : s.Settled

/-- The operations of a turn that neither open a channel nor take one over. -/
def Op.Tame (self : Publisher) : Op → Prop
  | .openChannel => False
  | .setChannel p ch => p = self.id ∧ ch = none
  | _ => True

theorem tame_inTurn {op : Op} (hop : op.Tame self) :
    ∀ s, InTurn self s → owning.allows s op ∧ ∀ r, owning.admits op r → InTurn self (owning.next s op r) := by
  intro s hs
  cases op with
  | openChannel => exact hop.elim
  | setChannel p ch =>
    obtain ⟨rfl, rfl⟩ := hop
    exact ⟨⟨hs.publisher, hs.settled⟩, fun r _ => ⟨hs.publisher, by simp [OwnerState.Settled, owning, OwnerState.next]⟩⟩
  | getSelf p =>
    refine ⟨hs.settled, fun r _ => ?_⟩
    cases r with
    | error e => exact hs
    | ok state =>
      change InTurn self (ite _ _ _)
      split
      · split
        · exact ⟨hs.publisher, by simp [OwnerState.Settled]⟩
        · exact ⟨hs.publisher, by simp [OwnerState.Settled]⟩
      · exact hs
  | isClosed u =>
    refine ⟨hs.settled, fun r _ => ?_⟩
    rcases r with e | _ | _
    · exact hs
    · exact hs
    · change InTurn self (match s.grip with
        | .holds v => if u = v then { s with grip := .lost } else s
        | _ => s)
      split
      · split
        · exact ⟨hs.publisher, by simp [OwnerState.Settled]⟩
        · exact hs
      · exact hs
  | _ => exact ⟨hs.settled, fun r _ => by cases r <;> exact hs⟩

theorem Op.Select.tame {op : Op} (h : op.Select) : op.Tame self := by
  cases h <;> exact trivial

theorem within_tame {α : Type} {p : Coroutine α} (hp : p.Only (Op.Tame self)) (hs : InTurn self s) :
    owning.Conforms (fun _ => InTurn self) p s :=
  Protocol.Conforms.within (hp.mono fun _ h => tame_inTurn h) hs

/-- `_get_exchange` opens a channel only when it has lost its own, and keeps it. -/
theorem ensureExchange_owns (hs : InTurn self s) :
    owning.Conforms (fun _ => InTurn self) (ensureExchange self) s := by
  apply Protocol.Conforms.bind (P := owning) (R := fun r s' => InTurn self s' ∧ ∀ state, r = .ok state →
    s'.grip = match state.channel with
      | none => .lost
      | some u => .holds u)
  · have htame : (Op.getSelf self.id).Tame self := trivial
    refine ⟨hs.settled, fun r hr => ⟨(tame_inTurn htame s hs).2 r hr, ?_⟩⟩
    rintro state rfl
    simp only [owning, OwnerState.next, hs.publisher, if_true]
    split <;> rfl
  swap
  · exact fun e s' hs' => hs'.1
  rintro state s₁ ⟨hs₁, hgrip⟩
  have hgrip := hgrip state rfl
  apply Protocol.Conforms.bind (P := owning)
    (R := fun r s' => InTurn self s' ∧ (r = .ok true → s'.grip = .lost))
  · rcases hchannel : state.channel with _ | u
    · rw [hchannel] at hgrip
      exact ⟨hs₁, fun _ => hgrip⟩
    · rw [hchannel] at hgrip
      have htame : (Op.isClosed u).Tame self := trivial
      refine ⟨hs₁.settled, fun r hr => ⟨(tame_inTurn htame s₁ hs₁).2 r hr, ?_⟩⟩
      rintro rfl
      simp [owning, OwnerState.next, hgrip]
  swap
  · exact fun e s' hs' => hs'.1
  rintro closed s₂ ⟨hs₂, hlost⟩
  apply Protocol.Conforms.bind (P := owning) (R := fun _ => InTurn self)
  · cases closed with
    | false => exact hs₂
    | true =>
      refine ⟨.inr (hlost rfl), fun r _ => ?_⟩
      cases r with
      | error e => exact hs₂
      | ok u =>
        have hopened : owning.next s₂ .openChannel (.ok u) = { s₂ with grip := .opened u } := by
          simp [owning, OwnerState.next, hs₂.publisher]
        rw [hopened]
        refine ⟨⟨hs₂.publisher, rfl⟩, fun r _ => ?_⟩
        have hset : InTurn self { s₂ with grip := .calm } :=
          ⟨hs₂.publisher, by simp [OwnerState.Settled]⟩
        cases r with
        | error e => exact hset
        | ok _ =>
          have htame : (do
              let exchange ← perform (.getExchange u self.exchangeName)
              perform (.setExchange self.id (some exchange)) : Coroutine Unit).Only (Op.Tame self) :=
            Prog.Only.bind (Prog.only_perform.mpr trivial) fun _ => Prog.only_perform.mpr trivial
          exact within_tame htame hset
  · intro _ s₃ hs₃
    refine within_tame ?_ hs₃
    refine Prog.Only.bind (Prog.only_perform.mpr trivial) fun state => ?_
    split <;> exact trivial
  · exact fun e s' hs' => hs'

theorem processRow_tame (exchange : Exchange) (row : OutboxEvent) :
    (processRow P self exchange row).Only (Op.Tame self) := by
  have hpublish : (publishRow P exchange row).Only (Op.Tame self) := by
    refine Prog.Only.bind (p := Prog.ofExcept _) trivial fun headers => ?_
    refine Prog.Only.bind (p := Prog.ofExcept _) trivial fun body => ?_
    exact Prog.Only.bind (Prog.only_perform.mpr trivial) fun _ => Prog.only_perform.mpr trivial
  have hfailure : ∀ exc, (recordFailure P self row exc).Only (Op.Tame self) := by
    intro exc
    have hmark : (markFailure P row exc).Only (Op.Tame self) := by
      unfold markFailure
      split
      · exact Prog.only_perform.mpr trivial
      · exact Prog.Only.bind (Prog.only_perform.mpr trivial) fun _ => Prog.only_perform.mpr trivial
    refine hmark.bind fun _ => ?_
    exact Prog.Only.bind (Prog.only_perform.mpr ⟨rfl, rfl⟩) fun _ => Prog.only_perform.mpr trivial
  have hrow := exceptException_only hpublish hfailure
  exact @nestedTransaction_only _ _ (Op.Tame self) trivial trivial trivial hrow

theorem batchBody_owns (hs : InTurn self s) :
    owning.Conforms (fun _ => InTurn self) (batchBody P self) s := by
  have hselect : (selectDue self.batchSize).Only (Op.Tame self) :=
    (selectDue_selects _).mono fun _ h => h.tame
  apply Protocol.Conforms.bind (within_tame hselect hs)
  · intro rows s₁ hs₁
    change owning.Conforms _ (ite _ _ _) s₁
    split
    · exact hs₁
    · apply Protocol.Conforms.bind (ensureExchange_owns hs₁)
      · intro exchange s₂ hs₂
        exact within_tame (Prog.Only.forEach fun row => processRow_tame exchange row) hs₂
      · exact fun e s₂ hs₂ => hs₂
  · exact fun e s₁ hs₁ => hs₁

theorem afterBatch_tame (r : Except Exn Unit) : (afterBatch self r).Only (Op.Tame self) := by
  have hreset : (do
      perform (.setChannel self.id none)
      perform (.setExchange self.id none)
      pure false : Coroutine Bool).Only (Op.Tame self) :=
    Prog.Only.bind (Prog.only_perform.mpr ⟨rfl, rfl⟩) fun _ =>
      Prog.Only.bind (Prog.only_perform.mpr trivial) fun _ => trivial
  have hstop : (afterBatch self (.error .cancelledError)).Only (Op.Tame self) := by
    refine Prog.Only.bind (Prog.only_perform.mpr trivial) fun state => ?_
    rcases state.channel with _ | u
    · exact trivial
    · refine Prog.Only.bind (Prog.only_perform.mpr trivial) fun closed => ?_
      cases closed with
      | true => exact trivial
      | false => exact Prog.Only.bind (Prog.only_perform.mpr trivial) fun _ => trivial
  rcases r with e | _
  · cases e with
    | cancelledError => exact hstop
    | _ => exact hreset
  · exact trivial

theorem runOnce_owns (hs : InTurn self s) :
    owning.Conforms (fun _ => InTurn self) (runOnce P self) s := by
  have hcontrol : ∀ op : Op, op.Tame self → ∀ {s'}, InTurn self s' →
      owning.Conforms (fun _ => InTurn self) (perform op) s' :=
    fun op hop _ hs' => within_tame (Prog.only_perform.mpr hop) hs'
  apply Protocol.Conforms.andThen (P := owning) (R := fun _ => InTurn self)
  · apply Protocol.Conforms.bind (hcontrol .begin trivial hs)
    · intro _ s₁ hs₁
      apply Protocol.Conforms.andThen (batchBody_owns hs₁)
      intro r s₂ hs₂
      cases r with
      | ok a =>
        exact (hcontrol .commit trivial hs₂).bind (fun _ _ h => h) fun _ _ h => h
      | error exc =>
        exact (hcontrol .rollback trivial hs₂).bind (fun _ _ h => h) fun _ _ h => h
    · exact fun e s₁ hs₁ => hs₁
  · exact fun r s₁ hs₁ => within_tame (afterBatch_tame r) hs₁

end Conformance

/-- The state in which a task starts. -/
def OwnerState.start (k : Task) : OwnerState := { publisher := k.publisherId }

/-- The operations of the other tasks. -/
theorem rests_outsider {op : Op} (hop : ∀ p ch, op ≠ .setChannel p ch) :
    owning.allows { publisher := none } op ∧ ∀ r, owning.next { publisher := none } op r =
      { publisher := none } := by
  have hsettled : OwnerState.Settled { publisher := none } := by simp [OwnerState.Settled]
  cases op with
  | setChannel p ch => exact absurd rfl (hop p ch)
  | openChannel => exact ⟨.inl rfl, fun r => by cases r <;> rfl⟩
  | isClosed u => exact ⟨hsettled, fun r => by rcases r with _ | _ | _ <;> rfl⟩
  | _ => exact ⟨hsettled, fun r => by cases r <;> rfl⟩

/-- **Every task follows the protocol**, and has assigned what it has opened when it ends. -/
theorem task_owns (k : Task) :
    owning.Conforms (fun _ => OwnerState.Settled) (k.prog P) (OwnerState.start k) := by
  have hsettled : OwnerState.Settled { publisher := none } := by simp [OwnerState.Settled]
  have houtside : ∀ {α : Type} {p : Coroutine α}, (p.Only fun op => ∀ p ch, op ≠ .setChannel p ch) →
      Rests owning p { publisher := none } :=
    fun hp => Protocol.Conforms.idle (hp.mono fun _ h => rests_outsider h)
  have hdone : ∀ {α : Type} {p : Coroutine α}, Rests owning p { publisher := none } →
      owning.Conforms (fun _ => OwnerState.Settled) p { publisher := none } := by
    intro α p hp
    apply Protocol.Conforms.mono hp
    rintro _ _ rfl
    exact hsettled
  have hidle : ∀ {op : Op}, op.Idle → ∀ p ch, op ≠ .setChannel p ch := by
    rintro op hop p ch rfl
    cases hop with
    | journey h => cases h
  have hkey : ∀ {key : String} {op : Op}, op.ForKey key → ∀ p ch, op ≠ .setChannel p ch := by
    rintro key op hop p ch rfl
    cases hop with
    | journey h => cases h
    | cancel h => cases h
  have htransaction : ∀ {α : Type} {body : Coroutine α},
      (body.Only fun op => ∀ p ch, op ≠ .setChannel p ch) →
      (transaction body).Only fun op => ∀ p ch, op ≠ .setChannel p ch :=
    fun hbody => @transaction_only _ _ (fun op => ∀ p ch, op ≠ .setChannel p ch) (by simp) (by simp)
      (by simp) hbody
  cases k with
  | webhook req =>
    apply hdone
    apply processWebhook_rests fun op hop => rests_outsider (hidle hop)
    intro correlationId eventId timestamp prData rawJson
    exact houtside (htransaction ((persistBody_only P _ _ _ _ _ _ _).mono fun _ h => hkey h))
  | checkDuplicate key =>
    exact hdone (houtside ((checkDuplicate_idle P key).mono fun _ h => hidle h))
  | checkStale key v => exact hdone (houtside ((checkStale_idle P key v).mono fun _ h => hidle h))
  | scheduleEvent a =>
    apply hdone
    apply houtside
    apply htransaction
    apply Prog.Only.bind ((cancelPrevious_only a.prHashKey a.prVersion _).mono ?_)
    · exact fun _ => Prog.only_perform.mpr (by simp)
    · rintro op hop p ch rfl
      cases hop
  | publisher self =>
    apply Protocol.Conforms.mono (runOnce_owns ⟨rfl, by simp [OwnerState.Settled, OwnerState.start]⟩)
    exact fun _ _ hs => hs.settled

/-! ### Runs -/

/-- `t` has come to its end. -/
def Over (c : GatewayConfig) (t : Nat) : Prop :=
  ∃ k r, c.threads t = some ⟨k, .ret r, true⟩

/-- A turn of the publisher has opened the channel. -/
def OpenedBy (c : GatewayConfig) (p : Nat) (u : Channel) : Prop :=
  ∃ t self, c.taskOf t = some (.publisher self) ∧ self.id = p ∧
    (t, ⟨.openChannel, .ok u⟩) ∈ c.world.log

/-- The turns of the publisher that have been started are over. -/
def BetweenBatches (c : GatewayConfig) (p : Nat) : Prop :=
  ∀ t self, c.taskOf t = some (.publisher self) → self.id = p → Over c t

/-- `self._channel` holds no open channel. -/
def HoldsNone (w : World) (p : Nat) : Prop :=
  ∀ u, (w.publishers p).channel = some u → u ∉ w.channels

/-- The last turn of every publisher. -/
abbrev Turns := Nat → Option Nat

namespace Turns

def next (turns : Turns) : GatewayLabel → Turns
  | .spawn t (.publisher self) => Function.update turns self.id (some t)
  | _ => turns

/-- `run` starts the next turn when the last one is over. -/
def InTurns (turns : Turns) (c : GatewayConfig) : GatewayLabel → Prop
  | .spawn _ (.publisher self) => ∀ t, turns self.id = some t → Over c t
  | _ => True

end Turns

/-- When a failure handler sets `self._channel = None`, the channel in it is closed. -/
def ForgetsClosed (c : GatewayConfig) : GatewayLabel → Prop
  | .step t _ => ∀ k p f, c.threads t = some ⟨k, .await (.setChannel p none) f, true⟩ →
      HoldsNone c.world p
  | _ => True

/-- Watches that the turns of a publisher follow one another. -/
def turnwise : Monitor Exn Op Op.Ret World Choice EnvEvent Task.Result where
  State := Turns
  observe turns _ l := turns.next l
  ok turns c l := turns.InTurns c l

/-- Watches also that no handler forgets an open channel. -/
def tidy : Monitor Exn Op Op.Ret World Choice EnvEvent Task.Result where
  State := Turns
  observe turns _ l := turns.next l
  ok turns c l := turns.InTurns c l ∧ ForgetsClosed c l

/-- Of the channels that the publisher has opened, only `self._channel` may be open. -/
def OnlyOwnOpen (c : GatewayConfig) (p : Nat) : Prop :=
  ∀ u ∈ c.world.channels, OpenedBy c p u → (c.world.publishers p).channel = some u

/-- What a turn knows is so. -/
def OwnerState.Right (s : OwnerState) (w : World) : Prop :=
  ∀ p, s.publisher = some p →
    match s.grip with
    | .calm => True
    | .holds u => (w.publishers p).channel = some u
    | .lost | .opened _ => HoldsNone w p

/-- The invariant of the runs without a leak. -/
structure Owned (turns : Turns) (c : GatewayConfig) (σ : Nat → OwnerState) : Prop where
  guides : owning.Guides OwnerState.Settled c σ
  publisher : ∀ t, (σ t).publisher = (c.taskOf t).bind Task.publisherId
  last : ∀ t p, (σ t).publisher = some p → ¬Over c t → turns p = some t
  right : ∀ t, ¬Over c t → (σ t).Right c.world
  logged : ∀ t u, (t, ⟨.openChannel, .ok u⟩) ∈ c.world.log →
    u ∈ c.world.used ∧ ∃ k, c.taskOf t = some k
  held : ∀ p u, (c.world.publishers p).channel = some u → u ∈ c.world.used
  opened : ∀ t u, (σ t).grip = .opened u → u ∈ c.world.used
  owned : ∀ p u, OpenedBy c p u → u ∈ c.world.channels → (c.world.publishers p).channel = some u ∨
    ∃ t, (σ t).publisher = some p ∧ (σ t).grip = .opened u ∧ ¬Over c t

theorem HoldsNone.mono {w w' : World} {p : Nat} (h : HoldsNone w p)
    (hchannels : ∀ u ∈ w'.channels, u ∈ w.used → u ∈ w.channels)
    (hused : ∀ u, (w.publishers p).channel = some u → u ∈ w.used)
    (hheld : (w'.publishers p).channel = (w.publishers p).channel) : HoldsNone w' p := by
  intro u hu hmem
  rw [hheld] at hu
  exact h u hu (hchannels u hmem (hused u hu))

theorem OwnerState.Right.mono {s : OwnerState} {w w' : World} (h : s.Right w)
    (hchannels : ∀ u ∈ w'.channels, u ∈ w.used → u ∈ w.channels)
    (hused : ∀ p u, (w.publishers p).channel = some u → u ∈ w.used)
    (hheld : ∀ p, s.publisher = some p → (w'.publishers p).channel = (w.publishers p).channel) :
    s.Right w' := by
  intro p hp
  have hright := h p hp
  have hnone : HoldsNone w p → HoldsNone w' p :=
    fun hnone => hnone.mono hchannels (hused p) (hheld p hp)
  cases hgrip : s.grip with
  | calm => exact trivial
  | holds u =>
    rw [hgrip] at hright
    exact (hheld p hp).trans hright
  | lost =>
    rw [hgrip] at hright
    exact hnone hright
  | opened u =>
    rw [hgrip] at hright
    exact hnone hright

theorem over_update {c : GatewayConfig} {w : World} {t t' : Nat}
    {th : Thread Exn Op Op.Ret Task.Result} (hne : t' ≠ t) :
    Over ⟨w, Function.update c.threads t (some th)⟩ t' ↔ Over c t' := by
  simp [Over, Function.update_of_ne hne]

theorem not_over_await {c : GatewayConfig} {t : Nat} {k : Task} {op : Op}
    {f : Except Exn op.Ret → Prog Exn Op Op.Ret k.Result} {alive : Bool}
    (ht : c.threads t = some ⟨k, .await op f, alive⟩) : ¬Over c t := by
  rintro ⟨k', r, hr⟩
  rw [ht, Option.some.injEq] at hr
  cases hr

section Step

variable {turns : Turns} {c c' : GatewayConfig} {σ : Nat → OwnerState} {t : Nat} {s : OwnerState}

@[simp] theorem OwnerState.next_publisher (op : Op) (r : Except Exn op.Ret) :
    (s.next op r).publisher = s.publisher := by
  unfold OwnerState.next
  split
  · split
    · split <;> rfl
    · rfl
  · split
    · split <;> rfl
    · rfl
  · split <;> rfl
  · rfl
  · rfl

/-- A turn learns nothing wrong. -/
theorem OwnerState.Right.exec {w w' : World} {op : Op} {ch : Choice} {r : Except Exn op.Ret}
    (h : s.Right w) (hallow : s.allows op) (he : execOp P t ch w op = some (r, w'))
    (hused : ∀ p u, (w.publishers p).channel = some u → u ∈ w.used) : (s.next op r).Right w' := by
  have hhandles := execOp_handles he
  have hsame : (∀ p ch, op ≠ .setChannel p ch) → s.Right w' :=
    fun hop => h.mono hhandles.channels hused fun p _ => hhandles.held p (hop p)
  cases op with
  | setChannel p ch => exact fun _ _ => trivial
  | openChannel =>
    cases r with
    | error e => exact hsame (by simp)
    | ok u =>
      change (ite _ _ _ : OwnerState).Right w'
      split
      · exact hsame (by simp)
      · next hpublisher =>
        -- the channel before it was lost
        intro p hp
        have hlost : s.grip = .lost := hallow.resolve_left hpublisher
        have hright := h p hp
        rw [hlost] at hright
        exact HoldsNone.mono hright hhandles.channels (hused p) (hhandles.held p (by simp))
  | getSelf p =>
    obtain ⟨rfl, rfl⟩ := atOnce_eq_some he
    change (ite _ _ _ : OwnerState).Right w'
    split
    · next hpublisher =>
      split
      · next hnone =>
        intro q hq u hu
        obtain rfl : p = q := Option.some.inj (hpublisher.symm.trans hq)
        rw [hnone] at hu
        cases hu
      · next u hsome =>
        intro q hq
        obtain rfl : p = q := Option.some.inj (hpublisher.symm.trans hq)
        exact hsome
    · exact h
  | isClosed u =>
    obtain ⟨rfl, rfl⟩ := atOnce_eq_some he
    by_cases hopen : u ∈ w'.channels
    · simpa [OwnerState.next, hopen] using h
    · simp only [OwnerState.next, hopen, not_false_eq_true, decide_true]
      split
      · next v hgrip =>
        split
        · next heq =>
          intro p hp v' hv'
          have hright := h p hp
          rw [hgrip] at hright
          obtain rfl : v = v' := Option.some.inj (hright.symm.trans hv')
          rw [← heq]
          exact hopen
        · exact h
      · exact h
  | _ =>
    have hnext : s.next _ r = s := by cases r <;> rfl
    rw [hnext]
    exact hsame (by simp)

/-- Only an opened channel is new to a turn. -/
theorem OwnerState.next_opened {op : Op} {r : Except Exn op.Ret} {u : Channel}
    (h : (s.next op r).grip = .opened u) :
    s.grip = .opened u ∨ (⟨op, r⟩ : GatewayStep) = ⟨.openChannel, .ok u⟩ := by
  unfold OwnerState.next at h
  split at h
  · split at h
    · split at h <;> cases h
    · exact .inl h
  · split at h
    · split at h
      · cases h
      · exact .inl h
    · exact .inl h
  · split at h
    · exact .inl h
    · cases h
      exact .inr rfl
  · cases h
  · exact .inl h

theorem log_record (w : World) (e : Event) :
    (w.record e).log = w.log ++ [(e.tid, ⟨e.op, e.result⟩)] := by
  simp [World.log, World.record]

/-- Only a turn of the publisher assigns `self._channel`. -/
theorem OwnerState.assigns {op : Op} {p : Nat} {u : Option Channel} (h : s.allows op)
    (hop : op = .setChannel p u) : s.publisher = some p := by
  subst hop
  cases u with
  | none => exact h.1
  | some u => exact h.1

/-- A turn that has opened a channel can only assign it. -/
theorem OwnerState.assigns_opened {op : Op} {p : Nat} {u : Channel} (h : s.allows op)
    (hp : s.publisher = some p) (hgrip : s.grip = .opened u) : op = .setChannel p (some u) := by
  have hnot : ¬s.Settled := fun hsettled => hsettled u hgrip
  cases op with
  | openChannel =>
    rcases h with hnone | hlost
    · simp [hp] at hnone
    · simp [hgrip] at hlost
  | setChannel q x =>
    cases x with
    | none => exact absurd h.2 hnot
    | some v =>
      obtain ⟨hq, hv⟩ := h
      rw [hp, Option.some.injEq] at hq
      rw [hgrip, Grip.opened.injEq] at hv
      rw [hq, hv]
  | _ => exact absurd h hnot

namespace Owned

theorem step (h : Owned turns c σ) {ch : Choice} (hforgets : ForgetsClosed c (.step t ch))
    (hstep : (gateway P).step c (.step t ch) = some c') : ∃ σ', Owned turns c' σ' := by
  obtain ⟨k, op, f, r, w', ht, he, rfl⟩ := Machine.step_step hstep
  obtain ⟨w₁, h₁, rfl⟩ := exec_eq_some he
  have hframe := execOp_frame h₁
  have hhandles := execOp_handles h₁
  have hconf : owning.Conforms (fun _ => OwnerState.Settled) (.await op f) (σ t) :=
    h.guides t _ ht rfl
  obtain ⟨hallow, hrest⟩ := hconf
  have hallow : (σ t).allows op := hallow
  have halive : ¬Over c t := not_over_await ht
  have htask : c.taskOf t = some k := by simp [Config.taskOf, ht]
  have htasks : (⟨w₁.record ⟨t, op, r⟩, Function.update c.threads t (some ⟨k, f r, true⟩)⟩ :
      GatewayConfig).taskOf = c.taskOf := Config.taskOf_advance ht rfl
  have hlog : (w₁.record ⟨t, op, r⟩).log = c.world.log ++ [(t, ⟨op, r⟩)] := by
    rw [log_record]
    simp [World.log, hframe.trace]
  -- an opened channel is new, and recorded as used
  have hopens : ∀ u, (⟨op, r⟩ : GatewayStep) = ⟨.openChannel, .ok u⟩ → u ∈ w₁.used := by
    intro u heq
    cases heq
    rcases execOpenChannel_eq_some h₁ with ⟨e, hr, -⟩ | ⟨v, -, -, hr, rfl⟩
    · simp at hr
    · rw [Except.ok.inj hr]
      exact List.mem_cons_self
  refine ⟨Function.update σ t ((σ t).next op r), h.guides.update fun _ => hrest r trivial, ?_, ?_, ?_,
    ?_, ?_, ?_, ?_⟩
  · intro t'
    rw [htasks, ← h.publisher t']
    by_cases heq : t' = t
    · rw [heq, Function.update_self, OwnerState.next_publisher]
    · rw [Function.update_of_ne heq]
  · intro t' p hp halive'
    by_cases heq : t' = t
    · rw [heq] at hp ⊢
      rw [Function.update_self, OwnerState.next_publisher] at hp
      exact h.last t p hp halive
    · rw [Function.update_of_ne heq] at hp
      exact h.last t' p hp ((over_update heq).not.mp halive')
  · intro t' halive'
    by_cases heq : t' = t
    · rw [heq, Function.update_self]
      have hright : ((σ t).next op r).Right w₁ := (h.right t halive).exec hallow h₁ h.held
      exact hright
    · rw [Function.update_of_ne heq]
      have halive' : ¬Over c t' := (over_update heq).not.mp halive'
      have hright : (σ t').Right w₁ := by
        apply (h.right t' halive').mono hhandles.channels h.held
        -- no other turn of the publisher is under way
        intro p hp
        apply hhandles.held p
        intro u hop
        have hp' := OwnerState.assigns hallow hop
        have hsame := (h.last t p hp' halive).symm.trans (h.last t' p hp halive')
        exact heq (Option.some.inj hsame).symm
      exact hright
  · intro t' u hmem
    have hmem : (t', (⟨.openChannel, .ok u⟩ : GatewayStep)) ∈ (w₁.record ⟨t, op, r⟩).log := hmem
    rw [hlog] at hmem
    rw [htasks]
    rcases List.mem_append.mp hmem with hold | hnew
    · obtain ⟨hused, htask'⟩ := h.logged t' u hold
      exact ⟨hframe.used hused, htask'⟩
    · obtain ⟨rfl, heq⟩ := Prod.mk.inj (List.mem_singleton.mp hnew)
      exact ⟨hopens u heq.symm, k, htask⟩
  · intro p u hu
    have hu : (w₁.publishers p).channel = some u := hu
    by_cases hop : ∃ x, op = .setChannel p x
    · -- the channel that the turn has opened
      obtain ⟨x, rfl⟩ := hop
      obtain ⟨-, rfl⟩ := atOnce_eq_some h₁
      have hx : x = some u := by simpa [World.record] using hu
      subst hx
      exact h.opened t u hallow.2
    · rw [hhandles.held p fun x heq => hop ⟨x, heq⟩] at hu
      exact hframe.used (h.held p u hu)
  · intro t' u hu
    by_cases heq : t' = t
    · rw [heq, Function.update_self] at hu
      rcases OwnerState.next_opened hu with hbefore | hnew
      · exact hframe.used (h.opened t u hbefore)
      · exact hopens u hnew
    · rw [Function.update_of_ne heq] at hu
      exact hframe.used (h.opened t' u hu)
  · intro p u hopened hmem
    have hmem : u ∈ w₁.channels := hmem
    change (w₁.publishers p).channel = some u ∨ _
    obtain ⟨t₀, self, htask₀, rfl, hlogged⟩ := hopened
    rw [htasks] at htask₀
    have hlogged : (t₀, (⟨.openChannel, .ok u⟩ : GatewayStep)) ∈ (w₁.record ⟨t, op, r⟩).log := hlogged
    rw [hlog] at hlogged
    rcases List.mem_append.mp hlogged with hold | hnew
    · obtain ⟨hused, -⟩ := h.logged t₀ u hold
      have hbefore := h.owned self.id u ⟨t₀, self, htask₀, rfl, hold⟩ (hhandles.channels u hmem hused)
      rcases hbefore with hheld | ⟨t', hp', hgrip', halive'⟩
      · by_cases hop : ∃ x, op = .setChannel self.id x
        · -- the channel that is open now is not forgotten
          obtain ⟨x, rfl⟩ := hop
          exfalso
          have hopen := hhandles.channels u hmem hused
          cases x with
          | none => exact hforgets k self.id f ht u hheld hopen
          | some v =>
            have hright := h.right t halive self.id hallow.1
            rw [hallow.2] at hright
            exact hright u hheld hopen
        · rw [hhandles.held self.id fun x heq => hop ⟨x, heq⟩]
          exact .inl hheld
      · by_cases heq : t' = t
        · -- the turn assigns the channel that it has opened
          subst heq
          obtain rfl := OwnerState.assigns_opened hallow hp' hgrip'
          obtain ⟨-, rfl⟩ := atOnce_eq_some h₁
          left
          simp
        · refine .inr ⟨t', ?_, ?_, (over_update heq).not.mpr halive'⟩
          · rw [Function.update_of_ne heq]
            exact hp'
          · rw [Function.update_of_ne heq]
            exact hgrip'
    · -- the turn has just opened it
      obtain ⟨rfl, heq⟩ := Prod.mk.inj (List.mem_singleton.mp hnew)
      cases heq
      have hpublisher : (σ t₀).publisher = some self.id := by
        rw [h.publisher t₀, htask₀]
        rfl
      have hnext : (σ t₀).next .openChannel (.ok u) = { σ t₀ with grip := .opened u } := by
        simp [OwnerState.next, hpublisher]
      refine .inr ⟨t₀, ?_, ?_, ?_⟩
      · rw [Function.update_self, hnext]
        exact hpublisher
      · rw [Function.update_self, hnext]
      · -- it cannot end before it has assigned it
        rintro ⟨k', r', hr⟩
        simp only [Function.update_self, Option.some.injEq, Thread.mk.injEq] at hr
        obtain ⟨rfl, hret, -⟩ := hr
        have hend := hrest (.ok u) trivial
        rw [eq_of_heq hret] at hend
        have hsettled : ((σ t₀).next .openChannel (.ok u)).Settled := hend
        rw [hnext] at hsettled
        exact hsettled u rfl

theorem spawn (h : Owned turns c σ) {k : Task} (hturn : turns.InTurns c (.spawn t k))
    (hstep : (gateway P).step c (.spawn t k) = some c') :
    Owned (turns.next (.spawn t k)) c' (Function.update σ t (OwnerState.start k)) := by
  obtain ⟨ht, rfl⟩ := Machine.step_spawn hstep
  have hnone : c.taskOf t = none := by simp [Config.taskOf, ht]
  have htasks : (⟨c.world, Function.update c.threads t (some ⟨k, (gateway P).prog k, true⟩)⟩ :
      GatewayConfig).taskOf = Function.update c.taskOf t (some k) :=
    Config.taskOf_update c c.world t ⟨k, (gateway P).prog k, true⟩
  have htask : ∀ {t'}, t' ≠ t → (⟨c.world, Function.update c.threads t
      (some ⟨k, (gateway P).prog k, true⟩)⟩ : GatewayConfig).taskOf t' = c.taskOf t' := by
    intro t' hne
    rw [htasks, Function.update_of_ne hne]
  have hlogged : ∀ {t' u}, (t', (⟨.openChannel, .ok u⟩ : GatewayStep)) ∈ c.world.log → t' ≠ t := by
    rintro t' u hmem rfl
    obtain ⟨-, k', hk'⟩ := h.logged t' u hmem
    rw [hnone] at hk'
    cases hk'
  refine ⟨h.guides.update fun _ => task_owns k, ?_, ?_, ?_, ?_, h.held, ?_, ?_⟩
  · intro t'
    by_cases heq : t' = t
    · rw [heq, htasks, Function.update_self, Function.update_self]
      rfl
    · rw [Function.update_of_ne heq, h.publisher t']
      exact congrArg (Option.bind · Task.publisherId) (htask heq).symm
  · intro t' p hp halive
    by_cases heq : t' = t
    · rw [heq, Function.update_self] at hp
      rw [heq]
      cases k with
      | publisher self =>
        obtain rfl : self.id = p := Option.some.inj hp
        exact Function.update_self _ _ _
      | _ => cases hp
    · rw [Function.update_of_ne heq] at hp
      have hbusy : ¬Over c t' := (over_update heq).not.mp halive
      have hlast := h.last t' p hp hbusy
      cases k with
      | publisher self =>
        -- the turn before it is over
        have hne : p ≠ self.id := by
          rintro rfl
          exact hbusy (hturn t' hlast)
        exact (Function.update_of_ne hne _ _).trans hlast
      | _ => exact hlast
  · intro t' halive
    by_cases heq : t' = t
    · rw [heq, Function.update_self]
      exact fun _ _ => trivial
    · rw [Function.update_of_ne heq]
      exact h.right t' ((over_update heq).not.mp halive)
  · intro t' u hmem
    obtain ⟨hused, k', hk'⟩ := h.logged t' u hmem
    exact ⟨hused, k', (htask (hlogged hmem)).trans hk'⟩
  · intro t' u hu
    by_cases heq : t' = t
    · rw [heq, Function.update_self] at hu
      cases hu
    · rw [Function.update_of_ne heq] at hu
      exact h.opened t' u hu
  · rintro p u ⟨t₀, self, htask₀, hid, hmem⟩ hopen
    have hbefore : OpenedBy c p u := ⟨t₀, self, (htask (hlogged hmem)).symm.trans htask₀, hid, hmem⟩
    rcases h.owned p u hbefore hopen with hheld | ⟨t', hp', hgrip', halive'⟩
    · exact .inl hheld
    · have hne : t' ≠ t := by
        rintro rfl
        rw [h.publisher, hnone] at hp'
        cases hp'
      refine .inr ⟨t', ?_, ?_, (over_update hne).not.mpr halive'⟩
      · rwa [Function.update_of_ne hne]
      · rwa [Function.update_of_ne hne]

/-- What changes nothing but the channels, and opens none. -/
theorem world (h : Owned turns c σ) {w : World} (hlog : w.log = c.world.log)
    (hused : w.used = c.world.used) (hpublishers : w.publishers = c.world.publishers)
    (hchannels : w.channels ⊆ c.world.channels) : Owned turns { c with world := w } σ := by
  refine ⟨h.guides, h.publisher, h.last, ?_, ?_, ?_, ?_, ?_⟩
  · intro t halive
    apply (h.right t halive).mono (fun u hu _ => hchannels hu) h.held
    intro p _
    rw [hpublishers]
  · intro t u hmem
    have hmem : (t, (⟨.openChannel, .ok u⟩ : GatewayStep)) ∈ w.log := hmem
    rw [hlog] at hmem
    change u ∈ w.used ∧ _
    rw [hused]
    exact h.logged t u hmem
  · intro p u hu
    have hu : (w.publishers p).channel = some u := hu
    rw [hpublishers] at hu
    change u ∈ w.used
    rw [hused]
    exact h.held p u hu
  · intro t u hu
    change u ∈ w.used
    rw [hused]
    exact h.opened t u hu
  · rintro p u ⟨t, self, htask, hid, hmem⟩ hopen
    have hmem : (t, (⟨.openChannel, .ok u⟩ : GatewayStep)) ∈ w.log := hmem
    rw [hlog] at hmem
    change (w.publishers p).channel = some u ∨ _
    rw [hpublishers]
    exact h.owned p u ⟨t, self, htask, hid, hmem⟩ (hchannels hopen)

theorem env (h : Owned turns c σ) {e : EnvEvent} (hstep : (gateway P).step c (.env e) = some c') :
    Owned turns c' σ := by
  obtain rfl : _ = c' := Option.some.inj hstep
  apply h.world
  · cases e <;> rfl
  · cases e <;> rfl
  · cases e <;> rfl
  · cases e with
    | dropChannel u => exact List.erase_subset
    | _ => exact List.Subset.refl _

theorem kill (h : Owned turns c σ) (hstep : (gateway P).step c (.kill t) = some c') :
    Owned turns c' σ := by
  obtain ⟨k, op, f, ht, rfl⟩ := Machine.step_kill hstep
  have hworld : Owned turns { c with world := vanish t c.world } σ := by
    apply h.world
    · simp [World.log, vanish_trace]
    · unfold vanish
      split <;> rfl
    · unfold vanish
      split <;> rfl
    · unfold vanish
      split <;> exact List.Subset.refl _
  have htasks : (⟨vanish t c.world, Function.update c.threads t (some ⟨k, .await op f, false⟩)⟩ :
      GatewayConfig).taskOf = c.taskOf := Config.taskOf_advance ht rfl
  have hover : ∀ t', ¬Over ⟨vanish t c.world, Function.update c.threads t
      (some ⟨k, .await op f, false⟩)⟩ t' ↔ ¬Over c t' := by
    intro t'
    by_cases heq : t' = t
    · rw [heq]
      refine iff_of_true ?_ (not_over_await ht)
      rintro ⟨k', r, hr⟩
      simp at hr
    · exact (over_update heq).not
  refine ⟨h.guides.kill rfl, ?_, ?_, ?_, ?_, hworld.held, hworld.opened, ?_⟩
  · intro t'
    rw [h.publisher t']
    exact congrArg (Option.bind · Task.publisherId) (congrFun htasks t').symm
  · exact fun t' p hp halive => h.last t' p hp ((hover t').mp halive)
  · exact fun t' halive => hworld.right t' ((hover t').mp halive)
  · intro t' u hmem
    obtain ⟨hused, k', hk'⟩ := hworld.logged t' u hmem
    exact ⟨hused, k', (congrFun htasks t').trans hk'⟩
  · rintro p u ⟨t₀, self, htask₀, hid, hmem⟩ hopen
    have hbefore : OpenedBy { c with world := vanish t c.world } p u :=
      ⟨t₀, self, (congrFun htasks t₀).symm.trans htask₀, hid, hmem⟩
    rcases hworld.owned p u hbefore hopen with hheld | ⟨t', hp', hgrip', halive'⟩
    · exact .inl hheld
    · exact .inr ⟨t', hp', hgrip', (hover t').mpr halive'⟩

end Owned

end Step

theorem owned_initial (tenants : UUID → Option Tenant) (whitelist : List VcsEventWhitelist) :
    Owned (fun _ => none) (Config.start (World.initial tenants whitelist))
      fun _ => { publisher := none } := by
  refine ⟨?_, fun _ => rfl, ?_, fun _ _ _ _ => trivial, ?_, ?_, ?_, ?_⟩
  · intro t th hth
    simp [Config.start] at hth
  · intro t p hp
    cases hp
  · intro t u hmem
    simp [Config.start, World.initial, World.log] at hmem
  · intro p u hu
    simp [Config.start, World.initial] at hu
  · intro t u hu
    cases hu
  · intro p u _ hmem
    simp [Config.start, World.initial] at hmem

/-- **Between two batches a publisher owns at most one open channel**, and that is
    `self._channel`, in every run in which no failure handler forgets an open channel. -/
theorem only_own_open {tenants : UUID → Option Tenant} {whitelist : List VcsEventWhitelist}
    {ls : List GatewayLabel} {c : GatewayConfig}
    (hrun : (gateway P).run (Config.start (World.initial tenants whitelist)) ls = some c)
    (htidy : tidy.Accepts (gateway P) (fun _ => none)
      (Config.start (World.initial tenants whitelist)) ls) {p : Nat} (hbetween : BetweenBatches c p) :
    OnlyOwnOpen c p := by
  have hsteps : ∀ turns c l c', (∃ σ, Owned turns c σ) → tidy.ok turns c l →
      (gateway P).step c l = some c' → ∃ σ, Owned (tidy.observe turns c l) c' σ := by
    intro turns c l c' hinv hok hstep
    obtain ⟨σ, hinv⟩ := hinv
    obtain ⟨hturn, hforgets⟩ := hok
    cases l with
    | spawn t k => exact ⟨_, hinv.spawn hturn hstep⟩
    | step t ch => exact hinv.step hforgets hstep
    | env e => exact ⟨σ, hinv.env hstep⟩
    | kill t => exact ⟨σ, hinv.kill hstep⟩
  obtain ⟨turns, σ, hinv⟩ :=
    Monitor.run_induction _ hsteps ⟨_, owned_initial tenants whitelist⟩ htidy hrun
  intro u hopen hopened
  rcases hinv.owned p u hopened hopen with hheld | ⟨t, hp, -, hbusy⟩
  · exact hheld
  · -- a turn that has not assigned its channel is not over
    rw [hinv.publisher, Option.bind_eq_some_iff] at hp
    obtain ⟨k, htask, hk⟩ := hp
    cases k with
    | publisher self => exact absurd (hbetween t self htask (Option.some.inj hk)) hbusy
    | _ => cases hk

/-! ### A failure while the channel is open -/

/-- `Over`, tested. -/
def isOver (c : GatewayConfig) (t : Nat) : Bool :=
  match c.threads t with
  | some ⟨_, .ret _, true⟩ => true
  | _ => false

theorem isOver_sound {c : GatewayConfig} {t : Nat} (h : isOver c t = true) : Over c t := by
  unfold isOver at h
  split at h
  · next k r hthread => exact ⟨k, r, hthread⟩
  · cases h

/-- `InTurns`, tested. -/
def Turns.inTurns (turns : Turns) (c : GatewayConfig) : GatewayLabel → Bool
  | .spawn _ (.publisher self) => (turns self.id).all (isOver c)
  | _ => true

theorem Turns.inTurns_sound {turns : Turns} {c : GatewayConfig} {l : GatewayLabel}
    (h : turns.inTurns c l = true) : turns.InTurns c l := by
  cases l with
  | spawn t k =>
    cases k with
    | publisher self =>
      intro t' ht'
      rw [inTurns, ht'] at h
      exact isOver_sound h
    | _ => exact trivial
  | _ => exact trivial

/-- `ForgetsClosed`, tested. -/
def forgetsClosed (c : GatewayConfig) : GatewayLabel → Bool
  | .step t _ =>
    match c.threads t with
    | some ⟨_, .await (.setChannel p none) _, _⟩ =>
      (c.world.publishers p).channel.all fun u => !c.world.channels.contains u
    | _ => true
  | _ => true

theorem forgetsClosed_sound {c : GatewayConfig} {l : GatewayLabel} (h : forgetsClosed c l = true) :
    ForgetsClosed c l := by
  cases l with
  | step t ch =>
    intro k p f hthread u hu
    simp only [forgetsClosed, hthread] at h
    rw [hu] at h
    simpa using h
  | _ => exact trivial

/-- What `tidy` watches, tested. -/
def isTidy (turns : Turns) (c : GatewayConfig) (l : GatewayLabel) : Bool :=
  turns.inTurns c l && forgetsClosed c l

theorem isTidy_sound {turns : Turns} {c : GatewayConfig} {l : GatewayLabel}
    (h : isTidy turns c l = true) : tidy.ok turns c l := by
  rw [isTidy, Bool.and_eq_true] at h
  exact ⟨Turns.inTurns_sound h.1, forgetsClosed_sound h.2⟩

namespace Example

/-- The answers to a turn that takes one row up and publishes it through a new channel. -/
def reopens : List Choice :=
  [.ok, .ok, .ok, .ok, .fresh ⟨4⟩, .ok, .ok, .ok, .ok, .ok, .ok, .ok, .ok, .ok]

/-- The second row fails because the broker closes the channel; the next turn publishes it. -/
def reconnects : List GatewayLabel :=
  selectsTwo ++ (publishes ++ fails.take 2).map (.step 2) ++ .env (.dropChannel ⟨3⟩) ::
    (fails.drop 2 ++ [Choice.ok]).map (.step 2) ++ .env (.tick (seconds 60)) ::
      .spawn 3 (.publisher publisher) :: reopens.map (.step 3)

/-- The same, but the channel stays open when the publish fails. -/
def leaks : List GatewayLabel :=
  batch (publishes ++ fails ++ [Choice.ok]) ++ .env (.tick (seconds 60)) ::
    .spawn 3 (.publisher publisher) :: reopens.map (.step 3)

theorem reconnects_tidy :
    tidy.Accepts (gateway publishing) (fun _ => none) initial reconnects :=
  Monitor.accepts_sound (fun _ _ _ => isTidy_sound) rfl

theorem leaks_turnwise : turnwise.Accepts (gateway publishing) (fun _ => none) initial leaks :=
  Monitor.accepts_sound (fun _ _ _ => Turns.inTurns_sound) rfl

/-- The turns that the label starts are over. -/
def turnOver (c : GatewayConfig) : GatewayLabel → Bool
  | .spawn t (.publisher _) => isOver c t
  | _ => true

theorem betweenBatches_of_run {ls : List GatewayLabel} {c : GatewayConfig}
    (hrun : (gateway publishing).run initial ls = some c) (hover : ls.all (turnOver c) = true)
    (p : Nat) : BetweenBatches c p := by
  intro t self htask _
  have hspawn := List.all_eq_true.mp hover _ (Machine.run_spawned hrun htask)
  exact isOver_sound hspawn

theorem reconnects_run : ∃ c, (gateway publishing).run initial reconnects = some c ∧
    reconnects.all (turnOver c) = true ∧ c.world.channels = [⟨4⟩] ∧
    c.taskOf 3 = some (.publisher publisher) ∧
    c.world.log[34]? = some (3, ⟨.openChannel, .ok ⟨4⟩⟩) :=
  ⟨_, rfl, rfl, rfl, rfl, rfl⟩

theorem leaks_run : ∃ c, (gateway publishing).run initial leaks = some c ∧
    leaks.all (turnOver c) = true ∧ c.world.channels = [⟨4⟩, ⟨3⟩] ∧
    c.taskOf 2 = some (.publisher publisher) ∧
    c.world.log[13]? = some (2, ⟨.openChannel, .ok ⟨3⟩⟩) ∧
    (c.world.publishers 0).channel = some ⟨4⟩ :=
  ⟨_, rfl, rfl, rfl, rfl, rfl, rfl⟩

end Example

theorem only_own_open_reconnects : ∃ c,
    (gateway Example.publishing).run Example.initial Example.reconnects = some c ∧
    BetweenBatches c 0 ∧ OpenedBy c 0 ⟨4⟩ ∧ ⟨4⟩ ∈ c.world.channels ∧
    (c.world.publishers 0).channel = some ⟨4⟩ := by
  obtain ⟨c, hrun, hover, hchannels, htask, hopened⟩ := Example.reconnects_run
  have hbetween := Example.betweenBatches_of_run hrun hover 0
  have hopen : ⟨4⟩ ∈ c.world.channels := by simp [hchannels]
  have hby : OpenedBy c 0 ⟨4⟩ := ⟨3, _, htask, rfl, List.mem_of_getElem? hopened⟩
  exact ⟨c, hrun, hbetween, hby, hopen,
    only_own_open hrun Example.reconnects_tidy hbetween ⟨4⟩ hopen hby⟩

/-- **A publish that fails on an open channel leaks it**: after the next batch the publisher has
    two open channels. -/
theorem two_channels_open : ∃ c,
    turnwise.Accepts (gateway Example.publishing) (fun _ => none) Example.initial Example.leaks ∧
    (gateway Example.publishing).run Example.initial Example.leaks = some c ∧
    BetweenBatches c 0 ∧ c.world.channels = [⟨4⟩, ⟨3⟩] ∧
    (c.world.publishers 0).channel = some ⟨4⟩ ∧ OpenedBy c 0 ⟨3⟩ ∧ ¬OnlyOwnOpen c 0 := by
  obtain ⟨c, hrun, hover, hchannels, htask, hopened, hheld⟩ := Example.leaks_run
  have hby : OpenedBy c 0 ⟨3⟩ := ⟨2, _, htask, rfl, List.mem_of_getElem? hopened⟩
  refine ⟨c, Example.leaks_turnwise, hrun, Example.betweenBatches_of_run hrun hover 0, hchannels,
    hheld, hby, ?_⟩
  intro honly
  have hsame := (honly ⟨3⟩ (by simp [hchannels]) hby).symm.trans hheld
  exact absurd hsame (by decide)

end VcsGateway
