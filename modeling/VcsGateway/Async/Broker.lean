import Mathlib.Data.List.Perm.Basic
import Mathlib.Data.List.Range
import Mathlib.Data.List.Nodup

/-!
# A queue with acknowledgements

A broker hands out each message under a tag of its own.  The delivery is settled once: an
acknowledged or dead-lettered message is gone for good, a requeued one, and one whose
channel was lost, waits in the queue again.
-/

namespace Async

structure Envelope (Msg : Type) where
  id : Nat
  content : Msg

structure Delivery (Msg : Type) where
  tag : Nat
  envelope : Envelope Msg

inductive Settlement where
  | acked | requeued | deadLettered | lost
deriving DecidableEq, Repr

/-- The message goes back to the queue. -/
def Settlement.returns : Settlement → Bool
  | .requeued | .lost => true
  | .acked | .deadLettered => false

/-- `settled` are the deliveries of the past, with what became of them. -/
structure Broker (Msg : Type) where
  queue : List (Envelope Msg) := []
  unacked : List (Delivery Msg) := []
  acked : List (Envelope Msg) := []
  deadLetters : List (Envelope Msg) := []
  settled : List (Delivery Msg × Settlement) := []
  nextId : Nat := 0
  nextTag : Nat := 0

namespace Broker

variable {Msg : Type} (b : Broker Msg)

def publish (m : Msg) : Broker Msg :=
  { b with queue := b.queue ++ [⟨b.nextId, m⟩], nextId := b.nextId + 1 }

/-- Hand out the message at position `i` of the queue. -/
def deliver (i : Nat) : Option (Delivery Msg × Broker Msg) :=
  match b.queue[i]? with
  | none => none
  | some e => some (⟨b.nextTag, e⟩, { b with
      queue := b.queue.eraseIdx i
      unacked := ⟨b.nextTag, e⟩ :: b.unacked
      nextTag := b.nextTag + 1 })

/-- Where the message of a settled delivery goes. -/
def place (e : Envelope Msg) : Settlement → Broker Msg
  | .acked => { b with acked := e :: b.acked }
  | .deadLettered => { b with deadLetters := e :: b.deadLetters }
  | .requeued | .lost => { b with queue := b.queue ++ [e] }

/-- Settle the delivery with this tag, if it is still open. -/
def settle (tag : Nat) (o : Settlement) : Option (Broker Msg) :=
  match b.unacked.find? fun d => d.tag = tag with
  | none => none
  | some d => some ({ b with
      unacked := b.unacked.eraseP fun d => d.tag = tag
      settled := (d, o) :: b.settled }.place d.envelope o)

/-- Every message that the broker has, wherever it is. -/
def everywhere : List (Envelope Msg) :=
  b.queue ++ (b.unacked.map (·.envelope) ++ (b.acked ++ b.deadLetters))

/-- The broker has handed out this delivery. -/
def Delivered (d : Delivery Msg) : Prop := d ∈ b.unacked ∨ ∃ o, (d, o) ∈ b.settled

structure Sound : Prop where
  /-- Every message is in one place. -/
  ids : (b.everywhere.map (·.id)).Perm (List.range b.nextId)
  tags : ∀ d, b.Delivered d → d.tag < b.nextTag
  unique : ∀ d d', b.Delivered d → b.Delivered d' → d.tag = d'.tag → d = d'
  latest : ∀ d ∈ b.unacked, ∀ d', b.Delivered d' → d'.envelope.id = d.envelope.id → d'.tag ≤ d.tag
  final : ∀ d o, (d, o) ∈ b.settled → o.returns = false → ∀ d', b.Delivered d' →
    d'.envelope.id = d.envelope.id → d'.tag ≤ d.tag
  acked : ∀ d, (d, .acked) ∈ b.settled → d.envelope ∈ b.acked
  deadLettered : ∀ d, (d, .deadLettered) ∈ b.settled → d.envelope ∈ b.deadLetters
  returned : ∀ d o, (d, o) ∈ b.settled → o.returns = true → d.envelope ∈ b.queue ∨
    ∃ d', b.Delivered d' ∧ d'.envelope = d.envelope ∧ d.tag < d'.tag

variable {b} {b' : Broker Msg}

theorem Sound.empty : (({} : Broker Msg)).Sound := by
  constructor <;> simp [everywhere, Delivered]

/-- A message in the queue is nowhere else. -/
theorem Sound.queue_ne (h : b.Sound) {e e' : Envelope Msg} (he : e ∈ b.queue)
    (he' : e' ∈ b.unacked.map (·.envelope) ++ (b.acked ++ b.deadLetters)) : e.id ≠ e'.id := by
  have hnodup : (b.everywhere.map (·.id)).Nodup := h.ids.nodup_iff.mpr List.nodup_range
  unfold everywhere at hnodup
  rw [List.map_append, List.nodup_append] at hnodup
  exact hnodup.2.2 e.id (List.mem_map_of_mem he) e'.id (List.mem_map_of_mem he')

theorem Sound.settled_elsewhere (h : b.Sound) {d : Delivery Msg} {o : Settlement}
    (hd : (d, o) ∈ b.settled) (ho : o.returns = false) :
    d.envelope ∈ b.unacked.map (·.envelope) ++ (b.acked ++ b.deadLetters) := by
  cases o with
  | acked => exact List.mem_append_right _ (List.mem_append_left _ (h.acked d hd))
  | deadLettered => exact List.mem_append_right _ (List.mem_append_right _ (h.deadLettered d hd))
  | requeued => simp [Settlement.returns] at ho
  | lost => simp [Settlement.returns] at ho

theorem Sound.publish (h : b.Sound) (m : Msg) : (b.publish m).Sound where
  ids := by
    have hperm : ((b.publish m).everywhere.map (·.id)).Perm (b.nextId :: b.everywhere.map (·.id)) := by
      simp only [Broker.publish, everywhere, List.map_append, List.map_cons, List.map_nil,
        List.append_assoc]
      exact List.perm_middle
    apply hperm.trans
    rw [show (b.publish m).nextId = b.nextId + 1 from rfl, List.range_succ]
    exact (h.ids.cons b.nextId).trans (List.perm_append_singleton _ _).symm
  tags := h.tags
  unique := h.unique
  latest := h.latest
  final := h.final
  acked := h.acked
  deadLettered := h.deadLettered
  returned d o hd ho := (h.returned d o hd ho).imp_left fun hwaits => List.mem_append_left _ hwaits

/-! ### One delivery -/

theorem deliver_eq_some {i : Nat} {d : Delivery Msg} (hd : b.deliver i = some (d, b')) :
    d.tag = b.nextTag ∧ b.queue.Perm (d.envelope :: b'.queue) ∧ b'.unacked = d :: b.unacked ∧
      b'.acked = b.acked ∧ b'.deadLetters = b.deadLetters ∧ b'.settled = b.settled ∧
      b'.nextId = b.nextId ∧ b'.nextTag = b.nextTag + 1 := by
  unfold deliver at hd
  split at hd
  · simp at hd
  · next e he =>
    simp only [Option.some.injEq, Prod.mk.injEq] at hd
    obtain ⟨rfl, rfl⟩ := hd
    obtain ⟨hi, rfl⟩ := List.getElem?_eq_some_iff.mp he
    exact ⟨rfl, (List.getElem_cons_eraseIdx_perm hi).symm, rfl, rfl, rfl, rfl, rfl, rfl⟩

theorem deliver_delivered {i : Nat} {d : Delivery Msg} (hd : b.deliver i = some (d, b'))
    (d' : Delivery Msg) : b'.Delivered d' ↔ d' = d ∨ b.Delivered d' := by
  obtain ⟨-, -, hunacked, -, -, hsettled, -, -⟩ := deliver_eq_some hd
  simp only [Delivered, hunacked, hsettled, List.mem_cons, or_assoc]

theorem Sound.deliver (h : b.Sound) {i : Nat} {d : Delivery Msg}
    (hd : b.deliver i = some (d, b')) : b'.Sound := by
  obtain ⟨htag, hqueue, hunacked, hacked, hdead, hsettled, hid, hnext⟩ := deliver_eq_some hd
  have hdelivered := deliver_delivered hd
  have hmem : d.envelope ∈ b.queue := hqueue.mem_iff.mpr List.mem_cons_self
  constructor
  · have hperm : b'.everywhere.Perm b.everywhere := by
      unfold everywhere
      rw [hunacked, hacked, hdead, List.map_cons]
      calc b'.queue ++ (d.envelope :: b.unacked.map (·.envelope) ++ (b.acked ++ b.deadLetters))
          _ |>.Perm (d.envelope :: (b'.queue ++ (b.unacked.map (·.envelope) ++
              (b.acked ++ b.deadLetters)))) := List.perm_middle
          _ |>.Perm (b.queue ++ (b.unacked.map (·.envelope) ++ (b.acked ++ b.deadLetters))) :=
            hqueue.symm.append_right _
    rw [hid]
    exact (hperm.map _).trans h.ids
  · intro d' hd'
    rcases (hdelivered d').mp hd' with rfl | hd'
    · omega
    · have := h.tags d' hd'
      omega
  · intro d₁ d₂ hd₁ hd₂ hsame
    rcases (hdelivered d₁).mp hd₁ with rfl | hd₁
    · rcases (hdelivered d₂).mp hd₂ with rfl | hd₂
      · rfl
      · have := h.tags d₂ hd₂
        omega
    · rcases (hdelivered d₂).mp hd₂ with rfl | hd₂
      · have := h.tags d₁ hd₁
        omega
      · exact h.unique d₁ d₂ hd₁ hd₂ hsame
  · intro d₁ hd₁ d' hd' hsame
    rw [hunacked] at hd₁
    rcases List.mem_cons.mp hd₁ with rfl | hopen
    · rcases (hdelivered d').mp hd' with rfl | hd'
      · exact le_refl _
      · have := h.tags d' hd'
        omega
    · rcases (hdelivered d').mp hd' with rfl | hd'
      · have hne := h.queue_ne hmem (List.mem_append_left _ (List.mem_map_of_mem hopen))
        exact absurd hsame hne
      · exact h.latest d₁ hopen d' hd' hsame
  · intro d₁ o hd₁ ho d' hd' hsame
    rw [hsettled] at hd₁
    rcases (hdelivered d').mp hd' with rfl | hd'
    · exact absurd hsame (h.queue_ne hmem (h.settled_elsewhere hd₁ ho))
    · exact h.final d₁ o hd₁ ho d' hd' hsame
  · rw [hsettled, hacked]
    exact h.acked
  · rw [hsettled, hdead]
    exact h.deadLettered
  · intro d₁ o hd₁ ho
    rw [hsettled] at hd₁
    rcases h.returned d₁ o hd₁ ho with hwaits | ⟨d', hd', hsame, hlt⟩
    · rcases List.mem_cons.mp (hqueue.mem_iff.mp hwaits) with heq | hwaits
      · refine .inr ⟨d, (hdelivered d).mpr (.inl rfl), heq.symm, ?_⟩
        have := h.tags d₁ (.inr ⟨o, hd₁⟩)
        omega
      · exact .inl hwaits
    · exact .inr ⟨d', (hdelivered d').mpr (.inr hd'), hsame, hlt⟩

/-! ### One settlement -/

theorem perm_eraseP {α : Type} {p : α → Bool} {a : α} {l : List α} (h : l.find? p = some a) :
    l.Perm (a :: l.eraseP p) := by
  induction l with
  | nil => simp at h
  | cons x l ih =>
    by_cases hx : p x = true
    · rw [List.find?_cons_of_pos hx, Option.some.injEq] at h
      rw [List.eraseP_cons_of_pos hx, h]
    · rw [List.find?_cons_of_neg hx] at h
      rw [List.eraseP_cons_of_neg hx]
      exact ((ih h).cons x).trans (List.Perm.swap a x _)

/-- What settling a delivery does. -/
structure Settles (b b' : Broker Msg) (d : Delivery Msg) (o : Settlement) : Prop where
  unacked : b.unacked.Perm (d :: b'.unacked)
  settled : b'.settled = (d, o) :: b.settled
  nextId : b'.nextId = b.nextId
  nextTag : b'.nextTag = b.nextTag
  everywhere : b'.everywhere.Perm b.everywhere
  queue : b.queue ⊆ b'.queue
  acked : b.acked ⊆ b'.acked
  deadLetters : b.deadLetters ⊆ b'.deadLetters
  returned : o.returns = true → d.envelope ∈ b'.queue
  acks : o = .acked → d.envelope ∈ b'.acked
  deadLettered : o = .deadLettered → d.envelope ∈ b'.deadLetters

theorem settle_eq_some {tag : Nat} {o : Settlement} (h : b.settle tag o = some b') :
    ∃ d, d.tag = tag ∧ Settles b b' d o := by
  unfold settle at h
  split at h
  · simp at h
  · next d hd =>
    obtain rfl := Option.some.inj h
    have htag : d.tag = tag := by simpa using List.find?_some hd
    have hperm := perm_eraseP hd
    refine ⟨d, htag, ?_⟩
    -- where the envelope of `d` was, and where it goes
    have hout : b.everywhere.Perm (d.envelope :: (b.queue ++
        ((b.unacked.eraseP fun d => d.tag = tag).map (·.envelope) ++ (b.acked ++ b.deadLetters)))) := by
      unfold everywhere
      exact (((hperm.map _).append_right _).append_left _).trans List.perm_middle
    cases o with
    | acked =>
      refine ⟨hperm, rfl, rfl, rfl, ?_, List.Subset.refl _, List.subset_cons_self _ _,
        List.Subset.refl _, by simp [Settlement.returns], fun _ => List.mem_cons_self, by simp⟩
      apply (hout.trans _).symm
      exact List.perm_middle.symm.trans (List.perm_middle.symm.append_left _)
    | deadLettered =>
      refine ⟨hperm, rfl, rfl, rfl, ?_, List.Subset.refl _, List.Subset.refl _,
        List.subset_cons_self _ _, by simp [Settlement.returns], by simp, fun _ => List.mem_cons_self⟩
      apply (hout.trans _).symm
      exact List.perm_middle.symm.trans ((List.perm_middle.symm.trans
        (List.perm_middle.symm.append_left _)).append_left _)
    | requeued | lost =>
      refine ⟨hperm, rfl, rfl, rfl, ?_, List.subset_append_left _ _, List.Subset.refl _,
        List.Subset.refl _, fun _ => List.mem_append_right _ List.mem_cons_self, by simp, by simp⟩
      apply (hout.trans _).symm
      simp only [everywhere, place, List.append_assoc, List.singleton_append]
      exact List.perm_middle.symm

theorem Settles.delivered {d : Delivery Msg} {o : Settlement} (h : Settles b b' d o) (d' : Delivery Msg) :
    b'.Delivered d' ↔ b.Delivered d' := by
  unfold Delivered
  rw [h.unacked.mem_iff, h.settled, List.mem_cons]
  constructor
  · rintro (hopen | ⟨o', hsettled⟩)
    · exact .inl (.inr hopen)
    · rcases List.mem_cons.mp hsettled with heq | hsettled
      · exact .inl (.inl (congrArg Prod.fst heq))
      · exact .inr ⟨o', hsettled⟩
  · rintro ((rfl | hopen) | ⟨o', hsettled⟩)
    · exact .inr ⟨o, List.mem_cons_self⟩
    · exact .inl hopen
    · exact .inr ⟨o', List.mem_cons_of_mem _ hsettled⟩

theorem Sound.settle (h : b.Sound) {d : Delivery Msg} {o : Settlement} (hs : Settles b b' d o) :
    b'.Sound := by
  have hopen : d ∈ b.unacked := hs.unacked.mem_iff.mpr List.mem_cons_self
  constructor
  · rw [hs.nextId]
    exact (hs.everywhere.map _).trans h.ids
  · intro d' hd'
    rw [hs.nextTag]
    exact h.tags d' ((hs.delivered d').mp hd')
  · intro d₁ d₂ hd₁ hd₂
    exact h.unique d₁ d₂ ((hs.delivered d₁).mp hd₁) ((hs.delivered d₂).mp hd₂)
  · intro d₁ hd₁ d' hd' hsame
    exact h.latest d₁ (hs.unacked.mem_iff.mpr (List.mem_cons_of_mem _ hd₁)) d'
      ((hs.delivered d').mp hd') hsame
  · intro d₁ o₁ hd₁ ho d' hd' hsame
    rw [hs.settled] at hd₁
    rcases List.mem_cons.mp hd₁ with heq | hbefore
    · obtain ⟨rfl, rfl⟩ := Prod.mk.inj heq
      exact h.latest d₁ hopen d' ((hs.delivered d').mp hd') hsame
    · exact h.final d₁ o₁ hbefore ho d' ((hs.delivered d').mp hd') hsame
  · intro d₁ hd₁
    rw [hs.settled] at hd₁
    rcases List.mem_cons.mp hd₁ with heq | hbefore
    · obtain ⟨rfl, rfl⟩ := Prod.mk.inj heq
      exact hs.acks rfl
    · exact hs.acked (h.acked d₁ hbefore)
  · intro d₁ hd₁
    rw [hs.settled] at hd₁
    rcases List.mem_cons.mp hd₁ with heq | hbefore
    · obtain ⟨rfl, rfl⟩ := Prod.mk.inj heq
      exact hs.deadLettered rfl
    · exact hs.deadLetters (h.deadLettered d₁ hbefore)
  · intro d₁ o₁ hd₁ ho
    rw [hs.settled] at hd₁
    rcases List.mem_cons.mp hd₁ with heq | hbefore
    · obtain ⟨rfl, rfl⟩ := Prod.mk.inj heq
      exact .inl (hs.returned ho)
    · rcases h.returned d₁ o₁ hbefore ho with hwaits | ⟨d', hd', hlater⟩
      · exact .inl (hs.queue hwaits)
      · exact .inr ⟨d', (hs.delivered d').mpr hd', hlater⟩

/-! ### Where a message is -/

/-- **Every message is in exactly one place.** -/
theorem Sound.count_eq_one (h : b.Sound) {id : Nat} (hid : id < b.nextId) :
    (b.queue.map (·.id)).count id + (b.unacked.map (·.envelope.id)).count id +
      (b.acked.map (·.id)).count id + (b.deadLetters.map (·.id)).count id = 1 := by
  have hcount : (b.everywhere.map (·.id)).count id = 1 := by
    rw [h.ids.count_eq]
    exact List.count_eq_one_of_mem List.nodup_range (List.mem_range.mpr hid)
  have hunacked : (b.unacked.map (·.envelope)).map (·.id) = b.unacked.map (·.envelope.id) := by
    simp
  simp only [everywhere, List.map_append, List.count_append, hunacked] at hcount
  omega

end Broker

end Async
