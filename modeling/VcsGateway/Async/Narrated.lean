import VcsGateway.Async.History

/-!
# Programs that remark on what they do

A narrated program is a program with remarks between its operations.  The remarks have
no effect: erasing them gives the program back (`Narrated.erase`), and with the same
answers both come to the same result.  What they add is a record, the remarks that a
run has passed, so that a property of "what the program attempted" can be stated where
the operations alone do not show it.
-/

namespace Async

/-- A coroutine that also leaves remarks of type `Note`. -/
inductive Narrated (ε : Type) (Op : Type) (Ret : Op → Type) (Note : Type) (α : Type) : Type where
  | ret (r : Except ε α)
  | await (op : Op) (k : Except ε (Ret op) → Narrated ε Op Ret Note α)
  | note (n : Note) (p : Narrated ε Op Ret Note α)

variable {ε Op : Type} {Ret : Op → Type} {Note α β : Type}

namespace Narrated

def andThen (p : Narrated ε Op Ret Note α) (f : Except ε α → Narrated ε Op Ret Note β) :
    Narrated ε Op Ret Note β :=
  match p with
  | .ret r => f r
  | .await op k => .await op fun r => (k r).andThen f
  | .note n p => .note n (p.andThen f)

def throw (e : ε) : Narrated ε Op Ret Note α := .ret (.error e)

def onOk (f : α → Narrated ε Op Ret Note β) : Except ε α → Narrated ε Op Ret Note β
  | .ok a => f a
  | .error e => .throw e

instance : Monad (Narrated ε Op Ret Note) where
  pure a := .ret (.ok a)
  bind p f := p.andThen (onOk f)

theorem bind_assoc {γ : Type} (p : Narrated ε Op Ret Note α) (f : α → Narrated ε Op Ret Note β)
    (g : β → Narrated ε Op Ret Note γ) : (p >>= f) >>= g = p >>= fun a => f a >>= g := by
  change (p.andThen (onOk f)).andThen (onOk g) = p.andThen (onOk fun a => (f a).andThen (onOk g))
  induction p with
  | ret r => cases r <;> rfl
  | await op k ih => simp only [andThen, ih]
  | note n p ih => simp only [andThen, ih]

/-- A program without remarks. -/
def silent : Prog ε Op Ret α → Narrated ε Op Ret Note α
  | .ret r => .ret r
  | .await op k => .await op fun r => silent (k r)

/-- Run `p`, and remark on its result. -/
def remarked (p : Prog ε Op Ret α) (n : Except ε α → Note) : Narrated ε Op Ret Note α :=
  (silent p).andThen fun r => .note (n r) (.ret r)

/-- The program itself. -/
def erase : Narrated ε Op Ret Note α → Prog ε Op Ret α
  | .ret r => .ret r
  | .await op k => .await op fun r => (k r).erase
  | .note _ p => p.erase

theorem erase_andThen (p : Narrated ε Op Ret Note α)
    (f : Except ε α → Narrated ε Op Ret Note β) :
    (p.andThen f).erase = p.erase.andThen fun r => (f r).erase := by
  induction p with
  | ret r => rfl
  | await op k ih => simp only [andThen, erase, Prog.await_andThen, ih]
  | note n p ih => simp only [andThen, erase, ih]

theorem erase_bind (p : Narrated ε Op Ret Note α) (f : α → Narrated ε Op Ret Note β) :
    (p >>= f).erase = p.erase >>= fun a => (f a).erase := by
  rw [Prog.bind_def]
  change (p.andThen (onOk f)).erase = _
  rw [erase_andThen]
  congr 1
  funext r
  cases r with
  | ok a => rfl
  | error e => rfl

@[simp] theorem erase_silent (p : Prog ε Op Ret α) :
    (silent p : Narrated ε Op Ret Note α).erase = p := by
  induction p with
  | ret r => rfl
  | await op k ih => simp only [silent, erase, ih]

@[simp] theorem erase_remarked (p : Prog ε Op Ret α) (n : Except ε α → Note) :
    (remarked p n).erase = p := by
  have hret : ∀ q : Prog ε Op Ret α, (q.andThen fun r => .ret r) = q := by
    intro q
    induction q with
    | ret r => rfl
    | await op k ih => simp only [Prog.await_andThen, ih]
  rw [remarked, erase_andThen, erase_silent]
  exact hret p

end Narrated

/-- With these answers the program passes these remarks, and ends with this result. -/
inductive Narrated.Tells :
    Narrated ε Op Ret Note α → List (Step ε Op Ret) → List Note → Except ε α → Prop
  | ret (r : Except ε α) : Tells (.ret r) [] [] r
  | await {op : Op} {k : Except ε (Ret op) → Narrated ε Op Ret Note α} (a : Except ε (Ret op))
      {steps : List (Step ε Op Ret)} {notes : List Note} {r : Except ε α} :
      Tells (k a) steps notes r → Tells (.await op k) (⟨op, a⟩ :: steps) notes r
  | note (n : Note) {p : Narrated ε Op Ret Note α} {steps : List (Step ε Op Ret)}
      {notes : List Note} {r : Except ε α} :
      Tells p steps notes r → Tells (.note n p) steps (n :: notes) r

namespace Narrated

variable {p : Narrated ε Op Ret Note α} {steps : List (Step ε Op Ret)} {notes : List Note}
  {r : Except ε α}

theorem tells_ret {r' : Except ε α} :
    (Narrated.ret r : Narrated ε Op Ret Note α).Tells steps notes r' ↔
      steps = [] ∧ notes = [] ∧ r' = r := by
  constructor
  · intro h
    cases h
    exact ⟨rfl, rfl, rfl⟩
  · rintro ⟨rfl, rfl, rfl⟩
    exact .ret r'

theorem tells_await {op : Op} {k : Except ε (Ret op) → Narrated ε Op Ret Note α} :
    (Narrated.await op k).Tells steps notes r ↔
      ∃ a rest, steps = ⟨op, a⟩ :: rest ∧ (k a).Tells rest notes r := by
  constructor
  · intro h
    cases h with
    | await a h => exact ⟨a, _, rfl, h⟩
  · rintro ⟨a, rest, rfl, h⟩
    exact .await a h

theorem tells_note {n : Note} :
    (Narrated.note n p).Tells steps notes r ↔ ∃ rest, notes = n :: rest ∧ p.Tells steps rest r := by
  constructor
  · intro h
    cases h with
    | note n h => exact ⟨_, rfl, h⟩
  · rintro ⟨rest, rfl, h⟩
    exact .note n h

/-- **Sequencing.**  Answers and remarks split where the first part ends. -/
theorem tells_andThen {f : Except ε α → Narrated ε Op Ret Note β} {r : Except ε β} :
    (p.andThen f).Tells steps notes r ↔
      ∃ first rest said later a, steps = first ++ rest ∧ notes = said ++ later ∧
        p.Tells first said a ∧ (f a).Tells rest later r := by
  constructor
  · intro h
    induction p generalizing steps notes with
    | ret a => exact ⟨[], steps, [], notes, a, rfl, rfl, .ret a, h⟩
    | await op k ih =>
      obtain ⟨a, rest, rfl, hrest⟩ := tells_await.mp h
      obtain ⟨first, rest, said, later, b, rfl, rfl, hk, hf⟩ := ih a hrest
      exact ⟨⟨op, a⟩ :: first, rest, said, later, b, rfl, rfl, .await a hk, hf⟩
    | note n p ih =>
      obtain ⟨others, rfl, hothers⟩ := tells_note.mp h
      obtain ⟨first, rest, said, later, b, rfl, rfl, hp, hf⟩ := ih hothers
      exact ⟨first, rest, n :: said, later, b, rfl, rfl, .note n hp, hf⟩
  · rintro ⟨first, rest, said, later, a, rfl, rfl, hp, hf⟩
    induction hp with
    | ret a => exact hf
    | await b _ ih => exact .await b (ih hf)
    | note n _ ih => exact .note n (ih hf)

theorem tells_bind {f : α → Narrated ε Op Ret Note β} {r : Except ε β} :
    (p >>= f).Tells steps notes r ↔
      (∃ first rest said later a, steps = first ++ rest ∧ notes = said ++ later ∧
          p.Tells first said (.ok a) ∧ (f a).Tells rest later r) ∨
        ∃ e, r = .error e ∧ p.Tells steps notes (.error e) := by
  change (p.andThen (onOk f)).Tells steps notes r ↔ _
  rw [tells_andThen]
  constructor
  · rintro ⟨first, rest, said, later, a, rfl, rfl, hp, hf⟩
    cases a with
    | ok a => exact .inl ⟨first, rest, said, later, a, rfl, rfl, hp, hf⟩
    | error e =>
      obtain ⟨rfl, rfl, rfl⟩ := tells_ret.mp hf
      exact .inr ⟨e, rfl, by simpa using hp⟩
  · rintro (⟨first, rest, said, later, a, rfl, rfl, hp, hf⟩ | ⟨e, rfl, hp⟩)
    · exact ⟨first, rest, said, later, .ok a, rfl, rfl, hp, hf⟩
    · exact ⟨steps, [], notes, [], .error e, by simp, by simp, hp, .ret _⟩

theorem tells_silent {p : Prog ε Op Ret α} :
    (silent p).Tells steps notes r ↔ notes = [] ∧ p.Follows steps r := by
  constructor
  · intro h
    induction p generalizing steps with
    | ret a =>
      obtain ⟨rfl, rfl, rfl⟩ := tells_ret.mp h
      exact ⟨rfl, .ret _⟩
    | await op k ih =>
      obtain ⟨a, rest, rfl, hrest⟩ := tells_await.mp h
      obtain ⟨rfl, hk⟩ := ih a hrest
      exact ⟨rfl, .await a hk⟩
  · rintro ⟨rfl, h⟩
    induction h with
    | ret a => exact .ret a
    | await a _ ih => exact .await a ih

theorem tells_remarked {p : Prog ε Op Ret α} {n : Except ε α → Note} :
    (remarked p n).Tells steps notes r ↔ notes = [n r] ∧ p.Follows steps r := by
  rw [remarked, tells_andThen]
  constructor
  · rintro ⟨first, rest, said, later, a, rfl, rfl, hp, hf⟩
    obtain ⟨rfl, hfollows⟩ := tells_silent.mp hp
    obtain ⟨others, rfl, hend⟩ := tells_note.mp hf
    obtain ⟨rfl, rfl, rfl⟩ := tells_ret.mp hend
    exact ⟨rfl, by simpa using hfollows⟩
  · rintro ⟨rfl, hp⟩
    exact ⟨steps, [], [], [n r], r, by simp, rfl, tells_silent.mpr ⟨rfl, hp⟩, .note _ (.ret r)⟩

/-- The remarks change nothing. -/
theorem Tells.follows (h : p.Tells steps notes r) : p.erase.Follows steps r := by
  induction h with
  | ret r => exact .ret r
  | await a _ ih => exact .await a ih
  | note n _ ih => exact ih

/-- **Every run of the program is told**, and in one way only. -/
theorem existsUnique_tells (h : p.erase.Follows steps r) : ∃! notes, p.Tells steps notes r := by
  induction p generalizing steps with
  | ret a =>
    obtain ⟨rfl, rfl⟩ := Prog.follows_ret.mp h
    refine ⟨[], .ret r, ?_⟩
    intro notes htells
    exact (tells_ret.mp htells).2.1
  | await op k ih =>
    obtain ⟨a, rest, rfl, hk⟩ := Prog.follows_await.mp h
    obtain ⟨notes, htells, honly⟩ := ih a hk
    refine ⟨notes, .await a htells, ?_⟩
    intro others hothers
    obtain ⟨b, rest', heq, hk'⟩ := tells_await.mp hothers
    simp only [List.cons.injEq, Step.mk.injEq, heq_eq_eq, true_and] at heq
    obtain ⟨rfl, rfl⟩ := heq
    exact honly others hk'
  | note n p ih =>
    obtain ⟨notes, htells, honly⟩ := ih h
    refine ⟨n :: notes, .note n htells, ?_⟩
    intro others hothers
    obtain ⟨rest, rfl, hrest⟩ := tells_note.mp hothers
    rw [honly rest hrest]

end Narrated

end Async
