import Mathlib.Logic.Function.Basic

/-!
# Asynchronous programs

A coroutine is a tree: it has either finished, with a value or an exception, or
it awaits an operation and goes on with whatever that operation answers.  The
scheduler may run other coroutines at every `await`, and only there.  Nothing
here fixes what the operations do; that is the business of a machine
(`Async.System`).
-/

namespace Async

/-- A coroutine over the operations `Op`, raising exceptions of type `ε`.  An
awaited operation answers with a value of type `Ret op`, or raises. -/
inductive Prog (ε : Type) (Op : Type) (Ret : Op → Type) (α : Type) : Type where
  | ret (r : Except ε α)
  | await (op : Op) (k : Except ε (Ret op) → Prog ε Op Ret α)

variable {ε Op : Type} {Ret : Op → Type} {α β γ : Type}

namespace Prog

/-- Run `p` to its end and hand its result, normal or exceptional, to `f`.
    Sequencing, `try … except` and context managers are all instances. -/
def andThen (p : Prog ε Op Ret α) (f : Except ε α → Prog ε Op Ret β) : Prog ε Op Ret β :=
  match p with
  | .ret r => f r
  | .await op k => .await op fun r => (k r).andThen f

/-- Await one operation and return its answer. -/
def perform (op : Op) : Prog ε Op Ret (Ret op) := .await op .ret

def throw (e : ε) : Prog ε Op Ret α := .ret (.error e)

/-- What follows a statement: skipped when the statement raised. -/
def onOk (f : α → Prog ε Op Ret β) : Except ε α → Prog ε Op Ret β
  | .ok a => f a
  | .error e => .throw e

/-- What an exception handler does: nothing when nothing was raised. -/
def onError (h : ε → Prog ε Op Ret α) : Except ε α → Prog ε Op Ret α
  | .ok a => .ret (.ok a)
  | .error e => h e

instance : Monad (Prog ε Op Ret) where
  pure a := .ret (.ok a)
  bind p f := p.andThen (onOk f)

/-- `try: p  except … as e: h e`. -/
def handle (p : Prog ε Op Ret α) (h : ε → Prog ε Op Ret α) : Prog ε Op Ret α :=
  p.andThen (onError h)

/-- `try: p  finally: cleanup`: the exception of `cleanup` replaces that of `p`. -/
def finallyDo (p : Prog ε Op Ret α) (cleanup : Prog ε Op Ret Unit) : Prog ε Op Ret α :=
  p.andThen fun r => cleanup.andThen (onOk fun _ => .ret r)

/-- Lift a computation that awaits nothing. -/
def ofExcept (r : Except ε α) : Prog ε Op Ret α := .ret r

/-- `for x in xs: body x`. -/
def forEach : List β → (β → Prog ε Op Ret Unit) → Prog ε Op Ret Unit
  | [], _ => .ret (.ok ())
  | x :: xs, body => (body x).andThen (onOk fun _ => forEach xs body)

theorem bind_def (p : Prog ε Op Ret α) (f : α → Prog ε Op Ret β) :
    (p >>= f) = p.andThen (onOk f) := rfl

@[simp] theorem pure_def (a : α) : (pure a : Prog ε Op Ret α) = .ret (.ok a) := rfl

@[simp] theorem ret_andThen (r : Except ε α) (f : Except ε α → Prog ε Op Ret β) :
    (Prog.ret r).andThen f = f r := rfl

@[simp] theorem await_andThen (op : Op) (k : Except ε (Ret op) → Prog ε Op Ret α)
    (f : Except ε α → Prog ε Op Ret β) :
    (Prog.await op k).andThen f = .await op fun r => (k r).andThen f := rfl

theorem andThen_assoc (p : Prog ε Op Ret α) (f : Except ε α → Prog ε Op Ret β)
    (g : Except ε β → Prog ε Op Ret γ) :
    (p.andThen f).andThen g = p.andThen fun r => (f r).andThen g := by
  induction p with
  | ret r => rfl
  | await op k ih => simp only [await_andThen, ih]

end Prog

end Async
