import Mathlib.Logic.Basic

/-!
# Programs that await

An asynchronous function as a tree: it returns, raises, or awaits one operation and goes on
with the operation's result. `Op` names the operations, `Res` the type of each one's result, `ε`
what the function raises. Between two awaits nothing of the outside is read or written, so the
tree holds exactly the points where other tasks may run, and where the future may be dropped.

The monad is the short-circuiting one: a raise leaves the rest of the function undone, which is
what `?` does in the source language.
-/

namespace Conc

/-- A program over the operations `Op`: a finite tree of awaits. -/
inductive Prog (Op : Type) (Res : Op → Type) (ε α : Type) : Type where
  | ret (a : α)
  | raise (e : ε)
  | await (op : Op) (next : Res op → Prog Op Res ε α)

namespace Prog

variable {Op ε α β γ : Type} {Res : Op → Type}

/-- Sequencing: what follows runs at every leaf that returned. -/
def bind : Prog Op Res ε α → (α → Prog Op Res ε β) → Prog Op Res ε β
  | .ret a, f => f a
  | .raise e, _ => .raise e
  | .await op next, f => .await op fun r => (next r).bind f

instance : Monad (Prog Op Res ε) where
  pure := .ret
  bind := bind

/-- One awaited operation, its result returned. -/
def perform (op : Op) : Prog Op Res ε (Res op) := .await op .ret

@[simp] theorem pure_eq (a : α) : (pure a : Prog Op Res ε α) = .ret a := rfl

@[simp] theorem ret_bind (a : α) (f : α → Prog Op Res ε β) : (Prog.ret a >>= f) = f a := rfl

@[simp] theorem raise_bind (e : ε) (f : α → Prog Op Res ε β) :
    (Prog.raise e >>= f) = .raise e := rfl

@[simp] theorem await_bind (op : Op) (next : Res op → Prog Op Res ε α)
    (f : α → Prog Op Res ε β) :
    (Prog.await op next >>= f) = .await op fun r => next r >>= f := rfl

@[simp] theorem perform_bind (op : Op) (f : Res op → Prog Op Res ε β) :
    (perform op >>= f) = .await op f := rfl

/-- Sequencing is associative. -/
theorem bind_assoc (p : Prog Op Res ε α) (f : α → Prog Op Res ε β) (g : β → Prog Op Res ε γ) :
    ((p >>= f) >>= g) = p >>= fun a => f a >>= g := by
  induction p with
  | ret a => rfl
  | raise e => rfl
  | await op next ih => exact congrArg (Prog.await op) (funext ih)

/-- A program whose error is a result: what `match .. .await` does in the source language. -/
def caught {ε' : Type} : Prog Op Res ε α → Prog Op Res ε' (Except ε α)
  | .ret a => .ret (.ok a)
  | .raise e => .ret (.error e)
  | .await op next => .await op fun r => (next r).caught

/-- A program over operations that are among others. -/
def among {Op' : Type} {Res' : Op' → Type} (f : Op → Op') (back : ∀ op, Res' (f op) → Res op) :
    Prog Op Res ε α → Prog Op' Res' ε α
  | .ret a => .ret a
  | .raise e => .raise e
  | .await op next => .await (f op) fun r => (next (back op r)).among f back

/-- A program has come to its end when no operation of its is left to await. -/
def finished : Prog Op Res ε α → Bool
  | .await _ _ => false
  | _ => true

/-- The result of a finished program. -/
def result? : Prog Op Res ε α → Option (Except ε α)
  | .ret a => some (.ok a)
  | .raise e => some (.error e)
  | .await _ _ => none

@[simp] theorem result?_ret (a : α) : (Prog.ret a : Prog Op Res ε α).result? = some (.ok a) := rfl

@[simp] theorem result?_raise (e : ε) :
    (Prog.raise e : Prog Op Res ε α).result? = some (.error e) := rfl

@[simp] theorem result?_await (op : Op) (next : Res op → Prog Op Res ε α) :
    (Prog.await op next).result? = none := rfl

/-- A program whose result is an error raised it. -/
theorem raised_of_result? {p : Prog Op Res ε α} {e : ε} (h : p.result? = some (.error e)) :
    p = .raise e := by
  cases p with
  | raise f =>
    cases h
    rfl
  | _ => cases h

end Prog

end Conc
