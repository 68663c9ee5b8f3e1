/-!
# Programs

A `Program` is a computation that can stop to ask for an operation and goes on with the reply. It
says nothing about how operations are carried out; `Program.run` carries them out in a monad of the
caller's choice.
-/

namespace ClassHost

/-- A computation of an `α` that asks for operations `Op` with replies `Reply`. -/
inductive Program (Op : Type) (Reply : Op → Type) (α : Type) where
  | done (result : α)
  | ask (op : Op) (next : Reply op → Program Op Reply α)

namespace Program

variable {Op : Type} {Reply : Op → Type} {α β γ : Type}

def bind : Program Op Reply α → (α → Program Op Reply β) → Program Op Reply β
  | done result, f => f result
  | ask op next, f => ask op fun reply => (next reply).bind f

instance : Monad (Program Op Reply) where
  pure := done
  bind := bind

def call (op : Op) : Program Op Reply (Reply op) := ask op done

@[simp] theorem pure_eq (result : α) : (pure result : Program Op Reply α) = done result := rfl

@[simp] theorem done_bind (result : α) (f : α → Program Op Reply β) :
    (done result >>= f) = f result := rfl

@[simp] theorem ask_bind (op : Op) (next : Reply op → Program Op Reply α)
    (f : α → Program Op Reply β) : (ask op next >>= f) = ask op fun reply => next reply >>= f :=
  rfl

theorem bind_done (p : Program Op Reply α) : (p >>= done) = p := by
  induction p with
  | done result => rfl
  | ask op next ih => simp [ih]

theorem bind_bind (p : Program Op Reply α) (f : α → Program Op Reply β)
    (g : β → Program Op Reply γ) : (p >>= f) >>= g = p >>= fun a => f a >>= g := by
  induction p with
  | done result => rfl
  | ask op next ih => simp [ih]

instance : LawfulMonad (Program Op Reply) :=
  LawfulMonad.mk' _ bind_done (fun _ _ => rfl) bind_bind

/-- Carries a program out, one operation at a time. -/
def run {m : Type → Type} [Monad m] (perform : (op : Op) → m (Reply op)) :
    Program Op Reply α → m α
  | done result => pure result
  | ask op next => do
    let reply ← perform op
    (next reply).run perform

end Program

end ClassHost
