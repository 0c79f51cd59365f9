import Mathlib.Data.List.Forall2

/-! Programs of several parties that act on a shared state in any order. Calls may be
lost, callers may stop, and a callee may outlive its caller. -/

namespace Interleaving

/-- A program of one party: it returns, throws, performs one atomic operation on
the shared state, calls another party, or runs two programs side by side. -/
inductive Prog (Op : Type → Type) (ε : Type) : Type → Type 1
  | pure {α : Type} (value : α) : Prog Op ε α
  | throw {α : Type} (error : ε) : Prog Op ε α
  | call {α β : Type} (op : Op β) (next : β → Prog Op ε α) : Prog Op ε α
  | rpc {α β : Type} (callee : Prog Op ε β) (next : Except ε β → Prog Op ε α) : Prog Op ε α
  | fork {α β γ : Type} (left : Prog Op ε β) (right : Prog Op ε γ)
      (next : Except ε β → Except ε γ → Prog Op ε α) : Prog Op ε α

/-- The way from a program to the part of it that acts. -/
inductive Side
  | callee | left | right
  deriving DecidableEq, Repr

namespace Prog
variable {Op : Type → Type} {ε α β γ : Type}

/-- The result of a program that has ended. -/
def result : Prog Op ε α → Option (Except ε α)
  | .pure value => some (.ok value)
  | .throw error => some (.error error)
  | _ => none

def bind : Prog Op ε α → (α → Prog Op ε β) → Prog Op ε β
  | .pure value, f => f value
  | .throw error, _ => .throw error
  | .call op next, f => .call op fun answer => (next answer).bind f
  | .rpc callee next, f => .rpc callee fun answer => (next answer).bind f
  | .fork left right next, f => .fork left right fun first second => (next first second).bind f

instance : Monad (Prog Op ε) where
  pure := .pure
  bind := .bind

def ofExcept : Except ε α → Prog Op ε α
  | .ok value => .pure value
  | .error error => .throw error

/-- Run a program and hand over what it threw. -/
def attempt : Prog Op ε α → Prog Op ε (Except ε α)
  | .pure value => .pure (.ok value)
  | .throw error => .pure (.error error)
  | .call op next => .call op fun answer => (next answer).attempt
  | .rpc callee next => .rpc callee fun answer => (next answer).attempt
  | .fork left right next => .fork left right fun first second => (next first second).attempt

def perform (op : Op α) : Prog Op ε α := .call op .pure

/-- Call another party; a failed call throws. -/
def remote (callee : Prog Op ε α) : Prog Op ε α := .rpc callee ofExcept

/-- Call another party up to `attempts + 1` times, each time from the start. -/
def retry (callee : Prog Op ε α) : Nat → Prog Op ε α
  | 0 => remote callee
  | attempts + 1 => .rpc callee fun
    | .ok value => .pure value
    | .error _ => retry callee attempts

/-- A party that nobody waits for any more. -/
def discard (callee : Prog Op ε α) : Prog Op ε Unit := .rpc callee fun _ => .pure ()

/-- Perform every operation of a program by a program of another kind. -/
def handle {Op' : Type → Type} (perform : {β : Type} → Op β → Prog Op' ε β) :
    {α : Type} → Prog Op ε α → Prog Op' ε α
  | _, .pure value => .pure value
  | _, .throw error => .throw error
  | _, .call op next => (perform op).bind fun answer => handle perform (next answer)
  | _, .rpc callee next => .rpc (handle perform callee) fun returned => handle perform (next returned)
  | _, .fork left right next =>
    .fork (handle perform left) (handle perform right) fun one two => handle perform (next one two)

/-- Run all programs side by side and hand over all their results. -/
def forkAll : List (Prog Op ε α) → Prog Op ε (List (Except ε α))
  | [] => .pure []
  | first :: rest => .fork first (forkAll rest) fun
    | result, .ok results => .pure (result :: results)
    | _, .error error => .throw error

end Prog

/-- An operation with the answer it gave. -/
structure Performed (Op : Type → Type) where
  {Answer : Type}
  op : Op Answer
  answer : Answer

section Semantics
variable {Op : Type → Type} {ε χ σ α : Type}
variable (exec : {β : Type} → Op β → χ → σ → Option (β × σ))

/-- One step of a program at the end of `path`: an operation, which may depend on a
choice of the environment, or the return of a call. -/
def Prog.step {α : Type} : Prog Op ε α → List Side → χ → σ → Option (Prog Op ε α × σ × Option (Performed Op))
  | .pure _, _, _, _ => none
  | .throw _, _, _, _ => none
  | .call op next, _, choice, state =>
    (exec op choice state).map fun (answer, after) => (next answer, after, some ⟨op, answer⟩)
  | .rpc callee next, path, choice, state =>
    match callee.result with
    | some returned => some (next returned, state, none)
    | none => (callee.step path choice state).map fun (callee, after, performed) =>
        (.rpc callee next, after, performed)
  | .fork left right next, path, choice, state =>
    match left.result, right.result with
    | some first, some second => some (next first second, state, none)
    | _, _ => match path with
      | .left :: path => (left.step path choice state).map fun (left, after, performed) =>
          (.fork left right next, after, performed)
      | .right :: path => (right.step path choice state).map fun (right, after, performed) =>
          (.fork left right next, after, performed)
      | _ => none

variable {exec}

/-- The operation that a step performed is what made the state. -/
theorem Prog.step_executes {program program' : Prog Op ε α} {path : List Side} {choice : χ} {state state' : σ}
    {performed : Performed Op}
    (run : program.step exec path choice state = some (program', state', some performed)) :
    exec performed.op choice state = some (performed.answer, state') := by
  induction program generalizing path with
  | pure | throw => cases run
  | call op next ih =>
    obtain ⟨⟨answer, after⟩, executed, same⟩ := Option.map_eq_some_iff.mp run
    cases same
    exact executed
  | rpc callee next ihCallee ih =>
    unfold Prog.step at run
    split at run
    · cases run
    · obtain ⟨⟨callee', after, done⟩, executed, same⟩ := Option.map_eq_some_iff.mp run
      cases same
      exact ihCallee executed
  | fork left right next ihLeft ihRight ih =>
    unfold Prog.step at run
    split at run
    · cases run
    split at run
    · obtain ⟨⟨left', after, done⟩, executed, same⟩ := Option.map_eq_some_iff.mp run
      cases same
      exact ihLeft executed
    · obtain ⟨⟨right', after, done⟩, executed, same⟩ := Option.map_eq_some_iff.mp run
      cases same
      exact ihRight executed
    · cases run

/-- A call fails for the caller: the callee goes on alone, or is never heard of again. -/
def Prog.lose {α : Type} : Prog Op ε α → List Side → ε → Option (Prog Op ε α × Prog Op ε Unit)
  | .rpc callee next, path, error =>
    match path with
    | [] => some (next (.error error), callee.discard)
    | .callee :: path => (callee.lose path error).map fun (callee, orphan) => (.rpc callee next, orphan)
    | _ => none
  | .fork left right next, path, error =>
    match path with
    | .left :: path => (left.lose path error).map fun (left, orphan) => (.fork left right next, orphan)
    | .right :: path => (right.lose path error).map fun (right, orphan) => (.fork left right next, orphan)
    | _ => none
  | _, _, _ => none

/-- Parties at work on a shared state. -/
structure Pool (Op : Type → Type) (ε σ : Type) where
  state : σ
  threads : List (Prog Op ε Unit)

/-- What the environment decides: who acts next, and what is lost. -/
inductive Action (Task ε χ : Type)
  | spawn (task : Task)
  | advance (thread : Nat) (path : List Side) (choice : χ)
  | lose (thread : Nat) (path : List Side) (error : ε)
  | stop (thread : Nat)

end Semantics

/-- What parties can do: how operations act on the state, the programs of the tasks a
party may start, and in which states a run admits an operation. -/
structure System (Op : Type → Type) (Task ε χ σ : Type) where
  exec : {β : Type} → Op β → χ → σ → Option (β × σ)
  program : Task → Prog Op ε Unit
  spawns : Task → Bool
  admits : σ → {β : Type} → Op β → Bool

namespace System
variable {Op : Type → Type} {Task ε χ σ : Type} (S : System Op Task ε χ σ)

/-- One action, with the operation it performed. -/
def act (pool : Pool Op ε σ) : Action Task ε χ → Option (Pool Op ε σ × Option (Performed Op))
  | .spawn task =>
    if S.spawns task then some ({ pool with threads := pool.threads ++ [S.program task] }, none) else none
  | .advance thread path choice =>
    match pool.threads[thread]? with
    | none => none
    | some program => (program.step S.exec path choice pool.state).map fun (program, state, performed) =>
        ({ state, threads := pool.threads.set thread program }, performed)
  | .lose thread path error =>
    match pool.threads[thread]? with
    | none => none
    | some program => (program.lose path error).map fun (program, orphan) =>
        ({ pool with threads := pool.threads.set thread program ++ [orphan] }, none)
  | .stop thread => some ({ pool with threads := pool.threads.set thread (.pure ()) }, none)

/-- One action of a run. -/
structure Step (before : Pool Op ε σ) (performed : Option (Performed Op)) (after : Pool Op ε σ) : Prop where
  acts : ∃ action, S.act before action = some (after, performed)
  admits : ∀ step, performed = some step → S.admits before.state step.op = true

inductive Leads (first : Pool Op ε σ) : Pool Op ε σ → Prop
  | start : Leads first first
  | next {before after : Pool Op ε σ} {performed : Option (Performed Op)}
      (path : Leads first before) (step : S.Step before performed after) : Leads first after

/-- The pool after a list of actions, if the run may take each of them. -/
def schedule : List (Action Task ε χ) → Pool Op ε σ → Option (Pool Op ε σ)
  | [], pool => some pool
  | action :: actions, pool =>
    match S.act pool action with
    | none => none
    | some (after, none) => schedule actions after
    | some (after, some performed) =>
      if S.admits pool.state performed.op then schedule actions after else none

variable {S}

theorem Step.executes {before after : Pool Op ε σ} {performed : Performed Op}
    (step : S.Step before (some performed) after) :
    ∃ choice, S.exec performed.op choice before.state = some (performed.answer, after.state) := by
  obtain ⟨⟨action, acts⟩, -⟩ := step
  cases action with
  | spawn task =>
    simp only [act] at acts
    split at acts <;> cases acts
  | advance thread path choice =>
    simp only [act] at acts
    split at acts
    · cases acts
    · obtain ⟨⟨program, state, done⟩, run, same⟩ := Option.map_eq_some_iff.mp acts
      cases same
      exact ⟨choice, Prog.step_executes run⟩
  | lose thread path error =>
    simp only [act] at acts
    split at acts
    · cases acts
    · obtain ⟨⟨program, orphan⟩, -, same⟩ := Option.map_eq_some_iff.mp acts
      cases same
  | stop thread => cases acts

theorem Leads.trans {first middle last : Pool Op ε σ} (head : S.Leads first middle)
    (tail : S.Leads middle last) : S.Leads first last := by
  induction tail with
  | start => exact head
  | next _ step ih => exact .next ih step

theorem Leads.of_schedule {actions : List (Action Task ε χ)} {first last : Pool Op ε σ}
    (run : S.schedule actions first = some last) : S.Leads first last := by
  induction actions generalizing first with
  | nil => exact Option.some.inj run ▸ .start
  | cons action actions ih =>
    unfold schedule at run
    split at run
    · cases run
    · rename_i after acts
      exact .trans (.next .start ⟨⟨action, acts⟩, nofun⟩) (ih run)
    · rename_i after performed acts
      split at run
      · rename_i admitted
        refine .trans (.next .start ⟨⟨action, acts⟩, fun step same => ?_⟩) (ih run)
        cases same
        exact admitted
      · cases run

end System

end Interleaving
