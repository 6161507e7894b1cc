/-
CalcJournal.Store.Repository — asking a store that may be out of order.

A command is one thing that can be asked of a store. A repository either works, and
then it is a store, or fails every command with the same error. A plan is what is
done with a repository: it answers at once, or asks one command and answers by the
reply. Whatever answers at once is settled without the repository.
-/
import CalcJournal.Store.Basic

namespace CalcJournal

/-! ## Commands -/

/-- One thing that can be asked of a store. -/
inductive Command where
  | list
  | find (id : CalculationId)
  | search (text : String)
  | create (draft : Draft)
  | update (calculation : Calculation)
  | delete (id : CalculationId)
  deriving DecidableEq

/-- What a command yields when it succeeds. -/
def Command.Answer : Command → Type
  | .list | .search _ => List Calculation
  | .find _ => Option Calculation
  | .create _ | .update _ => Calculation
  | .delete _ => Unit

/-- The reply to a command. -/
abbrev Command.Reply (c : Command) : Type := Except StoreError c.Answer

/-- Carries out a command. -/
def Store.perform (s : Store) : (c : Command) → c.Reply × Store
  | .list => (s.list, s)
  | .find id => (s.find id, s)
  | .search text => (s.search text, s)
  | .create draft => s.create draft
  | .update calculation => s.update calculation
  | .delete id => s.delete id

/-! ## Repositories -/

/-- A store, or something in its place that fails every command. -/
inductive Repository where
  | working (store : Store)
  | failing (error : StoreError)

/-- Asks a command. -/
def Repository.perform (r : Repository) (c : Command) : c.Reply × Repository :=
  match r with
  | .working s => ((s.perform c).1, .working (s.perform c).2)
  | .failing e => (.error e, .failing e)

/-! ## Plans -/

/-- What is done with a repository: nothing, or one command. -/
inductive Plan (α : Type) where
  | answer (a : α)
  | ask (c : Command) (next : c.Reply → α)

namespace Plan

variable {α β : Type}

/-- The plan with its answer turned into another. -/
def map (f : α → β) : Plan α → Plan β
  | .answer a => .answer (f a)
  | .ask c next => .ask c fun reply => f (next reply)

/-- Carries out a plan. -/
def run : Plan α → Repository → α × Repository
  | .answer a, r => (a, r)
  | .ask c next, r => (next (r.perform c).1, (r.perform c).2)

/-- Turning the answer does not change what is done. -/
@[simp] theorem run_map (f : α → β) (p : Plan α) (r : Repository) :
    (p.map f).run r = (f (p.run r).1, (p.run r).2) := by
  cases p <;> rfl

end Plan

end CalcJournal
