import DocSearch.Error

/-!
# Outcomes

What a computation against a service leaves behind: how it ended, the calls it made in order, and
the state of the service afterwards. The calls and the state are there also when it failed.
-/

namespace DocSearch

structure Outcome (κ σ α : Type) where
  result : Except Error α
  calls : List κ
  state : σ

/-- A computation that makes calls of kind `κ` on a state `σ`. -/
def Action (κ σ α : Type) := σ → Outcome κ σ α

namespace Action

variable {κ σ α β : Type}

/-- The second part runs where the first one ended well, on the state it left. -/
def bind (action : Action κ σ α) (next : α → Action κ σ β) : Action κ σ β := fun state =>
  match action state with
  | ⟨.error e, calls, state⟩ => ⟨.error e, calls, state⟩
  | ⟨.ok a, calls, state⟩ =>
    let rest := next a state
    ⟨rest.result, calls ++ rest.calls, rest.state⟩

instance : Monad (Action κ σ) where
  pure a := fun state => ⟨.ok a, [], state⟩
  bind := bind

/-- A result that needs no call. -/
def ofExcept (result : Except Error α) : Action κ σ α := fun state => ⟨result, [], state⟩

/-- Do the same for each item in order, until one fails. -/
def each (act : α → Action κ σ β) : List α → Action κ σ (List β)
  | [] => pure []
  | a :: rest => do
    let b ← act a
    let others ← each act rest
    return b :: others

end Action
end DocSearch
