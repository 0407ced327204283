import UnitLink.Session
import UnitLink.Source.Basic
/-! What the sources of a job have in common. A source's backend works on the source's own
store; where part of that store is common to all sources of a job, as files lie in one
tree, a task fetches that part before it calls the backend and puts it back after. -/
namespace UnitLink

/-- A store of type `σ` has a part of type `τ` in common with other stores. -/
class CommonStore (σ : Type) (τ : outParam Type) where
  common : σ → τ
  withCommon : τ → σ → σ

variable {σ τ α : Type} [CommonStore σ τ]

/-- Does something with a source in one access to the common store. -/
def Source.inTurn (s : Source σ) (act : Source σ → α × Source σ) : Session τ (α × Source σ) :=
  Session.exchange fun common =>
    let (value, s) := act { s with store := CommonStore.withCommon common s.store }
    ((value, s), CommonStore.common s.store)

@[simp] theorem Source.run_inTurn (loader : Loader τ) (s : Source σ)
    (act : Source σ → α × Source σ) (shared : Shared τ) :
    (s.inTurn act).run loader shared =
      let (value, s) := act { s with store := CommonStore.withCommon shared.common s.store }
      ((value, s), { shared with common := CommonStore.common s.store }) := rfl

end UnitLink
