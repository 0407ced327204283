import UnitLink.Source.Common
/-! Sources that keep to a store of their own. The part of the store that they have in common
with other sources and with the loader is there, and they never look at it; so sources in
memory can be linked with a loader that remembers what it was asked. -/
namespace UnitLink

structure Beside (σ τ : Type) where
  own : σ
  common : τ
  deriving DecidableEq, Repr

namespace Beside

variable {σ τ α : Type}

instance : CommonStore (Beside σ τ) τ := ⟨Beside.common, fun common s => { s with common }⟩

/-- Does something with the own store. -/
def onOwn (act : σ → α × σ) (s : Beside σ τ) : α × Beside σ τ :=
  ((act s.own).1, { s with own := (act s.own).2 })

def backend (b : Backend σ) : Backend (Beside σ τ) where
  openInput := onOwn b.openInput
  createOutput := onOwn b.createOutput
  write bytes := onOwn (b.write bytes)
  flush := onOwn b.flush
  finalize produced := onOwn (b.finalize produced)
  cleanup s := { s with own := b.cleanup s.own }

end Beside

variable {σ τ : Type}

/-- The source with what is common put beside its store. -/
def Source.beside (s : Source σ) (common : τ) : Source (Beside σ τ) where
  name := s.name
  backend := Beside.backend s.backend
  store := ⟨s.store, common⟩
  reader := s.reader
  output := s.output
  closed := s.closed
  calls := s.calls

end UnitLink
