import UnitLink.Source.Common
/-! Sources in memory. What is written is staged, and becomes the output text when the
source is finalized with output. -/
namespace UnitLink

structure MemoryStore where
  input : String
  staged : ByteArray := .empty
  finished : Option String := none

namespace MemoryStore

/-- Takes the staged bytes; they have to be UTF-8 to become the output. -/
def finalize (produced : Bool) (m : MemoryStore) : Except Failure Unit × MemoryStore :=
  if produced then
    match String.fromUTF8? m.staged with
    | some text => (.ok (), { m with staged := .empty, finished := some text })
    | none =>
      (.error (Failure.ofCause (.outputText (Text.utf8Fault m.staged.toList))),
        { m with staged := .empty })
  else (.ok (), m)

def backend : Backend MemoryStore where
  openInput m := (.ok (.ofString m.input), m)
  createOutput m := (.ok (), m)
  write bytes m := (.ok (), { m with staged := m.staged ++ bytes })
  flush m := (.ok (), m)
  finalize := finalize
  cleanup m := { m with staged := .empty }

/-- Sources in memory have nothing in common. -/
instance : CommonStore MemoryStore Unit := ⟨fun _ => (), fun _ m => m⟩

end MemoryStore

namespace Source

def inMemory (name text : String) : Source MemoryStore :=
  { name, backend := MemoryStore.backend, store := { input := text } }

/-- The output text, if the source has been closed with output. -/
def outputText? (s : Source MemoryStore) : Option String := s.store.finished

end Source
end UnitLink
