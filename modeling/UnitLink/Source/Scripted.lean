import UnitLink.Source.Common
/-! Sources whose backend keeps nothing that is written and fails the calls that a script
names. -/
namespace UnitLink

/-- A backend's script: the input text, and the message with which a call fails. -/
structure Script where
  input : String
  failing : BackendCall → Option String

namespace Script

def outcome (script : Script) (call : BackendCall) : Except Failure Unit × Script :=
  match script.failing call with
  | some message => (.error (.system (.reported message)), script)
  | none => (.ok (), script)

def backend : Backend Script where
  openInput script :=
    match script.failing .openInput with
    | some message => (.error (.system (.reported message)), script)
    | none => (.ok (.ofString script.input), script)
  createOutput script := script.outcome .createOutput
  write bytes script := script.outcome (.write bytes)
  flush script := script.outcome .flush
  finalize produced script := script.outcome (.finalize produced)
  cleanup script := script

instance : CommonStore Script Unit := ⟨fun _ => (), fun _ script => script⟩

end Script

def Source.scripted (name : String) (script : Script) : Source Script :=
  { name, backend := Script.backend, store := script }

end UnitLink
