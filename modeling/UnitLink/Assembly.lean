import UnitLink.Reference
/-! Lines of plain assembly that directives stand for. -/
namespace UnitLink

inductive Assembly where
  | classUnit (modifiers : Modifiers) (name : ClassName)
  | superclass (name : ClassName)
  | implements (name : ClassName)
  | field (modifiers : Modifiers) (signature : String) (value : Option String)
  | method (modifiers : Modifiers) (signature : String)
  /-- The declaration of the field that holds an instance of the owner. -/
  | glueField (name : String) (owner : ClassName)
  | loadSelf
  | loadArgument (slot : Nat)
  | swap
  | loadName (name : ClassName)
  /-- Reads the field of `holder` that holds an instance of the owner. -/
  | getGlue (holder : ClassName) (name : String) (owner : ClassName)
  | putGlue (holder : ClassName) (name : String) (owner : ClassName)
  /-- Asks the execution context for the instance of a class. -/
  | getModule (context : ClassName)
  | checkCast (owner : ClassName)
  | invoke (reference : Reference .method)
  | invokeInterface (reference : Reference .method) (count : Nat)
  | readField (reference : Reference .field)
  deriving DecidableEq, Repr

namespace Assembly

/-- Words with single spaces between them; empty ones are left out. -/
def joinWords (words : List String) : String :=
  " ".intercalate (words.filter fun word => word ≠ "")

/-- An interface says so in its keyword and not among its modifiers. -/
def classLine (modifiers : Modifiers) (name : ClassName) : String :=
  joinWords [if modifiers.has .isInterface then ".interface" else ".class",
    (modifiers.without (.single .isInterface)).keywords, name.text]

/-- A field of a class as an operand. -/
def fieldOperand (holder : ClassName) (name : String) (type : ClassName) : String :=
  holder.text ++ "/" ++ name ++ " " ++ type.descriptor

def text : Assembly → String
  | classUnit modifiers name => classLine modifiers name
  | superclass name => ".super " ++ name.text
  | implements name => ".implements " ++ name.text
  | field modifiers signature none => joinWords [".field", modifiers.keywords, signature]
  | field modifiers signature (some value) =>
    joinWords [".field", modifiers.keywords, signature] ++ " = " ++ value
  | method modifiers signature => joinWords [".method", modifiers.keywords, signature]
  | glueField name owner => ".field private " ++ name ++ " " ++ owner.descriptor
  | loadSelf => "aload_0"
  | loadArgument slot => "aload " ++ toString slot
  | swap => "swap"
  | loadName name => "ldc \"" ++ name.text ++ "\""
  | getGlue holder name owner => "getfield " ++ fieldOperand holder name owner
  | putGlue holder name owner => "putfield " ++ fieldOperand holder name owner
  | getModule context =>
    "invokevirtual " ++ context.text ++ "/getModule(Ljava/lang/String;)Ljava/lang/Object;"
  | checkCast owner => "checkcast " ++ owner.text
  | invoke reference => reference.opcode.mnemonic ++ " " ++ reference.text
  | invokeInterface reference count =>
    reference.opcode.mnemonic ++ " " ++ reference.text ++ " " ++ toString count
  | readField reference => reference.opcode.mnemonic ++ " " ++ reference.text

end Assembly
end UnitLink
