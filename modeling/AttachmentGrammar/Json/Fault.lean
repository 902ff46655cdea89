import AttachmentGrammar.Text.Cut
import AttachmentGrammar.Text.Numeral
/-!
Why a JSON text cannot be read, and where. The place is written behind the reason, and is found
there again.
-/
namespace AttachmentGrammar.Json

structure Fault where
  reason : String
  /-- Zero where no place is known. -/
  line : UInt64
  column : UInt64
  deriving DecidableEq, Repr

namespace Fault

def lineMark : String := " at line "

def columnMark : String := " column "

def message (fault : Fault) : String :=
  if fault.line = 0 then fault.reason
  else s!"{fault.reason}{lineMark}{fault.line}{columnMark}{fault.column}"

def readLongWord (s : List Char) : Option UInt64 :=
  ((Text.readDecimal s).filter (· < UInt64.size)).map UInt64.ofNat

/-- A message without a place at its end is all reason. -/
def ofMessage (message : String) : Fault :=
  let found := do
    let (reason, place) ← Text.cutAtLast lineMark.toList message.toList
    let (line, column) ← Text.cutAtLast columnMark.toList place
    return (⟨String.ofList reason, ← readLongWord line, ← readLongWord column⟩ : Fault)
  found.getD ⟨message, 0, 0⟩

end Fault

end AttachmentGrammar.Json
