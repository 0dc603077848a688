import LoxLexer.Line
import LoxLexer.SystemError

/-!
What the command line asks of its host: to write, to complain and to read. The command line is the
same whether a machine answers it or a host that is only described.
-/

namespace LoxLexer

class Console (m : Type → Type) where
  /-- Writes to the output and says what went wrong, if something did. -/
  write : String → m (Option SystemError)
  complain : String → m Unit
  /-- One line of the input with its end, or nothing at the end of the input. -/
  readLine : m (Option (Except SystemError (List UInt8)))
  readFile : String → m (Except SystemError (List UInt8))

/-- A host as it is before a run. An output at fault takes some characters before it fails, and an
input at fault gives some bytes. -/
structure Host where
  file : String → Except SystemError (List UInt8)
  input : List UInt8
  inputFault : Option SystemError := none
  outputFault : Option SystemError
  room : Nat := 0

def Host.lines (host : Host) : List (List UInt8) :=
  match host.inputFault with
  | none => Line.cut host.input
  | some _ => (Line.cut host.input).filter (·.getLast? == some Line.lineFeed)

structure World where
  host : Host
  unread : List (List UInt8)
  room : Nat
  output : String
  errors : String

namespace World

def start (host : Host) : World := ⟨host, host.lines, host.room, "", ""⟩

def refusal? (w : World) (text : String) : Option SystemError :=
  if text.length ≤ w.room then none else w.host.outputFault

def wrote (w : World) (text : String) : World :=
  { w with output := w.output ++ text, room := w.room - text.length }

def filled (w : World) (text : String) : World :=
  { w with output := w.output ++ String.ofList (text.toList.take w.room), room := 0 }

def said (w : World) (text : String) : World := { w with errors := w.errors ++ text }

def line? (w : World) : Option (Except SystemError (List UInt8)) :=
  match w.unread with
  | [] => w.host.inputFault.map .error
  | line :: _ => some (.ok line)

def advanced (w : World) : World := { w with unread := w.unread.tail }

instance : Console (StateM World) where
  write text w :=
    match w.refusal? text with
    | none => (none, w.wrote text)
    | some e => (some e, w.filled text)
  complain text w := ((), w.said text)
  readLine w := (w.line?, w.advanced)
  readFile path w := (w.host.file path, w)

end World

end LoxLexer
