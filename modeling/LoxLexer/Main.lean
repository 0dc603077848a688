import LoxLexer.CommandLine

namespace LoxLexer.Main

/-- Error numbers may arrive negated, in a word of 32 bits. -/
def errorNumber (code : UInt32) : Nat :=
  if code.toNat < 0x80000000 then code.toNat else 0x100000000 - code.toNat

def systemError : IO.Error → SystemError
  | .alreadyExists _ code text | .invalidArgument _ code text | .permissionDenied _ code text
  | .resourceExhausted _ code text | .inappropriateType _ code text | .noSuchThing _ code text
  | .noFileOrDirectory _ code text | .interrupted _ code text
  | .otherError code text | .resourceBusy code text | .resourceVanished code text
  | .unsupportedOperation code text | .hardwareFault code text | .unsatisfiedConstraints code text
  | .illegalOperation code text | .protocolError code text | .timeExpired code text =>
    .ofCode (errorNumber code) text
  | .unexpectedEof => ⟨"unexpected end of file", 0⟩
  | .userError text => ⟨text, 0⟩

def write? (text : String) : IO (Option SystemError) := do
  let out ← IO.getStdout
  try
    out.putStr text
    out.flush
    return none
  catch e => return some (systemError e)

def readFile (path : String) : IO (Except SystemError (List UInt8)) := do
  try
    return .ok (← IO.FS.readBinFile path).toList
  catch e => return .error (systemError e)

partial def readBytes (input : IO.FS.Stream) (read : Array UInt8) : IO (Array UInt8) := do
  let next ← input.read 1
  match next.toList with
  | [] => return read
  | b :: _ => if b = Line.lineFeed then return read.push b else readBytes input (read.push b)

def readLine : IO (Option (Except SystemError (List UInt8))) := do
  try
    let line ← readBytes (← IO.getStdin) #[]
    return if line.isEmpty then none else some (.ok line.toList)
  catch e => return some (.error (systemError e))

instance : Console IO := ⟨write?, IO.eprint, readLine, readFile⟩

partial def converse : IO Status := do
  match ← CommandLine.round? with
  | some status => return status
  | none => converse

end LoxLexer.Main

def main (arguments : List String) : IO UInt32 := do
  return (← LoxLexer.CommandLine.dispatch LoxLexer.Main.converse arguments).code.toUInt32
