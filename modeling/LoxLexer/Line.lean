namespace LoxLexer.Line

def lineFeed : UInt8 := 10

def carriageReturn : UInt8 := 13

def cut : List UInt8 → List (List UInt8)
  | [] => []
  | b :: rest =>
    if b = lineFeed then [b] :: cut rest
    else
      match cut rest with
      | [] => [[b]]
      | line :: lines => (b :: line) :: lines

/--
The line without its end, which is a line feed with or without a carriage return before it. A
carriage return that nothing follows ends no line and stays.
-/
def content (line : List UInt8) : List UInt8 :=
  if line.getLast? = some lineFeed then
    let body := line.dropLast
    if body.getLast? = some carriageReturn then body.dropLast else body
  else line

def decode? (bytes : List UInt8) : Option String := String.fromUTF8? bytes.toByteArray

end LoxLexer.Line
