import LoxLexer.Number.Nearest

namespace LoxLexer.Number

inductive ParseError
  | empty
  | invalid
  deriving DecidableEq

def ParseError.message : ParseError → String
  | empty => "cannot parse float from empty string"
  | invalid => "invalid float literal"

def Decimal.scale (d : Decimal) (exponent : Int) : Decimal where
  coefficient := d.coefficient * Nat.pow 10 (exponent - d.places).toNat
  places := (d.places - exponent).toNat

def signed : List Char → Bool × List Char
  | '-' :: rest => (true, rest)
  | '+' :: rest => (false, rest)
  | rest => (false, rest)

def exponent? : List Char → Option Int
  | [] => some 0
  | c :: rest =>
    let (negative, digits) := signed rest
    if c.toLower = 'e' ∧ digits ≠ [] ∧ digits.all Char.isDigit then
      let power : Int := Nat.ofDigitChars 10 digits 0
      some (if negative then -power else power)
    else none

def decimal? (text : List Char) : Option Decimal :=
  let whole := text.takeWhile Char.isDigit
  let (fraction, rest) :=
    match text.dropWhile Char.isDigit with
    | '.' :: after => (after.takeWhile Char.isDigit, after.dropWhile Char.isDigit)
    | rest => ([], rest)
  if whole = [] ∧ fraction = [] then none
  else (exponent? rest).map (Decimal.ofDigits whole fraction).scale

def named? (text : List Char) : Option Binary64 :=
  match String.ofList (text.map Char.toLower) with
  | "inf" | "infinity" => some (.ofBits 0x7FF0000000000000)
  | "nan" => some (.ofBits 0x7FF8000000000000)
  | _ => none

/-- A number in any of its forms, though a literal has no sign, no name and no exponent. -/
def parse (text : List Char) : Except ParseError Binary64 :=
  if text = [] then .error .empty
  else
    let (negative, magnitude) := signed text
    match named? magnitude <|> (decimal? magnitude).map Decimal.round with
    | some value => .ok { value with negative }
    | none => .error .invalid

end LoxLexer.Number
