import ThreatTree.Value.Basic
import ThreatTree.Text.Printable
import ThreatTree.Text.Surrogate
import ThreatTree.Decimal.Format
import ThreatTree.Decimal.Reading

/-!
# Values in messages

A message that complains about a value shows it. `literal?` quotes texts and spells out
days, moments and byte strings; `text?` gives a text, a day or a moment as it reads. Neither
writes a whole number of more than `Decimal.digitLimit` digits.
-/

namespace ThreatTree.Value

open Calendar

/-! ## Quoted texts -/

/-- Hexadecimal digits, padded with zeros to a width. -/
def hex (width n : Nat) : List Char :=
  let ds := Nat.toDigits 16 n
  List.replicate (width - ds.length) '0' ++ ds

/-- The quote to use: the single one, unless the text has single quotes and no double one. -/
def quoteFor (s : List Char) : Char :=
  if s.contains '\'' && !s.contains '"' then '"' else '\''

/-- A character inside quotes. -/
def escapeChar (quote c : Char) : List Char :=
  if c = quote || c = '\\' then ['\\', c]
  else if c = '\n' then ['\\', 'n']
  else if c = '\r' then ['\\', 'r']
  else if c = '\t' then ['\\', 't']
  else if Text.isPrintable c then [c]
  else if c.toNat < 0x100 then '\\' :: 'x' :: hex 2 c.toNat
  else if c.toNat < 0x10000 then '\\' :: 'u' :: hex 4 c.toNat
  else if Text.isStandIn c then '\\' :: 'u' :: hex 4 (Text.surrogateOf c)
  else '\\' :: 'U' :: hex 8 c.toNat

def quoted (s : String) : String :=
  let q := quoteFor s.toList
  String.ofList (q :: s.toList.flatMap (escapeChar q) ++ [q])

/-- A byte inside quotes: as its character if that is printable, else by its digits. -/
def escapeByte (quote : Char) (b : UInt8) : List Char :=
  if 0x80 ≤ b.toNat then '\\' :: 'x' :: hex 2 b.toNat else escapeChar quote (Char.ofNat b.toNat)

def quotedBytes (bs : List UInt8) : String :=
  let q := quoteFor (bs.map fun b => Char.ofNat b.toNat)
  String.ofList ('b' :: q :: bs.flatMap (escapeByte q) ++ [q])

/-! ## Days and moments -/

/-- A call with its arguments. -/
def call (name : String) (args : List String) : String :=
  name ++ "(" ++ ", ".intercalate args ++ ")"

def dateLiteral (d : Date) : String :=
  call "datetime.date" [toString d.year, toString d.month, toString d.day]

/-- A span of time: days and seconds, the seconds never negative. -/
def offsetLiteral (o : Int) : String :=
  if o = 0 then "datetime.timezone.utc"
  else
    let days := o / 86400
    let seconds := o % 86400
    let parts := (if days = 0 then [] else ["days=" ++ toString days])
      ++ (if seconds = 0 then [] else ["seconds=" ++ toString seconds])
    call "datetime.timezone" [call "datetime.timedelta" parts]

/-- Seconds and microseconds are left out at the end while they are zero. -/
def momentLiteral (m : Moment) : String :=
  let tail :=
    if m.microsecond ≠ 0 then [toString m.second, toString m.microsecond]
    else if m.second ≠ 0 then [toString m.second]
    else []
  call "datetime.datetime"
    ([toString m.date.year, toString m.date.month, toString m.date.day, toString m.hour,
      toString m.minute] ++ tail ++ (m.offset.map fun o => "tzinfo=" ++ offsetLiteral o).toList)

/-! ## Values -/

/-- A whole number, unless it is too long to be written. -/
def intText? (n : Int) : Option String :=
  let text := toString n
  if (toString n.natAbs).length > Decimal.digitLimit then none else some text

mutual

/-- The value as it is spelled in a message; none if it holds a number too long to write. -/
def literal? : Value → Option String
  | .null => some "None"
  | .bool b => some (if b then "True" else "False")
  | .int n => intText? n
  | .float x => some (Decimal.Format.plain.write x)
  | .str s => some (quoted s)
  | .bytes bs => some (quotedBytes bs)
  | .date d => some (dateLiteral d)
  | .moment m => some (momentLiteral m)
  | .list items => (literals? items).map fun ts => "[" ++ ", ".intercalate ts ++ "]"
  | .tuple items => (literals? items).map fun ts => match ts with
    | [t] => "(" ++ t ++ ",)"
    | ts => "(" ++ ", ".intercalate ts ++ ")"
  | .set items => (literals? items).map fun ts =>
    if ts.isEmpty then "set()" else "\x7b" ++ ", ".intercalate ts ++ "\x7d"
  | .mapping entries => (entryLiterals? entries).map fun ts =>
    "\x7b" ++ ", ".intercalate ts ++ "\x7d"

def literals? : List Value → Option (List String)
  | [] => some []
  | v :: vs => do
    let t ← literal? v
    let ts ← literals? vs
    return t :: ts

def entryLiterals? : List (Value × Value) → Option (List String)
  | [] => some []
  | (k, v) :: rest => do
    let key ← literal? k
    let value ← literal? v
    let ts ← entryLiterals? rest
    return (key ++ ": " ++ value) :: ts

end

/-- The value as it reads: a text, a day and a moment stand for themselves. -/
def text? : Value → Option String
  | .str s => some s
  | .date d => some d.text
  | .moment m => some m.text
  | v => literal? v

end ThreatTree.Value
