import ThreatTree.Record.Checked
import ThreatTree.Text.Lines
import ThreatTree.Value.Basic
import ThreatTree.Decimal.Reading

/-!
# Kinds of fields

How the value of a field is read. A text may also be given as bytes. A whole number may also be
given as a numeral, as a floating-point number without a fraction, or as a truth value. A list
may also be a tuple or a set.
-/

namespace ThreatTree.Record

open Value (Entries)
open Checked

/-! ## Fields of a record -/

/-- A field that must be there. -/
def required {α : Type} (entries : Entries) (name : String) (read : Value → Checked α) :
    Checked α :=
  under (.field name) <| match Entries.get? name entries with
    | none => fail .missing
    | some v => read v

/-- A field with a default. -/
def optional {α : Type} (entries : Entries) (name : String) (default : α)
    (read : Value → Checked α) : Checked α :=
  match Entries.get? name entries with
  | none => valid default
  | some v => under (.field name) (read v)

/-- A record in a mapping. -/
def record {α : Type} (read : Entries → Checked α) : Value → Checked α
  | .mapping entries => read entries
  | _ => fail .notRecord

/-! ## Texts and choices -/

/-- A text, or bytes that are one in UTF-8. -/
def text : Value → Checked String
  | .str s => valid s
  | .bytes bs => (String.fromUTF8? ⟨bs.toArray⟩).elim (fail .notUnicode) valid
  | _ => fail .notText

/-- Null, or what `read` reads. -/
def nullable {α : Type} (read : Value → Checked α) : Value → Checked (Option α)
  | .null => valid none
  | v => some <$> read v

/-- A text that names one of several things; `f` is the fault of any other value. -/
def choice {α : Type} (find : String → Option α) (f : Fault) : Value → Checked α
  | .str s => (find s).elim (fail f) valid
  | _ => fail f

/-! ## Numbers -/

/-- Drop the zeros at the start of a numeral, with underscores between them. A last zero stays, and
so does what stands before a point. -/
def dropZeros : List Char → List Char
  | '0' :: rest =>
    let zeros := rest.takeWhile fun c => c == '0' || c == '_'
    match rest.drop zeros.length with
    | [] => [(zeros.getLast?).getD '0']
    | '.' :: places => (zeros.getLast?).getD '0' :: '.' :: places
    | others => others
  | s => s

/-- A numeral without its sign: underscores between digits do not count, nor do zeros at the start
or after a point. -/
def plainNumeral? (s : List Char) : Option (List Char) :=
  let s := dropZeros s
  let (whole, places) := s.span (· != '.')
  let whole := if places.tail.all (· == '0') then whole else s
  let parts := Text.splitOn '_' whole
  if parts.any List.isEmpty then none else some parts.flatten

/-- A whole number from a numeral. -/
def numeral (s : String) : Checked Int :=
  let (negative, body) := Decimal.splitSign (Decimal.dropMargins s.toList)
  match plainNumeral? body with
  | none => fail .notNumeral
  | some digits =>
    if Decimal.digitLimit < digits.length then fail .tooLarge
    else if digits.all Char.isDigit then
      match Decimal.nat? 10 digits with
      | some n => valid (if negative then -(n : Int) else n)
      | none => fail .notNumeral
    else fail .notNumeral

/-- A floating-point number as a whole number of less than 64 bits. -/
def wholeFloat (x : Float) : Checked Int :=
  match Decimal.classify x with
  | .finite negative b =>
    let scale := Nat.pow 2 (-b.exponent).toNat
    if b.mantissa % scale = 0 then
      let n : Nat := b.mantissa * Nat.pow 2 b.exponent.toNat / scale
      if n < 0x8000000000000000 then valid (if negative then -(n : Int) else n)
      else fail .tooLarge
    else fail .notWhole
  | _ => fail .notFinite

def int : Value → Checked Int
  | .int n => valid n
  | .bool b => valid (if b then 1 else 0)
  | .float x => wholeFloat x
  | .str s => numeral s
  | _ => fail .notInt

/-- A whole number that is not negative. -/
def nat (v : Value) : Checked Nat :=
  match int v with
  | .valid n => if n < 0 then fail .negative else valid n.toNat
  | .invalid ps => .invalid ps

/-! ## Lists -/

/-- Read all items, each under its place. -/
def items {α : Type} (read : Value → Checked α) : Nat → List Value → Checked (List α)
  | _, [] => valid []
  | i, v :: vs => List.cons <$> under (.item i) (read v) <*> items read (i + 1) vs

def list {α : Type} (read : Value → Checked α) : Value → Checked (List α)
  | .list vs | .tuple vs | .set vs => items read 0 vs
  | _ => fail .notList

/-- A pair of texts. -/
def textPair : Value → Checked (String × String)
  | .list vs | .tuple vs | .set vs =>
    match vs with
    | [] => Prod.mk <$> under (.item 0) (fail .missing) <*> under (.item 1) (fail .missing)
    | [a] => Prod.mk <$> under (.item 0) (text a) <*> under (.item 1) (fail .missing)
    | [a, b] => Prod.mk <$> under (.item 0) (text a) <*> under (.item 1) (text b)
    | _ => fail .tooLong
  | _ => fail .notList

end ThreatTree.Record
