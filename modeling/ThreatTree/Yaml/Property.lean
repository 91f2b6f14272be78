import ThreatTree.Yaml.Cursor
import ThreatTree.Yaml.Token
import ThreatTree.Decimal.Reading

/-!
# Anchors, tags and directives

The parts of a data file that say something about a node, or about the file, rather than
being content. Each function reads one part at a cursor and gives the place after it.
-/

namespace ThreatTree.Yaml

open Error

/-! ## Anchors -/

/-- A character that may follow the name of an anchor or an alias. -/
def endsName : List Char → Bool
  | [] => true
  | c :: _ => isGap c || ['?', ':', ',', ']', '}', '%', '@', '\x60'].contains c

/-- The name after `&` or `*`. -/
def readName (c : Cursor) : Except Error (List Char × Cursor) :=
  let (name, c) := c.next.takeWhile isNameChar
  if name.isEmpty || !endsName c.rest then throw (malformed "a name was expected")
  else pure (name, c)

/-! ## Tags -/

def isHexDigit (c : Char) : Bool := c.toNat < 0x80 && (Text.digitIn? 16 c).isSome

/-- The number that hexadecimal digits write. -/
def hexValue (s : List Char) : Nat := Decimal.ofDigits 16 (s.filterMap (Text.digitIn? 16))

/-- Escaped bytes, as many as follow each other. The first argument bounds their number. -/
def readEscapedBytes : Nat → Cursor → Except Error (List UInt8 × Cursor)
  | 0, c => pure ([], c)
  | n + 1, c =>
    if c.sees '%' then
      let digits := c.next.rest.take 2
      if digits.length = 2 && digits.all isHexDigit then do
        let (bs, c) ← readEscapedBytes n (c.skip 3)
        return (UInt8.ofNat (hexValue digits) :: bs, c)
      else throw (malformed "two hexadecimal digits were expected")
    else pure ([], c)

/-- A character that stands for itself in the address of a tag. -/
def isAddressChar (c : Char) : Bool :=
  c.isAlphanum || "-;/?:@&=+$,_.!~*'()[]".toList.contains c

/-- The address of a tag; escaped bytes must be text in UTF-8. -/
def readAddressParts : Nat → Cursor → Except Error (List Char × Cursor)
  | 0, c => pure ([], c)
  | n + 1, c =>
    match c.peek with
    | some '%' => do
      let (bs, c) ← readEscapedBytes c.rest.length c
      match String.fromUTF8? ⟨bs.toArray⟩ with
      | none => throw (malformed "the escaped bytes are no text")
      | some s =>
        let (more, c) ← readAddressParts n c
        return (s.toList ++ more, c)
    | some ch =>
      if isAddressChar ch then do
        let (more, c) ← readAddressParts n c.next
        return (ch :: more, c)
      else pure ([], c)
    | none => pure ([], c)

def readAddress (c : Cursor) : Except Error (List Char × Cursor) := do
  let (address, c') ← readAddressParts c.rest.length c
  if c'.index = c.index then throw (malformed "an address was expected")
  return (address, c')

/-- An exclamation mark, perhaps a name and another mark. -/
def readHandle (c : Cursor) : Except Error (List Char × Cursor) :=
  if c.sees '!' then
    if c.next.sees ' ' then pure (['!'], c.next)
    else
      let (name, c') := c.next.takeWhile isNameChar
      if c'.sees '!' then pure ('!' :: name ++ ['!'], c'.next)
      else if name.isEmpty then throw (malformed "a tag handle was expected")
      else throw (malformed "the tag handle is not closed")
  else throw (malformed "a tag handle was expected")

/-- Another exclamation mark comes before the next blank or break. -/
def namesHandle (s : List Char) : Bool :=
  (s.takeWhile fun c => !(c == ' ' || isBreak c)).contains '!'

/-- A tag: an address in angle brackets, a lone exclamation mark, or a handle and a suffix. -/
def readTag (c : Cursor) : Except Error (TagName × Cursor) := do
  let (name, c) ←
    if c.next.sees '<' then do
      let (suffix, c) ← readAddress (c.skip 2)
      if c.sees '>' then pure (⟨none, suffix⟩, c.next)
      else throw (malformed "the tag is not closed")
    else if atGap c.next.rest then pure (⟨none, ['!']⟩, c.next)
    else do
      let (handle, c) ← if namesHandle c.next.rest then readHandle c else pure (['!'], c.next)
      let (suffix, c) ← readAddress c
      pure (⟨some handle, suffix⟩, c)
  if atBlank c.rest then return (name, c) else throw (malformed "the tag runs on")

/-! ## Directives -/

/-- A decimal number without a sign. -/
def readNumber (c : Cursor) : Except Error (Nat × Cursor) :=
  let (digits, c) := c.takeWhile Char.isDigit
  if digits.isEmpty then throw (malformed "a number was expected")
  else match Decimal.nat? 10 digits with
    | some n => pure (n, c)
    | none => throw outOfRange

/-- Blanks and a comment up to the end of the line, and the line end. -/
def readLineRest (c : Cursor) : Except Error Cursor :=
  let c := (c.dropWhile (· == ' ')).dropComment
  if atBreak c.rest then pure c.lineEnd.2 else throw (malformed "the line runs on")

def readVersion (c : Cursor) : Except Error (Directive × Cursor) := do
  let (major, c) ← readNumber (c.dropWhile (· == ' '))
  if !c.sees '.' then throw (malformed "a point was expected")
  let (_, c) ← readNumber c.next
  if atBlank c.rest then return (.version major, c) else throw (malformed "the version runs on")

def readTagDirective (c : Cursor) : Except Error (Directive × Cursor) := do
  let (handle, c) ← readHandle (c.dropWhile (· == ' '))
  if !c.sees ' ' then throw (malformed "a blank was expected")
  let (start, c) ← readAddress (c.dropWhile (· == ' '))
  if atBlank c.rest then return (.tag handle start, c)
  else throw (malformed "the address runs on")

/-- A directive, from its percent sign to the end of its line. -/
def readDirective (c : Cursor) : Except Error (Directive × Cursor) := do
  let (name, c) := c.next.takeWhile isNameChar
  if name.isEmpty || !atBlank c.rest then throw (malformed "a directive was expected")
  let (d, c) ←
    if name = "YAML".toList then readVersion c
    else if name = "TAG".toList then readTagDirective c
    else pure (.other, c.dropWhile fun ch => !isBreak ch)
  return (d, ← readLineRest c)

end ThreatTree.Yaml
