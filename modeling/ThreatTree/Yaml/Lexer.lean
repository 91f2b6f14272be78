import ThreatTree.Yaml.Block

/-!
# From text to tokens

The lexer goes through a text and keeps, beside its place, the columns of the open block
collections and the places where a key may have started. Whether a scalar is a key shows only
when a colon follows on the same line, within 1024 characters; the `key` token is then put
in front of it afterwards.

`TokenStream.ofText` gives the tokens of a text. If the text breaks off at a fault, the stream
has the tokens that are certain before the fault, and the fault.
-/

namespace ThreatTree.Yaml

open Error

/-- A token that becomes a key if a colon follows: the number of tokens before it, and its
place. It is required if nothing but a key can stand in its column. -/
structure Candidate where
  position : Nat
  required : Bool
  index : Nat
  line : Nat
  column : Nat
  deriving DecidableEq, Repr

namespace Candidate

/-- The farthest that the colon may be from the start of its key. -/
def reach : Nat := 1024

/-- A colon at this place comes too late. -/
def isStale (k : Candidate) (c : Cursor) : Bool :=
  k.line != c.line || k.index + reach < c.index

end Candidate

/-- The state between two tokens. `indents` are the columns of the open block collections,
innermost first; `outer` has one candidate for each bracket around the place. `tokens` are
the tokens so far, last first. -/
structure Lexer where
  cursor : Cursor
  indents : List Nat
  keyAllowed : Bool
  candidate : Option Candidate
  outer : List (Option Candidate)
  tokens : List Token
  deriving Repr

namespace Lexer

def start (s : List Char) : Lexer := ⟨.start s, [], true, none, [], []⟩

/-- The place is inside brackets. -/
def inFlow (l : Lexer) : Bool := !l.outer.isEmpty

def emit (l : Lexer) (t : Token) : Lexer := { l with tokens := t :: l.tokens }

/-- Emit a token and go to the place after it. -/
def emitAt (l : Lexer) (t : Token) (c : Cursor) : Lexer :=
  { l with tokens := t :: l.tokens, cursor := c }

/-! ## Candidates -/

/-- Give up a candidate, unless it is required. -/
def giveUp : Option Candidate → Except Error Unit
  | some k => if k.required then throw (malformed "a colon was expected") else pure ()
  | none => pure ()

/-- Give up the candidate of this level. -/
def dropCandidate (l : Lexer) : Except Error Lexer := do
  giveUp l.candidate
  return { l with candidate := none }

def refresh (c : Cursor) (k : Option Candidate) : Except Error (Option Candidate) :=
  if k.any (·.isStale c) then do
    giveUp k
    return none
  else pure k

/-- Give up the candidates that a colon can no longer reach. -/
def dropStale (l : Lexer) : Except Error Lexer := do
  let candidate ← refresh l.cursor l.candidate
  let outer ← l.outer.mapM (refresh l.cursor)
  return { l with candidate := candidate, outer := outer }

/-- The next token may be a key. -/
def propose (l : Lexer) : Except Error Lexer :=
  if l.keyAllowed then do
    let l ← l.dropCandidate
    let c := l.cursor
    let required := !l.inFlow && l.indents.head? == some c.column
    return { l with
      candidate := some ⟨l.tokens.length, required, c.index, c.line, c.column⟩ }
  else pure l

/-! ## Indentation -/

/-- End the block collections whose column satisfies `deeper`. Brackets keep them open. -/
def closeBlocks (deeper : Nat → Bool) (l : Lexer) : Lexer :=
  if l.inFlow then l
  else
    { l with
      indents := l.indents.dropWhile deeper
      tokens := List.replicate (l.indents.takeWhile deeper).length .blockEnd ++ l.tokens }

/-- The column is to the right of the innermost block collection. -/
def isDeeper (l : Lexer) (column : Nat) : Bool := l.indents.head?.all (· < column)

/-- Start a block collection here, if the column is to the right of the innermost one. -/
def openBlock (l : Lexer) (t : Token) : Lexer :=
  let column := l.cursor.column
  if l.isDeeper column then { l with indents := column :: l.indents, tokens := t :: l.tokens }
  else l

/-- Put tokens in front of the token with the given number. -/
def insertAt (position : Nat) (new : List Token) (l : Lexer) : Lexer :=
  let after := l.tokens.length - position
  { l with tokens := l.tokens.take after ++ new.reverse ++ l.tokens.drop after }

/-! ## One token -/

/-- Blanks, comments and line ends before the next token. After a line end outside brackets a
key may start. -/
def skipGaps (inFlow : Bool) : Nat → Bool → Cursor → Bool × Cursor
  | 0, allowed, c => (allowed, c)
  | n + 1, allowed, c =>
    let c := (c.dropWhile (· == ' ')).dropComment
    match c.lineEnd? with
    | some (_, c) => skipGaps inFlow n (allowed || !inFlow) c
    | none => (allowed, c)

/-- Go to the next token. A byte order mark may stand at the start of the text. -/
def toToken (l : Lexer) : Lexer :=
  let c := if l.cursor.index == 0 && l.cursor.sees '\ufeff' then l.cursor.next else l.cursor
  let (allowed, c) := skipGaps l.inFlow (c.rest.length + 1) l.keyAllowed c
  { l with keyAllowed := allowed, cursor := c }

/-- Close everything, as before a directive or a document mark. -/
def closeDocument (l : Lexer) : Except Error Lexer := do
  let l ← (l.closeBlocks fun _ => true).dropCandidate
  return { l with keyAllowed := false }

def readEnd (l : Lexer) : Except Error Lexer := do
  let l ← l.closeDocument
  return { l with outer := l.outer.map fun _ => none }.emit .streamEnd

def readMark (t : Token) (l : Lexer) : Except Error Lexer := do
  let l ← l.closeDocument
  return l.emitAt t (l.cursor.skip 3)

def readFlowStart (t : Token) (l : Lexer) : Except Error Lexer := do
  let l ← l.propose
  return { l with
    candidate := none, outer := l.candidate :: l.outer, keyAllowed := true
  }.emitAt t l.cursor.next

def readFlowEnd (t : Token) (l : Lexer) : Except Error Lexer := do
  let l ← l.dropCandidate
  return { l with
    candidate := l.outer.head?.join, outer := l.outer.tail, keyAllowed := false
  }.emitAt t l.cursor.next

def readFlowEntry (l : Lexer) : Except Error Lexer := do
  let l ← l.dropCandidate
  return { l with keyAllowed := true }.emitAt .flowEntry l.cursor.next

def readBlockEntry (l : Lexer) : Except Error Lexer := do
  if !l.inFlow && !l.keyAllowed then throw (malformed "no list item is allowed here")
  let l := if l.inFlow then l else l.openBlock .blockSequenceStart
  let l ← l.dropCandidate
  return { l with keyAllowed := true }.emitAt .blockEntry l.cursor.next

def readKey (l : Lexer) : Except Error Lexer := do
  if !l.inFlow && !l.keyAllowed then throw (malformed "no key is allowed here")
  let l := if l.inFlow then l else l.openBlock .blockMappingStart
  let l ← l.dropCandidate
  return { l with keyAllowed := !l.inFlow }.emitAt .key l.cursor.next

/-- A colon makes the candidate a key; without one it stands for a value whose key is empty. -/
def readValue (l : Lexer) : Except Error Lexer := do
  match l.candidate with
  | some k =>
    let opens := !l.inFlow && l.isDeeper k.column
    let l := if opens then { l with indents := k.column :: l.indents } else l
    let l := l.insertAt k.position (if opens then [.blockMappingStart, .key] else [.key])
    return { l with candidate := none, keyAllowed := false }.emitAt .value l.cursor.next
  | none =>
    if !l.inFlow && !l.keyAllowed then throw (malformed "no value is allowed here")
    let l := if l.inFlow then l else l.openBlock .blockMappingStart
    let l ← l.dropCandidate
    return { l with keyAllowed := !l.inFlow }.emitAt .value l.cursor.next

/-- A token that may be a key, read by `read`. -/
def readProposed (read : Cursor → Except Error (Token × Cursor)) (l : Lexer) :
    Except Error Lexer := do
  let l ← l.propose
  let (t, c) ← read l.cursor
  return { l with keyAllowed := false }.emitAt t c

def readBlockScalar (folded : Bool) (l : Lexer) : Except Error Lexer := do
  let l ← l.dropCandidate
  let (text, c) ← readBlock folded (l.indents.head?.elim 0 (· + 1)) l.cursor
  return { l with keyAllowed := true }.emitAt (.scalar text false) c

def readPlainScalar (l : Lexer) : Except Error Lexer := do
  let l ← l.propose
  let (text, broke, c) := readPlain l.inFlow (l.indents.head?.elim 0 (· + 1)) l.cursor
  return { l with keyAllowed := broke }.emitAt (.scalar text true) c

/-- A plain scalar may start with this character, if it is not followed by a gap in the case
of a hyphen, a question mark or a colon. -/
def startsPlain (inFlow : Bool) (c : Char) (rest : List Char) : Bool :=
  !(isGap c || "-?:,[]\x7b\x7d#&*!|>'\"%@\x60".toList.contains c)
    || (!atGap rest && (c == '-' || (!inFlow && (c == '?' || c == ':'))))

/-- The token at the cursor. -/
def readToken (l : Lexer) : Except Error Lexer :=
  let c := l.cursor
  match c.rest with
  | [] => l.readEnd
  | ch :: rest =>
    if ch == '%' && c.column == 0 then do
      let l ← l.closeDocument
      let (d, c) ← readDirective c
      return l.emitAt (.directive d) c
    else if ch == '-' && c.column == 0 && atDocumentMark c.rest then l.readMark .documentStart
    else if ch == '.' && c.column == 0 && atDocumentMark c.rest then l.readMark .documentEnd
    else if ch == '[' then l.readFlowStart .flowSequenceStart
    else if ch == '\x7b' then l.readFlowStart .flowMappingStart
    else if ch == ']' then l.readFlowEnd .flowSequenceEnd
    else if ch == '\x7d' then l.readFlowEnd .flowMappingEnd
    else if ch == ',' then l.readFlowEntry
    else if ch == '-' && atGap rest then l.readBlockEntry
    else if ch == '?' && (l.inFlow || atGap rest) then l.readKey
    else if ch == ':' && (l.inFlow || atGap rest) then l.readValue
    else if ch == '*' then l.readProposed fun c => do
      let (name, c) ← readName c
      return (.alias name, c)
    else if ch == '&' then l.readProposed fun c => do
      let (name, c) ← readName c
      return (.anchor name, c)
    else if ch == '!' then l.readProposed fun c => do
      let (name, c) ← readTag c
      return (.tag name, c)
    else if ch == '|' && !l.inFlow then l.readBlockScalar false
    else if ch == '>' && !l.inFlow then l.readBlockScalar true
    else if ch == '\'' then l.readProposed fun c => do
      let (text, c) ← readQuoted false c
      return (.scalar text false, c)
    else if ch == '"' then l.readProposed fun c => do
      let (text, c) ← readQuoted true c
      return (.scalar text false, c)
    else if startsPlain l.inFlow ch rest then l.readPlainScalar
    else throw (malformed "a character that starts no token")

/-- Go to the next token and read it. -/
def step (l : Lexer) : Except Error Lexer := do
  let l ← l.toToken.dropStale
  (l.closeBlocks (l.cursor.column < ·)).readToken

/-- The tokens that no colon can change any more: those before the first candidate. -/
def certain (l : Lexer) : List Token :=
  let open? := (l.candidate :: l.outer).filterMap id |>.filter (!·.isStale l.cursor)
  l.tokens.reverse.take ((open?.map (·.position)).foldl min l.tokens.length)

end Lexer

/-- The tokens of a text, and the fault at which it breaks off, if it does. -/
structure TokenStream where
  tokens : List Token
  fault : Option Error
  deriving Repr

namespace TokenStream

/-- Steps up to the end of the text. The first argument bounds their number. -/
def ofLexer : Nat → Lexer → TokenStream
  | 0, l => ⟨l.tokens.reverse, some (malformed "the text does not end")⟩
  | n + 1, l =>
    match l.step with
    | .error e => ⟨l.certain, some e⟩
    | .ok l =>
      if l.tokens.head? = some .streamEnd then ⟨l.tokens.reverse, none⟩ else ofLexer n l

/-- The tokens of a text. Every step but the last uses up a character. -/
def ofText (s : List Char) : TokenStream :=
  if s.all isAllowed then ofLexer (s.length + 2) (.start s)
  else ⟨[], some (malformed "a character that is not allowed")⟩

end TokenStream

end ThreatTree.Yaml
