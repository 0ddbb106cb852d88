/-!
This module contains the escaping of text in HTML. The characters that have a meaning in markup are
replaced one after the other, the ampersand first, so that no replacement touches the result of an
earlier one.
-/

namespace DotFormat.Html

def replaceChar (c : Char) (replacement : String) (text : List Char) : List Char :=
  text.flatMap fun d => if d == c then replacement.toList else [d]

/--
The text with entities for the four special characters.
-/
def escape (text : String) : String :=
  String.ofList
    (replaceChar '"' "&quot;" (replaceChar '>' "&gt;" (replaceChar '<' "&lt;"
      (replaceChar '&' "&amp;" text.toList))))

def entity (c : Char) : List Char :=
  if c == '&' then "&amp;".toList
  else if c == '<' then "&lt;".toList
  else if c == '>' then "&gt;".toList
  else if c == '"' then "&quot;".toList
  else [c]

end DotFormat.Html
