/-!
# Line endings

A file may end its lines with a line feed, a carriage return, or a return followed by a
feed. Reading a file turns each of them into a single line feed.
-/
namespace LoopLang.Text

/-- The text with every line ending written as a line feed. -/
def unifyNewlines : List Char → List Char
  | '\r' :: '\n' :: rest => '\n' :: unifyNewlines rest
  | '\r' :: rest => '\n' :: unifyNewlines rest
  | c :: rest => c :: unifyNewlines rest
  | [] => []

/-- The contents of a text file: UTF-8, lines ended by line feeds. -/
def decodeFile? (bytes : ByteArray) : Option (List Char) :=
  (String.fromUTF8? bytes).map fun text => unifyNewlines text.toList

end LoopLang.Text
