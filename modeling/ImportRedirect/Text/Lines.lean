/-!
Line ends: a text file is read with every line end, whichever way it is written, as one newline.
-/

namespace ImportRedirect.Text

/-- Characters with every carriage return, and a newline right after it, replaced by one newline;
`done` holds the characters before them, last first. -/
def unifyLinesFrom (done : List Char) : List Char → List Char
  | [] => done.reverse
  | '\r' :: '\n' :: rest => unifyLinesFrom ('\n' :: done) rest
  | '\r' :: rest => unifyLinesFrom ('\n' :: done) rest
  | c :: rest => unifyLinesFrom (c :: done) rest

def unifyLines (text : String) : String := String.ofList (unifyLinesFrom [] text.toList)

end ImportRedirect.Text
