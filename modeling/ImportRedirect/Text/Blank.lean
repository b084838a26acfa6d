import ImportRedirect.Text.Ranges

/-!
Blank characters, and texts without the blanks around them. The class holds the separators of every
script and the information separators of ASCII, but no zero-width character.
-/

namespace ImportRedirect.Text

def blankRanges : Ranges :=
  [(9, 13), (28, 32), (133, 133), (160, 160), (5760, 5760), (8192, 8202), (8232, 8233), (8239, 8239),
   (8287, 8287), (12288, 12288)]

def isBlank (c : Char) : Bool := blankRanges.holds c

def trimStart (drop : Char → Bool) (text : String) : String :=
  String.ofList (text.toList.dropWhile drop)

def trim (text : String) : String :=
  String.ofList ((text.toList.dropWhile isBlank).reverse.dropWhile isBlank).reverse

end ImportRedirect.Text
