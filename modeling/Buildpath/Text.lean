/-! Texts: cutting at a separator, and white space in the sense of the Unicode
property `White_Space`, which is wider than the ASCII blanks. -/
namespace Buildpath.Text

/-- All stretches between the occurrences of `sep`, the empty ones included. -/
def cut (sep : Char) (text : String) : List String :=
  (text.toList.splitOn sep).map String.ofList

def startsWith (c : Char) (text : String) : Bool := text.toList.head? == some c

def endsWith (c : Char) (text : String) : Bool := text.toList.getLast? == some c

def isBlank (c : Char) : Bool :=
  let n := c.toNat
  (9 ≤ n && n ≤ 13) || n == 0x20 || n == 0x85 || n == 0xA0 || n == 0x1680 ||
    (0x2000 ≤ n && n ≤ 0x200A) || n == 0x2028 || n == 0x2029 || n == 0x202F ||
    n == 0x205F || n == 0x3000

/-- No character of the text shows; the empty text is such a text. -/
def allBlank (text : String) : Bool := text.toList.all isBlank

def trimEnd (text : String) : String :=
  String.ofList (text.toList.reverse.dropWhile isBlank).reverse

theorem cut_ne_nil (sep : Char) (text : String) : cut sep text ≠ [] := by
  simp [cut, List.splitOn_ne_nil]

end Buildpath.Text
