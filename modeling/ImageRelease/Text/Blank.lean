/-!
Blank characters: the code points with the Unicode property White_Space, and trimming by them.
Zero-width and control separators are not among them.
-/
namespace ImageRelease.Text

/-- The Unicode property White_Space. -/
def isBlank (c : Char) : Bool :=
  let n := c.toNat
  (9 ≤ n && n ≤ 13) || n == 0x20 || n == 0x85 || n == 0xA0 || n == 0x1680 ||
    (0x2000 ≤ n && n ≤ 0x200A) || n == 0x2028 || n == 0x2029 || n == 0x202F ||
    n == 0x205F || n == 0x3000

def trimFront (s : List Char) : List Char := s.dropWhile isBlank

def trimChars (s : List Char) : List Char := (trimFront (trimFront s).reverse).reverse

def trim (s : String) : String := String.ofList (trimChars s.toList)

@[simp] theorem toList_trim (s : String) : (trim s).toList = trimChars s.toList := by
  simp [trim]

end ImageRelease.Text
