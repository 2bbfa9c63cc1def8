/-!
# Blank characters and letter case

The two foldings that tokens and typed-in values go through before they
are compared: blanks are taken off both ends, and the letters `A` to `Z`
are lowered. A blank is a character with the Unicode property
`White_Space`; the twenty-five of them are listed in `isBlank`. Letter
case is folded for the ASCII letters alone, which is what keywords are
spelled with.
-/

namespace LayerQuery

namespace Text

/-- The characters with the Unicode property `White_Space`. -/
def isBlank (c : Char) : Bool :=
  let n := c.toNat
  (9 ≤ n && n ≤ 13) || n == 0x20 || n == 0x85 || n == 0xA0 || n == 0x1680 ||
    (0x2000 ≤ n && n ≤ 0x200A) || n == 0x2028 || n == 0x2029 || n == 0x202F ||
    n == 0x205F || n == 0x3000

/-- Blanks taken off both ends of a list of characters. -/
def trimChars (cs : List Char) : List Char :=
  ((cs.dropWhile isBlank).reverse.dropWhile isBlank).reverse

/-- Blanks taken off both ends of a text; blanks inside stay. -/
def trim (s : String) : String :=
  String.ofList (trimChars s.toList)

/-- An ASCII capital as its small letter, any other character as it is. -/
def lowerChar (c : Char) : Char :=
  if 'A' ≤ c ∧ c ≤ 'Z' then Char.ofNat (c.toNat + 32) else c

/-- ASCII capitals lowered, all else kept. -/
def lower (s : String) : String :=
  String.ofList (s.toList.map lowerChar)

/-- How keywords are compared: without outer blanks and with ASCII letters lowered. -/
def keyword (s : String) : String :=
  lower (trim s)

/-! ## What the foldings keep -/

@[simp] theorem toList_trim (s : String) : (trim s).toList = trimChars s.toList := by
  simp [trim]

@[simp] theorem toList_lower (s : String) : (lower s).toList = s.toList.map lowerChar := by
  simp [lower]

end Text

end LayerQuery
