/-!
# Blank characters

The blanks that may surround a number's text: the space and the five ASCII
controls that move the position of print, and beyond ASCII every character
with the white-space property.  The ASCII separators from U+001C to U+001F are
no blanks here.
-/

namespace SignedMessaging.Text

/-- Space, tab, line feed, vertical tab, form feed and carriage return. -/
def isAsciiBlank (c : Char) : Bool :=
  c.toNat == 0x20 || (0x09 ≤ c.toNat && c.toNat ≤ 0x0d)

/-- The ASCII blanks and all white space beyond ASCII. -/
def isBlank (c : Char) : Bool :=
  let n := c.toNat
  isAsciiBlank c || n == 0x85 || n == 0xa0 || n == 0x1680 || (0x2000 ≤ n && n ≤ 0x200a) ||
    n == 0x2028 || n == 0x2029 || n == 0x202f || n == 0x205f || n == 0x3000

end SignedMessaging.Text
