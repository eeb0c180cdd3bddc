import Precedence.Text.Unicode.Category

/-!
# Classes of characters

Word characters, white space, decimal digits, printable characters and characters that extend the
one in front of them, each as the Unicode standard defines it. Below 128 every class is decided
without a table (`isWord_ascii`, `isSpace_ascii`, `isDigit_ascii`).
-/

namespace Precedence.Text.Unicode

def isAscii (c : Char) : Bool :=
  c.toNat < 128

def isLetter (c : Char) : Bool :=
  [Category.uppercaseLetter, .lowercaseLetter, .titlecaseLetter, .modifierLetter,
    .otherLetter].any (·.contains c)

def isMark (c : Char) : Bool :=
  [Category.nonspacingMark, .spacingMark, .enclosingMark].any (·.contains c)

/-- Alphabetic characters: letters, letter numbers, marks that count as letters, and circled and
squared letters. All marks are taken to be alphabetic here. -/
def isAlphabeticOrMark (c : Char) : Bool :=
  isLetter c || Category.letterNumber.contains c || isMark c ||
    Runs.contains
      [(0x24b6, 0x24e9, 1), (0x1f130, 0x1f149, 1), (0x1f150, 0x1f169, 1), (0x1f170, 0x1f189, 1)]
      c.toNat

/-- Letters, marks, decimal digits, connecting punctuation and the two joiners. -/
def isWord (c : Char) : Bool :=
  if isAscii c then c.isAlphanum || c == '_'
  else
    isAlphabeticOrMark c || Category.decimalNumber.contains c ||
      Category.connectorPunctuation.contains c || c.toNat == 0x200c || c.toNat == 0x200d

def isSpace (c : Char) : Bool :=
  if isAscii c then c == ' ' || (0x9 ≤ c.toNat && c.toNat ≤ 0xd)
  else
    Runs.contains
      [(0x85, 0x85, 1), (0xa0, 0xa0, 1), (0x1680, 0x1680, 1), (0x2000, 0x200a, 1),
        (0x2028, 0x2029, 1), (0x202f, 0x202f, 1), (0x205f, 0x205f, 1), (0x3000, 0x3000, 1)]
      c.toNat

def isDigit (c : Char) : Bool :=
  if isAscii c then c.isDigit else Category.decimalNumber.contains c

/-- Characters beyond ASCII without a visible form. -/
def isInvisible (c : Char) : Bool :=
  [Category.control, .format, .privateUse, .unassigned, .lineSeparator, .paragraphSeparator,
    .spaceSeparator].any (·.contains c)

/-- Characters with a visible form, and the space. -/
def isPrintable (c : Char) : Bool :=
  if isAscii c then 32 ≤ c.toNat && c.toNat < 127
  else
    !isInvisible c

/-- Spacing marks and other characters that extend a grapheme all the same. -/
def otherGraphemeExtenders : Runs :=
  [(0x9be, 0x9be, 1), (0x9d7, 0x9d7, 1), (0xb3e, 0xb3e, 1), (0xb57, 0xb57, 1), (0xbbe, 0xbbe, 1),
   (0xbd7, 0xbd7, 1), (0xcc0, 0xcc0, 1), (0xcc2, 0xcc2, 1), (0xcc7, 0xcc8, 1), (0xcca, 0xccb, 1),
   (0xcd5, 0xcd6, 1), (0xd3e, 0xd3e, 1), (0xd57, 0xd57, 1), (0xdcf, 0xdcf, 1), (0xddf, 0xddf, 1),
   (0x1715, 0x1715, 1), (0x1734, 0x1734, 1), (0x1b35, 0x1b35, 1), (0x1b3b, 0x1b3b, 1),
   (0x1b3d, 0x1b3d, 1), (0x1b43, 0x1b44, 1), (0x1baa, 0x1baa, 1), (0x1bf2, 0x1bf3, 1),
   (0x200c, 0x200c, 1), (0x302e, 0x302f, 1), (0xa953, 0xa953, 1), (0xa9c0, 0xa9c0, 1),
   (0xff9e, 0xff9f, 1), (0x111c0, 0x111c0, 1), (0x11235, 0x11235, 1), (0x1133e, 0x1133e, 1),
   (0x1134d, 0x1134d, 1), (0x11357, 0x11357, 1), (0x113b8, 0x113b8, 1), (0x113c2, 0x113c2, 1),
   (0x113c5, 0x113c5, 1), (0x113c7, 0x113c9, 1), (0x113cf, 0x113cf, 1), (0x114b0, 0x114b0, 1),
   (0x114bd, 0x114bd, 1), (0x115af, 0x115af, 1), (0x116b6, 0x116b6, 1), (0x11930, 0x11930, 1),
   (0x1193d, 0x1193d, 1), (0x11f41, 0x11f41, 1), (0x16ff0, 0x16ff1, 1), (0x1d165, 0x1d166, 1),
   (0x1d16d, 0x1d172, 1), (0xe0020, 0xe007f, 1)]

/-- Characters that join the one in front of them instead of standing alone. -/
def extendsGrapheme (c : Char) : Bool :=
  !isAscii c &&
    (Category.nonspacingMark.contains c || Category.enclosingMark.contains c ||
      otherGraphemeExtenders.contains c.toNat)

theorem isWord_ascii {c : Char} (h : isAscii c = true) :
    isWord c = (c.isAlphanum || c == '_') := by
  simp [isWord, h]

theorem isSpace_ascii {c : Char} (h : isAscii c = true) :
    isSpace c = (c == ' ' || (0x9 ≤ c.toNat && c.toNat ≤ 0xd)) := by
  simp [isSpace, h]

theorem isDigit_ascii {c : Char} (h : isAscii c = true) : isDigit c = c.isDigit := by
  simp [isDigit, h]

end Precedence.Text.Unicode
