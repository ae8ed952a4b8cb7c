import Linewise.Text.Letter

/-!
# Names

The Unicode properties XID_Start and XID_Continue: which characters may begin a
name, and which may continue one. They are the letters and what follows letters,
but for a few characters.
-/

namespace Linewise

/-- Bounds of the letters that stand for several characters of which not all may continue a name. -/
def compoundRanges : List (Nat × Nat) :=
  [(0x37A, 0x37A), (0x2E2F, 0x2E2F), (0xFC5E, 0xFC63), (0xFDFA, 0xFDFB), (0xFE70, 0xFE70),
    (0xFE72, 0xFE72), (0xFE74, 0xFE74), (0xFE76, 0xFE76), (0xFE78, 0xFE78), (0xFE7A, 0xFE7A),
    (0xFE7C, 0xFE7C), (0xFE7E, 0xFE7E)]

/-- Bounds of the letters that may only continue a name. -/
def continuingRanges : List (Nat × Nat) := [(0xE33, 0xE33), (0xEB3, 0xEB3), (0xFF9E, 0xFF9F)]

/-- Bounds of the characters that may begin a name and are no letters. -/
def startingRanges : List (Nat × Nat) := [(0x1885, 0x1886), (0x2118, 0x2118), (0x212E, 0x212E)]

/-- Bounds of the characters that may only continue a name and are neither letters nor what follows
letters. -/
def insertedRanges : List (Nat × Nat) :=
  [(0xB7, 0xB7), (0x387, 0x387), (0x1369, 0x1371), (0x19DA, 0x19DA), (0x200C, 0x200D),
    (0x30FB, 0x30FB), (0xFF65, 0xFF65)]

/-- Whether `c` has the Unicode property XID_Start. -/
def startsName (c : Char) : Bool :=
  (isLetter c && !inRanges compoundRanges c && !inRanges continuingRanges c) ||
    inRanges startingRanges c

/-- Whether `c` has the Unicode property XID_Continue. -/
def continuesName (c : Char) : Bool :=
  startsName c || isTrailer c || inRanges continuingRanges c || inRanges insertedRanges c

end Linewise
