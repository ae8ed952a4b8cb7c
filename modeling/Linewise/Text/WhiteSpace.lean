/-!
# The property White_Space

The 25 code points with the Unicode property White_Space. Lines are compared
with the four blanks of `Char.isWhitespace` only; this larger class is what may
surround the name of a policy.
-/

namespace Linewise

/-- Whether `c` has the Unicode property White_Space. -/
def isWhiteSpace (c : Char) : Bool :=
  (0x9 ≤ c.toNat && c.toNat ≤ 0xD) || (0x2000 ≤ c.toNat && c.toNat ≤ 0x200A) ||
    [0x20, 0x85, 0xA0, 0x1680, 0x2028, 0x2029, 0x202F, 0x205F, 0x3000].contains c.toNat

end Linewise
