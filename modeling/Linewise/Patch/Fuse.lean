import Linewise.Patch.Basic

/-!
# Fusing touching fragments

Two fragments touch if the second starts where the first ends on both sides.
Appending with `Patch.push` joins the new fragment to the last one if they
touch, so a patch built this way has no two neighbours that touch.
-/

namespace Linewise.Patch

/-- Appends a fragment, joined to the last one if they touch. -/
def push : Patch → Fragment → Patch
  | [], f => [f]
  | [last], f => if last.touches f then [last.union f] else [last, f]
  | first :: next :: rest, f => first :: push (next :: rest) f

/-- Appends fragments one by one, each joined to the last one if they touch. -/
def fuse (fragments : List Fragment) : Patch := fragments.foldl push []

/-- Fusing a longer list goes on from the fused beginning. -/
theorem fuse_append (fragments more : List Fragment) :
    fuse (fragments ++ more) = more.foldl push (fuse fragments) :=
  List.foldl_append

end Linewise.Patch
