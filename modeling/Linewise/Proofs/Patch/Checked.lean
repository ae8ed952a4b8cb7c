import Mathlib.Data.Nat.PSub
import Linewise.Proofs.Patch.Place

/-!
# Sliding without a number out of range

Subtraction stops at zero and a line that does not exist is simply not found, so a slip
in the bounds of a fragment could go unseen. Here is the pass once more, with each of
these steps checked: a difference below zero, an entry past the end of its array and a
bound moved out of its document all end it without a result. On an aligned patch the
checked pass has a result, the same as the pass itself.
-/

namespace Linewise

/-- The range moved by `delta` lines, if it stays within a document of `lineCount` lines. -/
def LineRange.shift? (lineCount : Nat) (r : LineRange) (delta : Int) : Option LineRange :=
  if 0 ≤ r.start + delta ∧ r.stop + delta ≤ lineCount then some (r.shift delta) else none

namespace Patch

variable {keys : TwoSided (Array Nat)} {lines : TwoSided (Array String)} {i j : Nat} {p : Patch}
  {f : Fragment} {previous next : Option Fragment} {side : Side}

/-! ## The pass with every step checked -/

/-- The room of a block above, where the lines that are compared must exist. -/
def roomAbove? (keys : Array Nat) (lower : Nat) : (start stop : Nat) → Option Nat
  | 0, _ => some 0
  | start + 1, stop =>
    if lower < start + 1 then do
      let lastLine ← stop.psub 1
      if (← keys[start]?) = (← keys[lastLine]?) then
        return (← roomAbove? keys lower start lastLine) + 1
      else return 0
    else some 0

/-- The room of a block below, where the lines that are compared must exist. -/
def roomBelow? (keys : Array Nat) : (limit start stop : Nat) → Option Nat
  | 0, _, _ => some 0
  | limit + 1, start, stop => do
    if (← keys[start]?) = (← keys[stop]?) then
      return (← roomBelow? keys limit (start + 1) (stop + 1)) + 1
    else return 0

/-- Whether the line at `index`, which must exist, is blank. -/
def blankAt? (lines : Array String) (index : Nat) : Option Bool := lines[index]?.map Line.isBlank

/-- Whether the line before `stop`, which must exist, is blank. -/
def blankBefore? (lines : Array String) (stop : Nat) : Option Bool := do
  blankAt? lines (← stop.psub 1)

/-- The preferred first line of a block, where the lines that are looked at must exist. -/
def preferredStart? (lines : Array String) (above below : Option Nat) (up down : Nat)
    (block : LineRange) : Option Nat := do
  let highest ← block.start.psub up
  let size ← block.stop.psub block.start
  let starts := (List.range (up + down + 1)).map (highest + ·)
  if above = some highest then return highest
  if below = some (block.stop + down) then return block.start + down
  match ← starts.findM? fun start => blankBefore? lines (start + size) with
  | some start => return start
  | none => return (← starts.findM? (blankAt? lines)).getD block.start

/-- The fragment moved by `delta` lines, if it stays within both documents. -/
def shift? (keys : TwoSided (Array Nat)) (f : Fragment) (delta : Int) : Option Fragment := do
  return ⟨← f.deleted.shift? keys.left.size delta, ← f.inserted.shift? keys.right.size delta⟩

/-- The fragment at its preferred position. -/
def slide? (keys : TwoSided (Array Nat)) (lines : TwoSided (Array String))
    (previous next : Option Fragment) (f : Fragment) : Option Fragment :=
  match f.pureSide with
  | none => some f
  | some side => do
    let block := f.range side
    let above := previous.map fun p => (p.range side).stop
    let below := next.map fun p => (p.range side).start
    let up ← roomAbove? (keys.get side) (endAbove previous side) block.start block.stop
    let limit ← (startBelow keys next side).psub block.stop
    let down ← roomBelow? (keys.get side) limit block.start block.stop
    let start ← preferredStart? (lines.get side) above below up down block
    shift? keys f (start - block.start)

/-- The fragments at their preferred positions, in order. -/
def slideAll? (keys : TwoSided (Array Nat)) (lines : TwoSided (Array String)) :
    (previous : Option Fragment) → Patch → Option (List Fragment)
  | _, [] => some []
  | previous, f :: rest => do
    let slid ← slide? keys lines previous rest.head? f
    return slid :: (← slideAll? keys lines (some (above previous slid)) rest)

/-- The patch with every fragment at its preferred position, and with those fused that touch. -/
def settle? (keys : TwoSided (Array Nat)) (lines : TwoSided (Array String)) (p : Patch) :
    Option Patch :=
  (slideAll? keys lines none p).map fuse

/-! ## Nothing is out of range -/

/-- The lines above a block that ends within the keys exist, and so do its own. -/
theorem roomAbove?_eq {K : Array Nat} {lower start stop : Nat} (hblock : start ≤ stop)
    (hstop : stop ≤ K.size) :
    roomAbove? K lower start stop = some (roomAbove K lower start stop) := by
  induction start generalizing stop with
  | zero => rfl
  | succ start ih =>
    have hlast : stop.psub 1 = some (stop - 1) := Nat.psub_eq_sub (by omega)
    obtain ⟨above, hstart⟩ : ∃ key, K[start]? = some key :=
      ⟨_, Array.getElem?_eq_getElem (by omega)⟩
    obtain ⟨own, hend⟩ : ∃ key, K[stop - 1]? = some key :=
      ⟨_, Array.getElem?_eq_getElem (by omega)⟩
    have hrest : roomAbove? K lower start (stop - 1) = some (roomAbove K lower start (stop - 1)) :=
      ih (by omega) (by omega)
    simp only [roomAbove?, roomAbove, hlast, hstart, hend, hrest, Option.bind_eq_bind,
      Option.bind_some, Option.some.injEq]
    by_cases hlower : lower < start + 1
    · by_cases hkey : above = own
      · simp only [hlower, hkey, and_self, if_true]
        rfl
      · simp only [hlower, hkey, and_false, if_true, if_false]
        rfl
    · simp only [hlower, false_and, if_false]

/-- The lines below a block exist as far as they are within the keys. -/
theorem roomBelow?_eq {K : Array Nat} {limit start stop : Nat} (hblock : start ≤ stop)
    (hlimit : stop + limit ≤ K.size) :
    roomBelow? K limit start stop = some (roomBelow K limit start stop) := by
  induction limit generalizing start stop with
  | zero => rfl
  | succ limit ih =>
    obtain ⟨own, hfirst⟩ : ∃ key, K[start]? = some key :=
      ⟨_, Array.getElem?_eq_getElem (by omega)⟩
    obtain ⟨below, hnext⟩ : ∃ key, K[stop]? = some key :=
      ⟨_, Array.getElem?_eq_getElem (by omega)⟩
    have hrest : roomBelow? K limit (start + 1) (stop + 1) =
      some (roomBelow K limit (start + 1) (stop + 1)) := ih (by omega) (by omega)
    simp only [roomBelow?, roomBelow, hfirst, hnext, hrest, Option.bind_eq_bind, Option.bind_some,
      Option.some.injEq]
    by_cases hkey : own = below
    · simp only [hkey, if_true]
      rfl
    · simp only [hkey, if_false]
      rfl

/-- A search among entries for each of which the test has a result has one itself. -/
theorem findM?_eq_some {α : Type} {entries : List α} (test? : α → Option Bool) (test : α → Bool)
    (h : ∀ x ∈ entries, test? x = some (test x)) :
    entries.findM? test? = some (entries.find? test) := by
  induction entries with
  | nil => rfl
  | cons x rest ih =>
    rw [List.forall_mem_cons] at h
    rw [List.findM?, List.find?, h.1, Option.bind_eq_bind, Option.bind_some]
    cases test x with
    | true => rfl
    | false => exact ih h.2

/-- A line that exists is blank or not. -/
theorem blankAt?_eq {L : Array String} {index : Nat} (h : index < L.size) :
    blankAt? L index = some (blankAt L index) := by
  rw [blankAt?, blankAt, Array.getElem?_eq_getElem h]
  rfl

/-- The line before the end of lines that exist is blank or not. -/
theorem blankBefore?_eq {L : Array String} {stop : Nat} (hlow : 0 < stop) (hhigh : stop ≤ L.size) :
    blankBefore? L stop = some (blankAt L (stop - 1)) := by
  rw [blankBefore?, Nat.psub_eq_sub hlow, Option.bind_eq_bind, Option.bind_some]
  exact blankAt?_eq (by omega)

/-- The lines that the preferred position of a block depends on exist, if the block has a line and
its room is within the document. -/
theorem preferredStart?_eq {L : Array String} {up down : Nat} {block : LineRange}
    (above below : Option Nat) (hup : up ≤ block.start) (hblock : block.start < block.stop)
    (hdown : block.stop + down ≤ L.size) :
    preferredStart? L above below up down block =
      some (preferredStart L above below up down block) := by
  have hhighest : block.start.psub up = some (block.start - up) := Nat.psub_eq_sub hup
  have hsize : block.stop.psub block.start = some block.size := Nat.psub_eq_sub (by omega)
  have hlines : block.size = block.stop - block.start := rfl
  have hstarts : ∀ start ∈ (List.range (up + down + 1)).map (block.start - up + ·),
      start + block.size ≤ L.size := by
    intro start hstart
    obtain ⟨k, hk, rfl⟩ := List.mem_map.mp hstart
    have := List.mem_range.mp hk
    omega
  have hlast := findM?_eq_some (fun start => blankBefore? L (start + block.size))
    (fun start => blankAt L (start + block.size - 1)) fun start hstart =>
      blankBefore?_eq (by omega) (hstarts start hstart)
  have hfirst := findM?_eq_some (blankAt? L) (blankAt L) fun start hstart =>
    blankAt?_eq (by have := hstarts start hstart; omega)
  simp only [preferredStart?, preferredStart, hhighest, hsize, hlast, hfirst, Option.bind_eq_bind,
    Option.bind_some]
  split
  · rfl
  split
  · rfl
  cases ((List.range (up + down + 1)).map (block.start - up + ·)).find?
      fun start => blankAt L (start + block.size - 1) with
  | some start => rfl
  | none => rfl

/-- A fragment that stays within both documents can be moved. -/
theorem shift?_eq {delta : Int}
    (h : ∀ s, 0 ≤ (f.range s).start + delta ∧ (f.range s).stop + delta ≤ (keys.get s).size) :
    shift? keys f delta = some (f.shift delta) := by
  have hdeleted : f.deleted.shift? keys.left.size delta = some (f.deleted.shift delta) :=
    if_pos (h .left)
  have hinserted : f.inserted.shift? keys.right.size delta = some (f.inserted.shift delta) :=
    if_pos (h .right)
  rw [shift?, hdeleted, hinserted]
  rfl

/-- Sliding a fragment in its place reads no line that does not exist and moves no bound out of its
document. -/
theorem slide?_eq (hlines : ∀ side, (lines.get side).size = (keys.get side).size)
    (h : Placed keys previous next f) :
    slide? keys lines previous next f = some (slide keys lines previous next f) := by
  unfold slide?
  cases hside : f.pureSide with
  | none => rw [slide_eq_self hside]
  | some side =>
    obtain ⟨hblock, -⟩ := Fragment.pureSide_eq_some_iff.mp hside
    obtain ⟨hup, hdown⟩ := room_le keys previous next f side
    have hbelow := (h.below side).le₁
    have hinside := h.inside side
    have hsame := hlines side
    have hbounds := preferredShift_bounds keys lines previous next f side
    have hshift := h.bounds_shift hbounds.1 hbounds.2
    have hroomUp : roomAbove? (keys.get side) (endAbove previous side) (f.range side).start
        (f.range side).stop = some (roomUp keys previous f side) :=
      roomAbove?_eq (by omega) (by omega)
    have hlimit : (startBelow keys next side).psub (f.range side).stop =
        some (startBelow keys next side - (f.range side).stop) := Nat.psub_eq_sub hbelow
    have hroomDown : roomBelow? (keys.get side) (startBelow keys next side - (f.range side).stop)
        (f.range side).start (f.range side).stop = some (roomDown keys next f side) :=
      roomBelow?_eq (by omega) (by omega)
    have hstart := preferredStart?_eq (previous.map fun p => (p.range side).stop)
      (next.map fun p => (p.range side).start)
      (show roomUp keys previous f side ≤ (f.range side).start by omega) hblock
      (show (f.range side).stop + roomDown keys next f side ≤ (lines.get side).size by omega)
    simp only [hroomUp, hlimit, hroomDown, hstart, Option.bind_eq_bind, Option.bind_some]
    rw [slide_eq_shift hside]
    change shift? keys f (preferredShift keys lines previous next f side) = _
    refine shift?_eq fun s => ?_
    have := hshift s
    have := h.inside s
    omega

/-- Sliding all fragments of an aligned patch reads no line that does not exist and moves no bound
out of its document. -/
theorem slideAll?_eq (hlines : ∀ side, (lines.get side).size = (keys.get side).size)
    (h : p.Aligned (Agree keys) i j keys.left.size keys.right.size)
    (hprevious : EndsAt previous i j) :
    slideAll? keys lines previous p = some (slideAll keys lines previous p) := by
  induction p generalizing previous i j with
  | nil => rfl
  | cons f rest ih =>
    have hslid := (slide_slid lines h hprevious).aligned h
    have hrest := ih hslid.2.2 (endsAt_above hslid hprevious)
    rw [slideAll?, slideAll_cons, slide?_eq hlines (h.placed hprevious), Option.bind_eq_bind,
      Option.bind_some, hrest]
    rfl

/-- Settling an aligned patch reads no line that does not exist and moves no bound out of its
document. -/
theorem settle?_eq (hlines : ∀ side, (lines.get side).size = (keys.get side).size)
    (h : p.Aligned (Agree keys) 0 0 keys.left.size keys.right.size) :
    settle? keys lines p = some (settle keys lines p) := by
  rw [settle?, slideAll?_eq hlines h ⟨rfl, rfl⟩]
  rfl

end Patch

end Linewise
