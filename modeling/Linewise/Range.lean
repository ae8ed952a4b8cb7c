import Linewise.Error

/-!
# Line ranges

A line range is half-open: it holds the lines `start`, …, `stop - 1`. The empty
range at `start` stands before line `start`.
-/

namespace Linewise

/-- The lines from `start` up to, and without, `stop`. -/
structure LineRange where
  /-- First line of the range. -/
  start : Nat
  /-- The line after the last one. -/
  stop : Nat
  /-- A range never starts past its end. -/
  start_le_stop : start ≤ stop := by omega
  deriving DecidableEq, Repr

namespace LineRange

/-- The range between two given bounds, refused if they are in the wrong order. -/
def ofBounds (start stop : Nat) : Except InputError LineRange :=
  if h : start ≤ stop then .ok ⟨start, stop, h⟩ else .error (.invalidRange start stop)

/-- The range from `start` to `stop`, or the empty range at `start` if `stop` lies before it. -/
def span (start stop : Nat) : LineRange := ⟨start, max start stop, Nat.le_max_left ..⟩

/-- The empty range before line `line`. -/
def emptyAt (line : Nat) : LineRange := ⟨line, line, Nat.le_refl _⟩

/-- Number of lines in the range. -/
def size (r : LineRange) : Nat := r.stop - r.start

/-- Whether the range holds no line. -/
def isEmpty (r : LineRange) : Bool := r.start == r.stop

/-- Refuses a range that reaches past a document of `lineCount` lines. -/
def checkBounds (r : LineRange) (lineCount : Nat) : Except InputError Unit :=
  if r.stop ≤ lineCount then .ok () else .error (.outOfBounds r.start r.stop lineCount)

/-- The range `delta` lines further down. -/
def offset (r : LineRange) (delta : Nat) : LineRange :=
  ⟨r.start + delta, r.stop + delta, Nat.add_le_add_right r.start_le_stop _⟩

/-- The range moved by `delta` lines, where a bound that would fall below line 0 stays there. -/
def shift (r : LineRange) (delta : Int) : LineRange :=
  ⟨(r.start + delta).toNat, (r.stop + delta).toNat, by have := r.start_le_stop; omega⟩

/-- The range with both bounds held to at most `limit`. -/
def clamp (r : LineRange) (limit : Nat) : LineRange :=
  ⟨min r.start limit, min r.stop limit, by have := r.start_le_stop; omega⟩

/-- A range is given by its two bounds. -/
theorem eq_of_bounds {r s : LineRange} (hstart : r.start = s.start) (hstop : r.stop = s.stop) :
    r = s := by
  cases r
  cases s
  simp only at hstart hstop
  simp only [hstart, hstop]

/-- A range that ends within the limit is not held back by it. -/
theorem clamp_eq_self {r : LineRange} {limit : Nat} (h : r.stop ≤ limit) : r.clamp limit = r :=
  eq_of_bounds (Nat.min_eq_left (Nat.le_trans r.start_le_stop h)) (Nat.min_eq_left h)

@[simp] theorem span_start (start stop : Nat) : (span start stop).start = start := rfl

/-- Bounds in the right order are kept. -/
theorem span_stop {start stop : Nat} (h : start ≤ stop) : (span start stop).stop = stop :=
  Nat.max_eq_right h

/-- A range is empty exactly when it has no lines. -/
theorem isEmpty_iff_size {r : LineRange} : r.isEmpty = true ↔ r.size = 0 := by
  have := r.start_le_stop
  simp only [isEmpty, size, beq_iff_eq]
  omega

end LineRange

end Linewise
