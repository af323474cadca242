/-!
# Time and durations

Times are microseconds on the recorder's clock, and a duration is the distance between two of
them. Both are signed words of 64 bits in a recorded trace, so a distance that no such word can
hold is replaced by the nearest one that it can hold.

The arithmetic is on integers and is capped at the end of each step; `elapsed` and `addCapped`
are the only two places where a cap is applied.
-/

namespace OpTrace

/-- A moment on the recorder's clock, in microseconds. -/
abbrev Time := Int

def longest : Int := 0x7FFFFFFFFFFFFFFF

def shortest : Int := -0x8000000000000000

/-- The value of a record that is nearest to `n`. -/
def cap (n : Int) : Int := max shortest (min longest n)

def elapsed (start finish : Time) : Int := cap (finish - start)

def addCapped (a b : Int) : Int := cap (a + b)

theorem cap_of_nonneg {n : Int} (h : 0 ≤ n) : cap n = min longest n := by
  simp only [cap, shortest, longest]
  omega

theorem cap_nonneg {n : Int} (h : 0 ≤ n) : 0 ≤ cap n := by
  simp only [cap, shortest, longest]
  omega

theorem elapsed_of_le {start finish : Time} (h : start ≤ finish) :
    elapsed start finish = min longest (finish - start) :=
  cap_of_nonneg (Int.sub_nonneg_of_le h)

end OpTrace
