/-!
Sets of code points as lists of closed ranges, the form in which character properties are tabulated.
-/

namespace DcpuAsm

/-- Does a code point lie in one of the closed ranges? -/
def inRanges (ranges : List (Nat × Nat)) (n : Nat) : Bool :=
  ranges.any fun (lo, hi) => lo ≤ n && n ≤ hi

/-- Are the ranges in order, none of them empty and with a gap between any two? -/
def ascending : List (Nat × Nat) → Bool
  | [] => true
  | [(lo, hi)] => lo ≤ hi
  | (lo, hi) :: (lo', hi') :: rs => lo ≤ hi && hi + 1 < lo' && ascending ((lo', hi') :: rs)

end DcpuAsm
