/-!
Byte offsets in UTF-8 text: `byteLength` measures a text, `takeBytes` cuts it at the last character
boundary that an offset reaches, and `fromByte` is the text from an offset on, empty where the offset
is no boundary (`IsBoundary`). Main statements: the cut never lies past the offset
(`byteLength_takeBytes_le`), and lies at the offset just where that is a boundary (`isBoundary_iff`).
-/

namespace DcpuAsm

/-- The number of bytes a text takes in UTF-8. -/
def byteLength (cs : List Char) : Nat := cs.foldr (fun c n => c.utf8Size + n) 0

/-- The longest front part of a text that takes at most `n` bytes. -/
def takeBytes : Nat → List Char → List Char
  | _, [] => []
  | n, c :: cs => if c.utf8Size ≤ n then c :: takeBytes (n - c.utf8Size) cs else []

/-- The text from byte offset `n` on. It is empty past the end and inside a character. -/
def fromByte (n : Nat) (cs : List Char) : List Char :=
  if byteLength (takeBytes n cs) = n then cs.drop (takeBytes n cs).length else []

@[simp] theorem byteLength_nil : byteLength [] = 0 := rfl

@[simp] theorem byteLength_cons (c : Char) (cs : List Char) :
    byteLength (c :: cs) = c.utf8Size + byteLength cs := rfl

@[simp] theorem byteLength_append (as bs : List Char) :
    byteLength (as ++ bs) = byteLength as + byteLength bs := by
  induction as with
  | nil => simp
  | cons c as ih => simp [ih, Nat.add_assoc]

/-- A text never takes fewer bytes than it has characters. -/
theorem length_le_byteLength (cs : List Char) : cs.length ≤ byteLength cs := by
  induction cs with
  | nil => simp
  | cons c cs ih =>
    have := Char.utf8Size_pos c
    simp only [List.length_cons, byteLength_cons]
    omega

theorem takeBytes_prefix (n : Nat) (cs : List Char) : takeBytes n cs <+: cs := by
  fun_induction takeBytes n cs with
  | case1 => exact List.nil_prefix
  | case2 n c cs _ ih => exact List.cons_prefix_cons.2 ⟨rfl, ih⟩
  | case3 => exact List.nil_prefix

theorem byteLength_takeBytes_le (n : Nat) (cs : List Char) : byteLength (takeBytes n cs) ≤ n := by
  fun_induction takeBytes n cs with
  | case1 => exact Nat.zero_le _
  | case2 n c cs h ih => rw [byteLength_cons]; omega
  | case3 => exact Nat.zero_le _

/-- A cut at the length of the front part gives the front part. -/
theorem takeBytes_byteLength (before rest : List Char) :
    takeBytes (byteLength before) (before ++ rest) = before := by
  induction before with
  | nil =>
    cases rest with
    | nil => rfl
    | cons c rest =>
      have := Char.utf8Size_pos c
      rw [byteLength_nil, List.nil_append, takeBytes, if_neg (by omega)]
  | cons c before ih =>
    rw [byteLength_cons, List.cons_append, takeBytes, if_pos (Nat.le_add_right ..),
      Nat.add_sub_cancel_left, ih]

/-- An offset inside a character finds nothing, and one on a boundary finds the rest. -/
example : fromByte 1 ['é', 'x'] = [] ∧ fromByte 2 ['é', 'x'] = ['x'] := by decide

/-- The text from one byte offset up to another. -/
def bytesBetween (i j : Nat) (cs : List Char) : List Char := takeBytes (j - i) (fromByte i cs)

/-! ### Boundaries -/

/-- No character of the text is cut at the offset. -/
def IsBoundary (cs : List Char) (n : Nat) : Prop :=
  ∃ before rest, cs = before ++ rest ∧ byteLength before = n

/-- The cut at a boundary is no shorter than the offset. -/
theorem isBoundary_iff {cs : List Char} {n : Nat} :
    IsBoundary cs n ↔ byteLength (takeBytes n cs) = n := by
  constructor
  · rintro ⟨before, rest, rfl, rfl⟩
    rw [takeBytes_byteLength]
  · intro hn
    obtain ⟨rest, hrest⟩ := takeBytes_prefix n cs
    exact ⟨_, rest, hrest.symm, hn⟩

instance (cs : List Char) (n : Nat) : Decidable (IsBoundary cs n) :=
  decidable_of_iff _ isBoundary_iff.symm

end DcpuAsm
