import DcpuAsm.Text.Blank

/-!
Trivia: white space and comments, in any order and number. A comment runs from its semicolon up to the
next line feed or the end of the text. `skipTrivia` is what is left behind all trivia at the front of
a text. Main statement: `skipTrivia_suffix`, skipping leaves an end of the text.
-/

namespace DcpuAsm

mutual

/-- The text behind the trivia at its front. -/
def skipTrivia : List Char → List Char
  | [] => []
  | c :: cs => if c = ';' then skipComment cs else if isBlank c then skipTrivia cs else c :: cs

/-- The text behind the rest of a comment and the trivia that follows it. -/
def skipComment : List Char → List Char
  | [] => []
  | c :: cs => if c = '\n' then skipTrivia cs else skipComment cs

end

/-- May trivia start with this character? -/
def startsTrivia (c : Char) : Bool := isBlank c || c == ';'

mutual

theorem skipTrivia_suffix : ∀ cs, skipTrivia cs <:+ cs
  | [] => by simp [skipTrivia]
  | c :: cs => by
    rw [skipTrivia]
    split
    · exact (skipComment_suffix cs).trans (List.suffix_cons c cs)
    · split
      · exact (skipTrivia_suffix cs).trans (List.suffix_cons c cs)
      · exact List.suffix_rfl

theorem skipComment_suffix : ∀ cs, skipComment cs <:+ cs
  | [] => by simp [skipComment]
  | c :: cs => by
    rw [skipComment]
    split
    · exact (skipTrivia_suffix cs).trans (List.suffix_cons c cs)
    · exact (skipComment_suffix cs).trans (List.suffix_cons c cs)

end

/-- A comment hides further semicolons, and the line feed behind it is trivia again. -/
example : skipTrivia [' ', ';', 'a', ';', '\n', '\t', 'b'] = ['b'] := by decide

end DcpuAsm
