/-!
# Lines

Every line break a tool writes becomes a line feed, and only line feeds part lines.
-/
namespace Intake.Text

/-- Carriage returns, alone or before a line feed, become line feeds. -/
def unifyBreaks : List Char → List Char
  | [] => []
  | '\r' :: '\n' :: rest => '\n' :: unifyBreaks rest
  | c :: rest => (if c = '\r' then '\n' else c) :: unifyBreaks rest

/-- The lines of a text, each without its line feed. A last line need not be closed; an empty one
after the last line feed is no line. -/
def lines : List Char → List (List Char)
  | [] => []
  | c :: rest =>
    if c = '\n' then [] :: lines rest
    else match lines rest with
      | [] => [[c]]
      | l :: ls => (c :: l) :: ls

theorem carriageReturn_not_mem_unifyBreaks (s : List Char) : '\r' ∉ unifyBreaks s := by
  fun_induction unifyBreaks s with
  | case1 => simp
  | case2 rest ih => simp [ih]
  | case3 c rest _ ih =>
    by_cases h : c = '\r' <;> simp [h, ih]
    exact fun e => h e.symm

end Intake.Text
