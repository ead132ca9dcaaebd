/-!
Lines of a text. A line ends at a line feed, a carriage return (with the line feed that follows
it), the vertical tab, the form feed, the file, group and record separators, next line, and the
line and paragraph separators.
-/

namespace BuildEngine.Text

def isLineEnd (c : Char) : Bool :=
  let n := c.toNat
  (10 ≤ n && n ≤ 13) || (28 ≤ n && n ≤ 30) || n == 0x85 || n == 0x2028 || n == 0x2029

/-- The lines of a text that is read after `line`, which holds the current line backwards. A last
line without an end counts only when it holds something. -/
def linesAux (line : List Char) : List Char → List (List Char)
  | [] => if line.isEmpty then [] else [line.reverse]
  | '\r' :: '\n' :: rest => line.reverse :: linesAux [] rest
  | c :: rest =>
    if isLineEnd c then line.reverse :: linesAux [] rest else linesAux (c :: line) rest

/-- The lines of a text, without their ends. -/
def lines (s : String) : List String :=
  (linesAux [] s.toList).map String.ofList

/-- A text in which every carriage return, with the line feed that follows it, is a line feed. -/
def unifyLineEnds : List Char → List Char
  | [] => []
  | '\r' :: '\n' :: rest => '\n' :: unifyLineEnds rest
  | c :: rest => (if c = '\r' then '\n' else c) :: unifyLineEnds rest

theorem not_mem_unifyLineEnds (cs : List Char) : '\r' ∉ unifyLineEnds cs := by
  fun_induction unifyLineEnds cs with
  | case1 => simp
  | case2 rest ih => simp [ih]
  | case3 c rest _ ih => by_cases isReturn : c = '\r' <;> simp_all [eq_comm]

end BuildEngine.Text
