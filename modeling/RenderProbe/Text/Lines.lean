/-!
# Lines

A text cut into lines that keep their line breaks. Besides the line feed and the carriage return
(together or alone), the vertical tab, the form feed, the information separators, the next-line
control and the two Unicode separators end a line.

* `flatten_lines`: the lines put together are the text.
-/

namespace RenderProbe.Text

def isLineBreak (c : Char) : Bool :=
  let n := c.toNat
  (10 ≤ n && n ≤ 13) || (28 ≤ n && n ≤ 30) || n == 0x85 || n == 0x2028 || n == 0x2029

/-- The lines of a text, where `line` holds the characters of the first line read so far, last
character first. -/
def linesFrom (line : List Char) : List Char → List (List Char)
  | [] => if line.isEmpty then [] else [line.reverse]
  | '\r' :: '\n' :: rest => ('\n' :: '\r' :: line).reverse :: linesFrom [] rest
  | c :: rest =>
    if isLineBreak c then (c :: line).reverse :: linesFrom [] rest
    else linesFrom (c :: line) rest

/-- The lines of a text, each with its break; the last one may have none. -/
def lines (text : List Char) : List (List Char) :=
  linesFrom [] text

theorem flatten_linesFrom (line text : List Char) :
    (linesFrom line text).flatten = line.reverse ++ text := by
  fun_induction linesFrom line text with
  | case1 line h => simp_all
  | case2 line h => simp
  | case3 line rest ih => simp [ih]
  | case4 line c rest _ hc ih => simp [ih]
  | case5 line c rest _ hc ih => simp [ih]

theorem flatten_lines (text : List Char) : (lines text).flatten = text := by
  simp [lines, flatten_linesFrom]

end RenderProbe.Text
