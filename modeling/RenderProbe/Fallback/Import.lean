import RenderProbe.Text.Match

/-!
# Imports by pattern

Where the fallback finds import statements and puts a new one: after the last import, else after a
hash-bang line and the `use` directives at the start.
-/

namespace RenderProbe.Fallback

open Text

/-- An import statement found in a text: the clause before its module and how many characters the
statement takes, trailing semicolon and line comment included. -/
structure ImportMatch where
  clause : List Char
  length : Nat
  deriving DecidableEq, Inhabited

def isQuote (c : Char) : Bool :=
  c == '\'' || c == '"'

def quotedModule? : List Char → Option (List Char)
  | [] => none
  | quote :: rest =>
    let afterName := rest.dropWhile fun c => !isQuote c && c != '\n'
    if !isQuote quote || afterName.length == rest.length then none
    else literal? [quote] afterName

/-- The rest after the blanks, semicolon and line comment that end a statement. Blanks behind the
semicolon are taken only where a comment follows them. -/
def skipStatementEnd (text : List Char) : List Char :=
  let blanked := skipIndent text
  let afterMark := (literal? [';'] blanked).getD blanked
  match literal? ['/', '/'] (skipIndent afterMark) with
  | some comment => comment.dropWhile fun c => c != '\r' && c != '\n'
  | none => afterMark

/-- An import statement at the front of a text. Everything up to the first quote is its clause, over
line breaks too, so an import of several lines is found; one without a module in quotes is not. -/
def importAt? (text : List Char) : Option ImportMatch :=
  match literalThenBoundary? none "import".toList (skipIndent text) with
  | none => none
  | some afterWord => match quotedModule? (afterWord.dropWhile fun c => !isQuote c) with
    | none => none
    | some rest =>
      some ⟨afterWord.takeWhile fun c => !isQuote c,
        text.length - (skipStatementEnd rest).length⟩

/-- The import statements of a text with the offsets they end at. `skip` counts the characters that
still belong to the last one found: no line that starts among them is looked at. -/
def importsFrom (lineStart : Bool) (skip offset : Nat) : List Char → List (List Char × Nat)
  | [] => []
  | c :: rest => match skip with
    | n + 1 => importsFrom false n (offset + 1) rest
    | 0 => match if lineStart then importAt? (c :: rest) else none with
      | some found =>
        (found.clause, offset + found.length)
          :: importsFrom false (found.length - 1) (offset + 1) rest
      | none => importsFrom (c == '\n') 0 (offset + 1) rest

/-- The import statements of a text: their clauses and the offsets they end at. -/
def imports (text : List Char) : List (List Char × Nat) :=
  importsFrom true 0 0 text

/-- A clause that imports types only. The word `type` counts when a blank or a brace follows; a name
that only starts with it is a name. -/
def isTypeClause (clause : List Char) : Bool :=
  "type ".toList.isPrefixOf clause || "type\x7b".toList.isPrefixOf clause

/-- Whether a clause names the wrapper as a value. A word of the clause is enough, so a name that an
alias hides counts as well. -/
def clauseBinds (symbol clause : List Char) : Bool :=
  let trimmed := trimBlanks clause
  !isTypeClause trimmed && containsWord symbol none trimmed

/-! ## Prologue -/

/-- The rest after a hash-bang line that a line feed ends. A text that is nothing but such a line
keeps it, as there is no line to go on with. -/
def skipHashBang (text : List Char) : List Char :=
  match literal? ['#', '!'] text with
  | none => text
  | some line => (literal? ['\n'] (line.dropWhile (· != '\n'))).getD text

/-- The rest after a `use` directive on a line of its own. A directive that the text ends behind is
none, since an import could not go on a line below it. -/
def directive? (text : List Char) : Option (List Char) :=
  match skipIndent text with
  | [] => none
  | quote :: rest =>
    if !isQuote quote then none
    else match literal? "use ".toList rest with
      | none => none
      | some words =>
        let afterWords := words.dropWhile fun c => c.isLower || c == ' '
        if afterWords.length == words.length then none
        else match literal? [quote] afterWords with
          | none => none
          | some closed =>
            let blanked := skipIndent closed
            let afterMark := skipIndent ((literal? [';'] blanked).getD blanked)
            literal? ['\n'] ((literal? ['\r'] afterMark).getD afterMark)

/-- The rest after directives, at most `rounds` of them. -/
def skipDirectives : Nat → List Char → List Char
  | 0, text => text
  | rounds + 1, text => match directive? text with
    | some rest => skipDirectives rounds rest
    | none => text

/-- How many characters the hash-bang line and the directives at the start take. -/
def prologueLength (text : List Char) : Nat :=
  text.length - (skipDirectives text.length (skipHashBang text)).length

/-! ## Placing an import -/

/-- The text with an import of the wrapper, unless a clause names the wrapper already. It goes
behind the last import that was found, and else behind the prologue. -/
def ensureImport (text symbol statement newline : List Char) : List Char :=
  let found := imports text
  if found.any fun (clause, _) => clauseBinds symbol clause then text
  else match found.getLast? with
    | some (_, stop) => text.take stop ++ newline ++ statement ++ text.drop stop
    | none =>
      let offset := prologueLength text
      text.take offset ++ statement ++ newline ++ text.drop offset

end RenderProbe.Fallback
