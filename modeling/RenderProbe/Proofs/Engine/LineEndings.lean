import RenderProbe.Engine.Basic
import RenderProbe.Proofs.Fallback.LineStyle
import RenderProbe.Proofs.Wrap.LineStyle

/-!
# Line endings

A wrap ends its lines as the source does. Both strategies put text in and take text out at many
places, and none of them is inside a line break, with one exception: the line that names an
interpreter takes the carriage return of its own line break with it, and the import of the wrapper
may go right behind it.

* `Source.ImportsBehindHashBang`: the exception.
* `Strategy.keeps_of_wrapped`: one statement for both line styles and both strategies.
* `Strategy.transform_keeps_line_endings`: the two styles apart.
* `Strategy.transform_parts_hash_bang_line`: the exception does break a line ending.
-/

namespace RenderProbe

open Text (LineStyle Paired Plain)

/-- The tree rules would import a name right behind the line that names an interpreter. -/
def Source.ImportsBehindHashBang (source : Source) (symbol : String) : Prop :=
  ∃ root ∈ source.tree, Wrap.ImportsBehindHashBang root symbol

instance (source : Source) (symbol : String) : Decidable (source.ImportsBehindHashBang symbol) :=
  inferInstanceAs (Decidable (∃ root ∈ source.tree, Wrap.ImportsBehindHashBang root symbol))

namespace Strategy

section Styles

variable {settings : StrategySettings} {limit : Int} {text fileName name output : String}
  {target : ImportTarget} {strategy : Strategy} {rules : List Wrap.Rule} {style : LineStyle}

/-- The output of a wrap is of the style of its source, whichever strategy wraps. The two share only
what they generate. -/
theorem keeps_of_wrapped (shown : style.Shown text.toList)
    (keepsSymbol : style.Keeps target.symbol.toList)
    (keepsModule : style.Keeps target.module.toList)
    (elsewhere : style = .carriage → strategy = .syntaxTree →
      ¬ (Source.read limit text fileName).ImportsBehindHashBang target.symbol)
    (answer : strategy.transform settings (Source.read limit text fileName) name target =
      .ok (.wrapped output rules)) : style.Keeps output.toList := by
  cases strategy with
  | syntaxTree =>
    unfold Strategy.transform at answer
    dsimp only at answer
    split at answer
    · next root read =>
      have parsed : Syntax.parse (Dialect.ofFileName fileName).markup text = some root := by
        simp only [Source.read] at read
        split at read
        · cases read
        · exact read
      exact Wrap.keeps_transform shown keepsSymbol keepsModule parsed
        (fun isCarriage behind => elsewhere isCarriage rfl ⟨root, read, behind⟩) answer
    · cases answer
  | pattern => exact Fallback.keeps_transform shown keepsSymbol keepsModule (Except.ok.inj answer)

end Styles

/-- A source whose lines all end with a carriage return and a line feed is wrapped into one whose
lines do, unless the tree rules put the import right behind the line that names an interpreter; a
source without carriage returns is wrapped into one without. Neither strategy looks into the
wrapper's name, so line breaks in it have to be of that style as well; an identifier has none. -/
theorem transform_keeps_line_endings (settings : StrategySettings) (limit : Int)
    (text fileName name output : String) (target : ImportTarget) (strategy : Strategy)
    (rules : List Wrap.Rule) (plain : Plain target.module.toList)
    (answer : strategy.transform settings (Source.read limit text fileName) name target =
      .ok (.wrapped output rules)) :
    (Paired text.toList → '\n' ∈ text.toList → Paired target.symbol.toList →
        ¬ (strategy = .syntaxTree
          ∧ (Source.read limit text fileName).ImportsBehindHashBang target.symbol) →
        Paired output.toList)
      ∧ ('\r' ∉ text.toList → '\r' ∉ target.symbol.toList → '\r' ∉ output.toList) := by
  refine ⟨fun paired broken pairedSymbol elsewhere => ?_, fun plainText plainSymbol => ?_⟩
  · have shown : LineStyle.carriage.Shown text.toList := ⟨paired, fun _ => broken⟩
    exact keeps_of_wrapped shown pairedSymbol (LineStyle.keeps_of_plain plain)
      (fun _ byTree behind => elsewhere ⟨byTree, behind⟩) answer
  · have shown : LineStyle.feed.Shown text.toList := ⟨plainText, nofun⟩
    exact keeps_of_wrapped shown plainSymbol (LineStyle.keeps_of_plain plain) nofun answer

/-- A default export behind a directive, with paired line ends. -/
def directedText : String :=
  "'use client';\r\nexport default A\r\n"

/-- What a wrap makes of it. -/
def directedOutput : String :=
  "'use client';\r\nimport \x7b w \x7d from 'm';\r\nexport default w(A, 'A')\r\n"

/-- A directive leads the source, and the import goes behind it. -/
theorem transform_keeps_line_endings_directive :
    Plain "m".toList ∧ Paired directedText.toList ∧ '\n' ∈ directedText.toList
      ∧ ¬ (Source.read Source.defaultLimit directedText "a.tsx").ImportsBehindHashBang "w"
      ∧ syntaxTree.transform {} (Source.read Source.defaultLimit directedText "a.tsx") "A"
        ⟨"w", "m"⟩ = .ok (.wrapped directedOutput [.defaultIdentifier])
      ∧ Paired directedOutput.toList := by
  have plain : Plain "m".toList := by decide
  have paired : Paired directedText.toList := by decide +kernel
  have broken : '\n' ∈ directedText.toList := by decide
  have pairedSymbol : Paired "w".toList := by decide
  have elsewhere :
      ¬ (Source.read Source.defaultLimit directedText "a.tsx").ImportsBehindHashBang "w" := by
    decide +kernel
  have answer :
      syntaxTree.transform {} (Source.read Source.defaultLimit directedText "a.tsx") "A"
        ⟨"w", "m"⟩ = .ok (.wrapped directedOutput [.defaultIdentifier]) := by decide +kernel
  exact ⟨plain, paired, broken, elsewhere, answer,
    (transform_keeps_line_endings {} Source.defaultLimit _ "a.tsx" "A" _ ⟨"w", "m"⟩ .syntaxTree
      _ plain answer).1 paired broken pairedSymbol fun both => elsewhere both.2⟩

/-- A default export behind a hash-bang line, with paired line ends. -/
def interpretedText : String :=
  "#!/usr/bin/env node\r\nexport default A\r\n"

/-- What a wrap makes of it. -/
def interpretedOutput : String :=
  "#!/usr/bin/env node\r\r\nimport \x7b w \x7d from 'm';\nexport default w(A, 'A')\r\n"

/-- Behind the line that names an interpreter the import tears a carriage return from its line
feed. -/
theorem transform_parts_hash_bang_line :
    Plain "m".toList ∧ Paired interpretedText.toList ∧ '\n' ∈ interpretedText.toList
      ∧ syntaxTree.transform {} (Source.read Source.defaultLimit interpretedText "a.tsx") "A"
        ⟨"w", "m"⟩ = .ok (.wrapped interpretedOutput [.defaultIdentifier])
      ∧ ¬ Paired interpretedOutput.toList := by
  decide +kernel

end Strategy

end RenderProbe
