import RenderProbe.Syntax.Parser
import RenderProbe.Syntax.Grammar.Type

/-!
# Markup

Elements and fragments with their attributes and children. The names of an opening and a closing tag
are not compared.
-/

namespace RenderProbe.Syntax

def elementName (g : Grammar) : Parser :=
  seq [leaf .name markupNameLength,
    many g.rounds (seq [firstOf [mark ".", mark ":"], leaf .name markupNameLength])]

/-- An expression between braces; it may be missing or spread. -/
def markupExpression (g : Grammar) : Parser :=
  node .expression (seq [mark "\x7b",
    optional (firstOf [seq [mark "...", g.call (.assignment true true)],
      g.call (.expression true)]),
    mark "\x7d"])

def attributeValue (g : Grammar) : Parser :=
  firstOf [leaf .stringLiteral attributeStringLength, markupExpression g, g.call .element]

def elementAttribute (g : Grammar) : Parser :=
  firstOf [
    markupExpression g,
    node .expression (seq [
      leaf .name markupNameLength, optional (seq [mark ":", leaf .name markupNameLength]),
      optional (seq [mark "=", attributeValue g])])]

def markupChild (g : Grammar) : Parser := fun cursor =>
  match cursor.rest with
  | '{' :: _ => markupExpression g cursor
  | '<' :: '/' :: _ => none
  | '<' :: _ => g.call .element cursor
  | '&' :: _ => rawLeaf .name referenceLength cursor
  | _ => rawLeaf .name markupTextLength cursor

def closingTag (g : Grammar) : Parser :=
  seq [rawLeaf .token (markLength "</"), optional (elementName g), mark ">"]

/-- An element or a fragment. -/
def elementRule (g : Grammar) : Parser :=
  node .markup (seq [
    mark "<",
    optional (seq [elementName g, optional (typeArguments g), many g.rounds (elementAttribute g)]),
    firstOf [
      mark "/>",
      seq [mark ">", many g.rounds (markupChild g), closingTag g]]])

end RenderProbe.Syntax
