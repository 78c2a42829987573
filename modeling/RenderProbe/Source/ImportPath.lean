import RenderProbe.Path

/-!
# Import specifiers

The specifier that imports a helper file from a component file: the walk from the component's
directory to the helper, without the source suffix, starting with `./` or `../`.
-/

namespace RenderProbe.ImportPath

/-- Suffixes a specifier leaves out, the first that fits. -/
def strippedSuffixes : List String :=
  [".tsx", ".ts", ".jsx", ".mjs", ".cjs", ".js"]

/-- The text without its source suffix, whatever the suffix's case. Module loaders try the suffixes
themselves, so a specifier leaves it out. -/
def stripSuffix (text : String) : String :=
  match strippedSuffixes.find? fun suffix =>
      suffix.toList.isSuffixOf (Text.lowercase text).toList with
  | some suffix => String.ofList (text.toList.take (text.length - suffix.length))
  | none => text

/-- A specifier that the module loader reads as a relative path. Without a dot and slash in front it
would name a package. -/
def markRelative (text : String) : String :=
  if "./".toList.isPrefixOf text.toList || "../".toList.isPrefixOf text.toList then text
  else "./" ++ text

/-- The names walked from the component's directory to the helper. Both paths are settled against
the working directory first, so `..` may be written anywhere in them. -/
def walk (workingDirectory target helper : Path) : List String :=
  Path.relativeTo (Path.normalize workingDirectory target).dropLast
    (Path.normalize workingDirectory helper)

/-- The specifier that imports `helper` from `target`. -/
def resolve (workingDirectory target helper : Path) : String :=
  let names := walk workingDirectory target helper
  markRelative (stripSuffix (if names.isEmpty then "." else Text.join '/' names))

end RenderProbe.ImportPath
