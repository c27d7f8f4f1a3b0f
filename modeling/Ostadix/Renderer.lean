import Ostadix.Portable
import Ostadix.OValueCanonical

/-! The texts that the four inline renderers make of values. -/

namespace Ostadix

open Wire

inductive TrustedInlineRenderer where
  | html | markdown | latex | text
  deriving DecidableEq, Repr

/-- What renderers take from elsewhere: floats, quoted texts, and values that are not portable. -/
structure Formatting where
  float : FloatFormat → Bytes → String
  debug : String → String
  other : TrustedInlineRenderer → OValue → String

def numberRepr (formatting : Formatting) : ONumber → String
  | .int v => toString v
  | .rational num den => toString num ++ "/" ++ toString den
  | .decimal _ _ (some special) => special.name
  | .decimal coeff exp10 none => toString coeff ++ "e" ++ toString exp10
  | .binaryFloat format bits => formatting.float format bits
  | .bigFloat _ _ _ (some special) => special.name
  | .bigFloat mantissa exp2 (some precision) none =>
    toString mantissa ++ "p" ++ toString exp2 ++ ":" ++ toString precision
  | .bigFloat mantissa exp2 none none => toString mantissa ++ "p" ++ toString exp2
  | .complex re im => numberRepr formatting re ++ "+" ++ numberRepr formatting im ++ "i"

/-! ## Styles -/

/-- How a renderer writes the parts of a value, each part from the texts of its own parts. -/
structure Style where
  null : String
  text : String → String
  list : List String → String
  field : String → String → String
  fields : List String → String
  entry : String → String → String
  entries : List String → String
  other : OValue → String

def joinWith (separator : String) (texts : List String) : String := separator.intercalate texts

def escapeChar : Char → String
  | '&' => "&amp;"
  | '<' => "&lt;"
  | '>' => "&gt;"
  | '"' => "&quot;"
  | c => c.toString

def htmlEscape (s : String) : String := String.join (s.toList.map escapeChar)

variable (formatting : Formatting)

def htmlStyle : Style where
  null := ""
  text := htmlEscape
  list items := "<ul>" ++ joinWith "" (items.map fun item => "<li>" ++ item ++ "</li>") ++ "</ul>"
  field key value := "<div data-o-key=\"" ++ htmlEscape key ++ "\">" ++ value ++ "</div>"
  fields := joinWith ""
  entry key value := "<div data-o-entry><span>" ++ key ++ "</span>" ++ value ++ "</div>"
  entries := joinWith ""
  other := formatting.other .html

def latexStyle : Style where
  null := ""
  text := id
  list := joinWith ", "
  field key value := key ++ ": " ++ value
  fields := joinWith ", "
  entry key value := key ++ " => " ++ value
  entries := joinWith ", "
  other := formatting.other .latex

def markdownStyle : Style where
  null := ""
  text := id
  list := joinWith "\n"
  field key value := "**" ++ key ++ "**: " ++ value
  fields := joinWith "\n"
  entry key value := key ++ " => " ++ value
  entries := joinWith "\n"
  other := formatting.other .markdown

def spliceStyle : Style where
  null := "null"
  text := id
  list items := "[" ++ joinWith ", " items ++ "]"
  field key value := formatting.debug key ++ ": " ++ value
  fields items := "\x7b" ++ joinWith ", " items ++ "\x7d"
  entry key value := key ++ " => " ++ value
  entries items := "\x7b" ++ joinWith ", " items ++ "\x7d"
  other := formatting.other .text

def TrustedInlineRenderer.style : TrustedInlineRenderer → Style
  | .html => htmlStyle formatting
  | .markdown => markdownStyle formatting
  | .latex => latexStyle formatting
  | .text => spliceStyle formatting

/-! ## Rendering -/

section Render

variable (formatting : Formatting) (style : Style)

def fieldTexts (fields : List (String × String)) : List String :=
  fields.map fun field => style.field field.1 field.2

def entryTexts (entries : List (String × String)) : List String :=
  entries.map fun entry => style.entry entry.1 entry.2

mutual

def render : OValue → String
  | .null => style.null
  | .bool v => style.text (toString v)
  | .number v => style.text (numberRepr formatting v)
  | .text v => style.text v.utf8
  | .char scalar => style.text scalar.toString
  | .list v => style.list (renderItems v)
  -- A hash map is shown in the order of its keys.
  | .map v => style.fields (fieldTexts style (sortBy (fun f => textOrder f.1) (renderFields v)))
  | .object fields => style.fields (fieldTexts style (renderFields fields))
  | .entriesMap entries => style.entries (entryTexts style (renderEntries entries))
  | value => style.other value

def renderItems : List OValue → List String
  | [] => []
  | item :: items => render item :: renderItems items

def renderFields : List (String × OValue) → List (String × String)
  | [] => []
  | (key, value) :: fields => (key, render value) :: renderFields fields

def renderEntries : List (OValue × OValue) → List (String × String)
  | [] => []
  | (key, value) :: entries => (render key, render value) :: renderEntries entries

end

end Render

end Ostadix
