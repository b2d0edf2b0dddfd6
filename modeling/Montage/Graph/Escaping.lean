/-!
# Escaping in filter graphs

In a graph `,` chains filters, `;` separates stages, `:` separates options, `[` and `]` delimit
labels and `'` quotes values. Text goes through two levels of reading: the graph takes what stands
between quotes literally, then the options take a backslash as protecting the next character.
-/

namespace Montage.Graph

/-- The characters protected in captions and overlays (`TEXT_SPECIALS`). -/
def textSpecials : List Char := ['\\', '\'', ':', '[', ']']

/-- The characters protected in titles (`TITLE_SPECIALS`). -/
def titleSpecials : List Char := ['\\', '\'', ':', '[', ']', ',', ';']

/-- Protects every special with a backslash (`escape_with`). A special that follows a backslash is
protected already and kept. -/
def escapeChars (specials : List Char) : List Char → List Char
  | [] => []
  | '\\' :: c :: rest =>
    if c ∈ specials then '\\' :: c :: escapeChars specials rest
    else '\\' :: '\\' :: escapeChars specials (c :: rest)
  | c :: rest =>
    if c = '\\' ∨ c ∈ specials then '\\' :: c :: escapeChars specials rest
    else c :: escapeChars specials rest

/-- The text of a caption or an overlay, protected (`escape_text`). -/
def escapeText (text : String) : String := String.ofList (escapeChars textSpecials text.toList)

/-- The text of a title, protected (`escape_title`). -/
def escapeTitle (text : String) : String := String.ofList (escapeChars titleSpecials text.toList)

/-- A path, protected (`escape_filter_path`): backslashes, quotes and colons. -/
def escapePath (path : String) : String :=
  String.ofList (path.toList.flatMap fun c =>
    if c = '\\' ∨ c = '\'' ∨ c = ':' then ['\\', c] else [c])

/-- What stands for a quote inside quotes (`QUOTE_IN_QUOTES`): the quotes are closed, a backslash
and a quote follow, each protected, and the quotes are opened again. -/
def quoteInQuotes : List Char := ['\'', '\\', '\\', '\\', '\'', '\'']

/-- The inside of a quoted value. A quote with or without a backslash before it becomes
`quoteInQuotes`; other pairs of a backslash and a character are kept. -/
def quoteChars : List Char → List Char
  | [] => []
  | '\\' :: '\'' :: rest => quoteInQuotes ++ quoteChars rest
  | '\\' :: c :: rest => '\\' :: c :: quoteChars rest
  | '\'' :: rest => quoteInQuotes ++ quoteChars rest
  | c :: rest => c :: quoteChars rest

/-- An option value between quotes. -/
def quoted (value : String) : String :=
  String.ofList ('\'' :: quoteChars value.toList ++ ['\''])

end Montage.Graph
