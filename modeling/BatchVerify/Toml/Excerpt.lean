import BatchVerify.Toml.Node

/-!
# Excerpts

A complaint about a place in a text quotes the line of that place, its number, and carets under
the place as far as it lies on that line.
-/

namespace BatchVerify.Toml

/-- A place as a reader counts it, lines and columns from zero, with the text of its line. -/
structure Excerpt where
  line : Nat
  column : Nat
  content : List Char
  carets : Nat

namespace Excerpt

/-- The number of bytes of a text. -/
def byteLength (text : List Char) : Nat := text.foldr (fun c rest => c.utf8Size + rest) 0

/-- The excerpt for a place. Columns count characters and carets bytes; there is at least one
caret, and none beyond the end of the line. -/
def ofSpan (text : List Char) (span : Span) : Excerpt :=
  let before := text.take span.start
  let lead := (before.reverse.takeWhile (· != '\n')).reverse
  let content := lead ++ (text.drop span.start).takeWhile (· != '\n')
  { line := before.count '\n'
    column := lead.length
    content
    carets :=
      max 1 (min (byteLength ((text.take span.stop).drop span.start))
        (byteLength content - lead.length)) }

/-- The lines of an excerpt, each with its end. -/
def render (e : Excerpt) : String :=
  let number := toString (e.line + 1)
  let margin := String.ofList (List.replicate (number.length + 1) ' ')
  let underline :=
    String.ofList (List.replicate (e.column + 1) ' ' ++ List.replicate e.carets '^')
  s!"TOML parse error at line {number}, column {e.column + 1}\n" ++
    margin ++ "|\n" ++
    number ++ " | " ++ String.ofList e.content ++ "\n" ++
    margin ++ "|" ++ underline ++ "\n"

end Excerpt

end BatchVerify.Toml
