import LineCalculator.Limits
import LineCalculator.Toml.Item

/-!
# Reading a settings file

`read` turns the text of a settings file into its table.  Lines end with a line feed.  A heading in
single brackets declares a table, one in double brackets adds a table to an array, and the entries
below a heading belong to its table.
-/

namespace LineCalculator.Toml

namespace Reader

/-- The path in a heading, up to and with the brackets that close it. -/
def heading (closing : List Char) (declare : Path → Document → Option Document) (doc : Document) :
    Reader (Document × Path) := do
  skipSpace
  let path ← key
  match declare path doc.atHeading with
  | none => throw .invalid
  | some doc => do
    expect closing
    return (doc, path)

/-- A statement: a heading, an entry below the last heading, or nothing. -/
def statement [Limits] (doc : Document) (path : Path) : Reader (Document × Path) := do
  if ← accept ['[', '['] then heading [']', ']'] Document.appendTable? doc
  else if ← accept ['['] then heading [']'] Document.declareTable? doc
  else
    match (← get).head? with
    | none => return (doc, path)
    | some '\n' => return (doc, path)
    | some '#' => return (doc, path)
    | some _ => do
      let (name, item) ← pair (value Limits.fileDepth)
      match doc.set? path name item with
      | none => throw .invalid
      | some doc => return (doc, path)

/-- All statements, at most so many, each with its comment and on lines of its own. -/
def statements [Limits] : Nat → Document → Path → Reader Table
  | 0, _, _ => throw .invalid
  | fuel + 1, doc, path => do
    skipSpace
    let (doc, path) ← statement doc path
    skipSpace
    skipComment
    if (← get).isEmpty then return doc.root
    else
      expect ['\n']
      statements fuel doc path

end Reader

/-- The table that a text describes. -/
def read [Limits] (cs : List Char) : Except Fault Table :=
  (Reader.statements (cs.length + 1) {} []).run' cs

end LineCalculator.Toml
