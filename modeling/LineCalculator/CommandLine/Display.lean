import LineCalculator.Calculator
import LineCalculator.CommandLine.Output
import LineCalculator.Expr.Json
import LineCalculator.Token.Text

/-!
# Looking inside

Three commands show what lies behind an evaluation: the tokens of an expression, its tree, and the
names of the language.  They need no settings.
-/

namespace LineCalculator.CommandLine

/-- The row of a token. -/
def tokenRow (source : List Char) (index : Nat) (t : Token) : List String :=
  [toString index, t.kind.display, String.ofList (t.text source),
    if t.kind = .number then numberText t.value else "", t.spanText]

/-- Shows the tokens of an expression, up to the first lexical fault. -/
def showTokens (expression : List Char) : Output :=
  let (tokens, lexer) := (Lexer.ofSource expression).drain
  let panel : Event := .panel ⟨"Tokens", ["#", "Kind", "Text", "Value", "Span"],
    tokens.zipIdx.map fun (t, index) => tokenRow expression index t⟩
  match lexer.error with
  | none => ⟨[panel], .exit 0⟩
  | some e =>
    ⟨[panel, .remark ("Lexical error: " ++ e.message ++
        " (column " ++ toString (e.pos + 1) ++ ")")], .exit 1⟩

/-- Complains about an expression that is not shown. -/
def complainAbout (expression : List Char) (e : ExprError) : Output :=
  ⟨[complain (e.diagnostic.withSource expression).text], .exit 1⟩

/-- Shows a tree in its written form. -/
def showText [Limits] (expression : List Char) (e : Expr) : Output :=
  match e.text? with
  | some text => ⟨[say text], .exit 0⟩
  | none => complainAbout expression .tooDeep

/-- Shows a tree as JSON.  Nobody expects the serializer to refuse a tree. -/
def showJson [Limits] (e : Expr) : Output :=
  match e.json? (some 2) with
  | some text => ⟨[say text], .exit 0⟩
  | none => ⟨[], .aborted .serializer⟩

/-- Shows the tree of an expression, in its written form or as JSON. -/
def showTree [Limits] (expression : List Char) (asJson : Bool) : Output :=
  match (readLine expression).result with
  | .ok e => if asJson then showJson e else showText expression e
  | .error e => complainAbout expression e

/-- The row of a name. -/
def nameRow : String × Entry → List String
  | (name, .constant value description) =>
    [name, "constant", description ++ " (" ++ numberText value ++ ")"]
  | (name, .function _ description) => [name, "function", description]

/-- Shows the names of the language. -/
def showFunctions : Output :=
  ⟨[.panel ⟨"Names", ["Name", "Kind", "Description"], Names.table.map nameRow⟩], .exit 0⟩

end LineCalculator.CommandLine
