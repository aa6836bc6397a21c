import Marginalia.Syntax.Parse

/-! The grammar of Go. An end of line ends a statement where the statement may end. -/

namespace Marginalia.Grammar.Go

open Marginalia.Syntax Marginalia.Syntax.Rule

inductive Part where
  | program | statement | unknown | leftover | stray | group | declaration | importSpec | block | statements
  | simple | names | parameters | parameter | result | typeParameters | loopHead | switchBlock
  | expressions | expression | unary | operand | value | composite | element
  | type | structType | fieldLine | interfaceType
  deriving DecidableEq, Repr

open Part

abbrev R := Rule Part

/-! ### Lexemes -/

def stringLiteral : Lexeme.Scanner :=
  Lexeme.firstOf [Lexeme.delimited "\"" "\"" true, Lexeme.delimited "\x60" "\x60" false]

def runeLiteral : Lexeme.Scanner := Lexeme.delimited "'" "'" true

def anyChar : Lexeme.Scanner
  | _ :: _ => some 1
  | [] => none

/-! ### Rules -/

def string : R := scan .string stringLiteral

def rune : R := scan .construct runeLiteral

def number : R := scan .construct (Lexeme.number ['.'])

def anyText (words : List String) : R := any (words.map text)

def afterComma (rule : R) : R := many (seq [",", rule])

/-- Items on lines of their own. -/
def listed (item : R) : R :=
  opt (seq [item, many (seq [terminator, item]), opt terminator])

def assignmentMarks : R :=
  anyText [":=", "=", "+=", "-=", "*=", "/=", "%=", "&=", "|=", "^=", "<<=", ">>=", "&^="]

/-- Values after a mark on the same line. -/
def initial : R := opt (seq [inline, "=", construct [expressions]])

def declarationRule : R :=
  any [
    construct ["import", any [
      construct ["(", bound (listed importSpec), ")"],
      importSpec]],
    construct ["const", any [
      seq ["(", bound (listed constant), ")"],
      constant]],
    construct ["var", any [
      construct ["(", bound (listed bindings), ")"],
      bindings]],
    construct ["type", any [
      seq ["(", bound (listed typeSpec), ")"],
      typeSpec]],
    construct ["func", name, opt typeParameters, parameters, opt (seq [inline, result]), opt block],
    construct ["func", parameters, name, parameters, opt (seq [inline, result]), opt block]]
where
  constant : R := construct [names, opt (seq [inline, absent (anyText ["=", ")"]), type]), initial]
  bindings : R := construct [names, opt (seq [inline, absent "=", type]), initial]
  typeSpec : R :=
    any [construct [name, opt typeParameters, "=", type], construct [name, opt typeParameters, type]]

def statementRule : R :=
  any [
    declaration,
    construct ["return", opt (seq [inline, construct [expressions]])],
    construct ["go", expression],
    construct ["defer", expression],
    construct ["if", opt (seq [narrow simple, ";"]), narrow expression, block,
      opt (seq ["else", any [block, seq [ahead "if", statement]]])],
    construct ["for", loopHead, block],
    construct ["switch", opt (seq [opt (narrow simple), ";"]), opt (narrow simple), switchBlock],
    construct ["select", switchBlock],
    construct ["fallthrough"],
    construct ["break", opt (seq [inline, name])],
    construct ["continue", opt (seq [inline, name])],
    construct ["goto", name],
    block,
    construct [name, ":", opt statement],
    simple]

def switchBlockRule : R :=
  seq ["\x7b",
    many (any [
      construct ["case", construct [caseItem, afterComma caseItem], ":", opt statements],
      construct ["default", ":", opt statements]]),
    "\x7d"]
where
  caseItem : R := any [simple, type]

def parameterRule : R :=
  any [
    construct [name, afterComma name, opt "...", type],
    construct [opt "...", type]]

def operandRule : R :=
  chain value (any [
    seq [".", "(", any ["type", type], ")"],
    seq [".", anyWord],
    seq [inline, free (construct ["(", list (seq [any [expression, type], opt "..."]), ")"])],
    seq [inline, "[", free (seq [opt (any [expression, type]),
      many (any [seq [":", opt expression], seq [",", any [expression, type]]])]), "]"],
    seq [inline, whenever fun c => !c.mode.narrow, composite]])

def valueRule : R :=
  any [
    string, rune, number,
    free (construct ["(", any [expression, type], ")"]),
    construct ["func", parameters, opt (seq [inline, result]), block],
    construct [literalType, composite],
    literalType,
    name]
where
  literalType : R := seq [ahead (anyText ["[", "map", "chan", "struct", "interface"]), type]

def typeRule : R :=
  any [
    construct ["*", type],
    construct ["[", opt (any ["...", free expression]), "]", inline, type],
    construct ["map", "[", type, "]", type],
    construct [any [seq ["<-", "chan"], seq ["chan", opt "<-"]], type],
    construct ["func", parameters, opt (seq [inline, result])],
    structType,
    interfaceType,
    construct ["(", type, ")"],
    chain (chain name (seq [".", name]))
      (seq [inline, construct ["[", type, afterComma type, opt ",", "]"]])]

def rule : Part → R
  | program =>
    bound (many (any [seq [statement, opt terminator], terminator, unknown, leftover]))
  | statement => any [construct ["package", name], statementRule]
  | unknown =>
    construct [any [group, stray],
      many (any [group, seq [inline, absent (anyText ["\x7d", ")", "]", ";"]), stray]]),
      opt terminator]
  | leftover => stray
  | stray => any [string, rune, scan .mark anyChar]
  | group =>
    any [
      construct ["\x7b", many (any [group, seq [absent "\x7d", stray]]), "\x7d"],
      construct ["(", many (any [group, seq [absent ")", stray]]), ")"],
      construct ["[", many (any [group, seq [absent "]", stray]]), "]"]]
  | declaration => declarationRule
  | importSpec => construct [opt (any [".", "_", name]), string]
  | block => bound (construct ["\x7b", opt statements, "\x7d"])
  | statements =>
    bound (construct [statement,
      many (seq [terminator, any [statement, terminator, seq [absent "\x7d", unknown]]]),
      opt terminator])
  | simple =>
    construct [chain expressions (seq [inline, any [
      seq [assignmentMarks, opt "range", expressions],
      "++", "--",
      seq ["<-", expression]]])]
  | names => seq [name, afterComma name]
  | parameters => free (construct ["(", list parameter, ")"])
  | parameter => parameterRule
  | result => any [parameters, type]
  | typeParameters =>
    construct ["[",
      list (construct [names, construct [seq [opt "~", type], many (seq ["|", opt "~", type])]]), "]"]
  | loopHead =>
    narrow (any [
      construct [opt (seq [construct [expressions], any [":=", "="]]), "range", expression],
      construct [opt simple, ";", opt expression, ";", opt simple],
      opt expression])
  | switchBlock => bound switchBlockRule
  | expressions => chain expression (seq [",", expression, afterComma expression])
  | expression =>
    climb unary [(seq [inline, "||"], never), (seq [inline, "&&"], never),
      (seq [inline, anyText ["==", "!=", "<", "<=", ">", ">="]], never),
      (seq [inline, anyText ["+", "-", "|", "^"]], never),
      (seq [inline, anyText ["*", "/", "%", "<<", ">>", "&", "&^"]], never)]
  | unary => any [construct [anyText ["+", "-", "!", "^", "*", "&", "<-"], unary], operand]
  | operand => operandRule
  | value => valueRule
  | composite =>
    free (construct ["\x7b", list (chain element (seq [":", element])), "\x7d"])
  | element => construct [any [composite, expression]]
  | type => typeRule
  | structType =>
    construct ["struct", bound (construct ["\x7b", listed fieldLine, "\x7d"])]
  | fieldLine =>
    any [
      construct [names, inline, type, opt (seq [inline, string])],
      construct [opt "*", type, opt (seq [inline, string])]]
  | interfaceType =>
    construct ["interface", bound (seq ["\x7b",
      listed (any [
        construct [name, parameters, opt (seq [inline, result])],
        construct [opt "~", type, many (seq ["|", opt "~", type])]]),
      "\x7d"])]

def marks : List String :=
  ["<<=", ">>=", "&^=", "...", ":=", "==", "!=", "<=", ">=", "&&", "||", "++", "--", "+=", "-=", "*=",
    "/=", "%=", "&=", "|=", "^=", "<<", ">>", "&^", "<-",
    "(", ")", "[", "]", "\x7b", "\x7d", ",", ";", ":", ".", "=", "+", "-", "*", "/", "%", "&", "|",
    "^", "!", "<", ">", "~"]

def reserved : List String :=
  ["break", "case", "chan", "const", "continue", "default", "defer", "else", "fallthrough", "for",
    "func", "go", "goto", "if", "import", "interface", "map", "package", "range", "return", "select",
    "struct", "switch", "type", "var"]

def comments : List CommentForm :=
  [⟨.comment, "//", .line ['\n'] false⟩, ⟨.comment, "/*", .closing "*/" false⟩]

def grammar : Grammar Part where
  comments := comments
  marks := marks
  reserved := reserved
  rule := rule
  start := program
  repairs := fun part => part = .unknown || part = .leftover

end Marginalia.Grammar.Go
