import Marginalia.Syntax.Parse

/-! The grammar of JavaScript and, when `typed`, of TypeScript: which nodes there are and what
belongs to them. Statements that the grammar does not know are read up to their semicolon. -/

namespace Marginalia.Grammar.JavaScript

open Marginalia.Syntax Marginalia.Syntax.Rule

inductive Part where
  | program | statement | unknown | leftover | group | stray | semicolon
  | block | declaration | exported | imported | fromClause | named
  | functionHead | classHead | heritage | classBody | member | modifiers | propertyName | decorator
  | bindings | lexical | declarator | pattern | initialised
  | parameters | parameter
  | loop | cases | attempt
  | expressions | expression | arrow | ternary | binary | unary | update | call | construction
  | primary | parenthesised | arguments | array | object | property | template
  | element | elementChild
  | annotation | type | union | intersection | arrayType | simpleType | objectType | typeMember
  | typeArguments | typeParameters | interface | typeDefinition | enumeration | ambient | space
  deriving DecidableEq, Repr

open Part

abbrev R := Rule Part

def whenTyped (typed : Bool) (rule : R) : R := if typed then rule else never

def optTyped (typed : Bool) (rule : R) : R := if typed then opt rule else nothing

/-! ### Lexemes -/

/-- A regular expression after its first slash: slashes inside brackets do not end it. -/
def patternTail : Bool → Bool → List Char → Option Nat
  | _, _, [] => none
  | hidden, inClass, c :: cs =>
    if c == '\n' then none
    else if hidden then (patternTail false inClass cs).map (· + 1)
    else if c == '/' && !inClass then some (1 + (cs.takeWhile Lexeme.continuesName).length)
    else
      (patternTail (c == '\\') ((inClass || c == '[') && c != ']') cs).map (· + 1)

def regularExpression : Lexeme.Scanner
  | '/' :: cs => (patternTail false false cs).map (· + 1)
  | _ => none

def stringLiteral : Lexeme.Scanner :=
  Lexeme.firstOf [Lexeme.delimited "\"" "\"" true, Lexeme.delimited "'" "'" true]

/-- The text of a template up to a substitution or the end. -/
def templateText : Bool → List Char → Nat
  | _, [] => 0
  | hidden, c :: cs =>
    if hidden then 1 + templateText false cs
    else if c == '\x60' || (c == '$' && cs.head? == some '\x7b') then 0
    else 1 + templateText (c == '\\') cs

def templateChunk : Lexeme.Scanner := fun text => Lexeme.nonempty (templateText false text)

def templateMark : Lexeme.Scanner
  | '\x60' :: _ => some 1
  | _ => none

def privateName : Lexeme.Scanner
  | '#' :: cs => (Lexeme.nonempty (Lexeme.nameOf cs).length).map (· + 1)
  | _ => none

/-- The line that names an interpreter. -/
def interpreterLine : Lexeme.Scanner
  | '#' :: '!' :: cs => some (2 + (cs.takeWhile fun c => c != '\n').length)
  | _ => none

def elementText : Lexeme.Scanner := fun text =>
  Lexeme.nonempty (text.takeWhile fun c => c != '<' && c != '\x7b').length

def anyChar : Lexeme.Scanner
  | _ :: _ => some 1
  | [] => none

/-! ### Rules -/

def string : R := scan .string stringLiteral

def number : R := scan .construct (Lexeme.number ['.'])

/-- A keyword that something follows, so that it is no name here. -/
def modifier (word : String) : R :=
  seq [word, ahead (any [anyWord, string, number, scan .mark privateName, "[", "*", "\x7b", "@"])]

def anyText (words : List String) : R := any (words.map text)

def afterComma (rule : R) : R := many (seq [",", rule])

def binaryLevels (typed : Bool) : List (R × R) :=
  [("??", never), ("||", never), ("&&", never), ("|", never), ("^", never), ("&", never),
    (anyText ["==", "!=", "===", "!=="], never),
    (anyText ["<", ">", "<=", ">=", "instanceof", "in"],
      whenTyped typed (any [
        seq [unbroken, "as", any ["const", type]], seq [unbroken, "satisfies", type]])),
    (anyText ["<<", ">>", ">>>"], never), (anyText ["+", "-"], never),
    (anyText ["*", "/", "%"], never), ("**", never)]

def assignmentMarks : R :=
  anyText ["=", "+=", "-=", "*=", "/=", "%=", "**=", "<<=", ">>=", ">>>=", "&=", "|=", "^=", "&&=",
    "||=", "??="]

def statementRule (typed : Bool) : R :=
  any [
    block,
    construct [";"],
    construct ["if", parenthesised, statement, opt (construct ["else", statement])],
    construct ["switch", parenthesised, cases],
    loop,
    attempt,
    construct ["return", opt (seq [unbroken, expressions]), semicolon],
    construct ["throw", unbroken, expressions, semicolon],
    construct ["break", opt (seq [unbroken, name]), semicolon],
    construct ["continue", opt (seq [unbroken, name]), semicolon],
    construct ["debugger", semicolon],
    construct ["with", parenthesised, statement],
    exported,
    imported,
    declaration,
    whenTyped typed (any [ambient, construct [space]]),
    construct [name, ":", statement],
    construct [expressions, semicolon]]

def declarationRule (typed : Bool) : R :=
  any [
    construct [opt "async", "function", opt "*", opt name, functionHead,
      if typed then any [block, semicolon] else block],
    construct [many decorator, optTyped typed (modifier "abstract"), "class", classHead, classBody],
    lexical,
    construct ["var", bindings, semicolon],
    construct [opt "await", "using", unbroken, ahead name, bindings, semicolon],
    whenTyped typed (any [interface, typeDefinition, enumeration])]

def exportedRule (typed : Bool) : R :=
  construct [many decorator, "export", any [
    seq ["*", opt (construct ["as", any [anyWord, string]]), fromClause, semicolon],
    seq [optTyped typed (text "type"), named, opt fromClause, semicolon],
    seq ["default", any [declaration, seq [expression, semicolon]]],
    whenTyped typed (any [
      seq ["=", expressions, semicolon],
      seq ["as", "namespace", name, semicolon],
      ambient, space, imported]),
    declaration]]

def importedRule (typed : Bool) : R :=
  construct ["import", absent (any ["(", "."]), optTyped typed (modifier "type"), any [
    seq [
      construct [any [
        seq [name, opt (seq [",", any [construct ["*", "as", name], named]])],
        construct ["*", "as", name],
        named]],
      fromClause],
    whenTyped typed (seq [name, "=", expressions]),
    string],
    opt (construct [any ["with", "assert"], object]), semicolon]

def namedRule (typed : Bool) : R :=
  construct ["\x7b",
    list (construct [optTyped typed (modifier "type"), any [anyWord, string],
      opt (seq ["as", any [anyWord, string]])]),
    "\x7d"]

def functionHeadRule (typed : Bool) : R :=
  seq [optTyped typed typeParameters, parameters, optTyped typed annotation]

def memberRule (typed : Bool) : R :=
  any [
    ";",
    construct ["static", block],
    construct [many decorator, modifiers, propertyName, optTyped typed (any ["?", "!"]),
      functionHead, block],
    whenTyped typed (seq [
      construct [modifiers, propertyName, opt "?", functionHead], any [";", ",", semicolon]]),
    seq [
      construct [many decorator, modifiers, propertyName, optTyped typed (any ["?", "!"]),
        optTyped typed annotation, opt (seq ["=", expression])],
      semicolon],
    whenTyped typed (seq [typeMember, any [";", ",", semicolon]])]

def modifiersRule (typed : Bool) : R :=
  many (any ((["static", "async", "get", "set", "accessor"]
    ++ (if typed then
        ["public", "private", "protected", "readonly", "abstract", "override", "declare"]
      else [])).map modifier ++ [text "*"]))

def parameterRule (typed : Bool) : R :=
  if typed then
    construct [many decorator, modifiers, any [pattern, name], opt "?", opt annotation,
      opt (seq ["=", expression])]
  else seq [many decorator, initialised]

def expressionRule : R :=
  any [
    arrow,
    construct ["yield", opt "*", opt (seq [unbroken, expression])],
    chain ternary (seq [assignmentMarks, expression])]

def arrowRule (typed : Bool) : R :=
  construct [
    any [
      seq [opt "async", name, ahead "=>"],
      seq [opt "async", optTyped typed typeParameters, parameters, optTyped typed annotation,
        ahead "=>"]],
    "=>", any [block, expression]]

def unaryRule (typed : Bool) : R :=
  any [
    construct [anyText ["!", "~", "-", "+", "typeof", "void", "delete"], unary],
    construct [anyText ["++", "--"], unary],
    construct ["await", unary],
    whenTyped typed (construct [typeArguments, unary]),
    update]

def callRule (typed : Bool) : R :=
  chain (any [construction, primary]) (any [
    arguments,
    seq ["?.", any [arguments, anyWord, scan .construct privateName,
      seq ["[", expressions, "]"]]],
    seq [".", any [anyWord, scan .construct privateName]],
    seq ["[", expressions, "]"],
    template,
    whenTyped typed (seq [unbroken, "!"]),
    whenTyped typed (seq [typeArguments, any [arguments, template]])])

def constructionRule (typed : Bool) : R :=
  construct ["new",
    any [
      construction,
      chain primary (any [
        seq [".", any [anyWord, scan .construct privateName]],
        seq ["[", expressions, "]"]])],
    optTyped typed typeArguments, opt arguments]

def primaryRule (typed : Bool) : R :=
  any [
    parenthesised, string, number, template, array, object,
    construct [opt "async", "function", opt "*", opt name, functionHead, block],
    construct [many decorator, "class", classHead, classBody],
    construct ["import", ".", anyWord],
    construct ["new", ".", anyWord],
    if typed then never else element,
    scan .construct regularExpression,
    scan .construct privateName,
    "import",
    name]

def propertyRule : R :=
  any [
    construct ["...", expression],
    construct [modifiers, propertyName, functionHead, block],
    construct [propertyName, ":", expression],
    construct [name, "=", expression],
    anyWord]

/-- A template of text and of pieces that a rule reads. -/
def templateOf (piece : R) : R :=
  construct [scan .mark templateMark,
    many (any [raw templateChunk,
      construct [raw (fun text => (afterOpening? ['$', '\x7b'] text).map fun _ => 2), piece, "\x7d"]]),
    raw templateMark]

def elementName : R :=
  seq [anyWord, many (seq [any [".", "-", ":"], anyWord])]

def attributeRule : R :=
  any [
    construct ["\x7b", "...", expression, "\x7d"],
    construct [elementName, opt (seq ["=", any [
      string, construct ["\x7b", expressions, "\x7d"], element]])]]

def elementRule : R :=
  any [
    construct [construct ["<", piece ">"], many elementChild, construct ["<", "/", piece ">"]],
    construct ["<", elementName, many attributeRule, "/", piece ">"],
    construct [construct ["<", elementName, many attributeRule, piece ">"], many elementChild,
      construct ["<", "/", elementName, piece ">"]]]

def rule (typed : Bool) : Part → R
  | program => seq [opt (scan .construct interpreterLine), many (any [statement, unknown, leftover])]
  | statement => statementRule typed
  | unknown =>
    construct [
      any [group, seq [absent (anyText ["\x7d", ")", "]", ";"]), any [string, template, number, stray]]],
      many (any [group,
        seq [absent (anyText ["\x7d", ")", "]", ";"]), any [string, template, number, stray]]]),
      opt ";"]
  | group =>
    any [
      construct ["\x7b", many (any [statement, unknown]), "\x7d"],
      construct ["(", many unknown, ")"],
      construct ["[", many unknown, "]"]]
  | leftover => stray
  | stray => scan .mark anyChar
  | semicolon =>
    any [";", whenever fun c => c.broken || c.word == "\x7d" || c.atEnd]
  | block => construct ["\x7b", many (any [statement, unknown]), "\x7d"]
  | declaration => declarationRule typed
  | exported => exportedRule typed
  | imported => importedRule typed
  | fromClause => seq ["from", string]
  | named => namedRule typed
  | functionHead => functionHeadRule typed
  | classHead =>
    seq [opt (seq [absent (any ["extends", "implements"]), name]), optTyped typed typeParameters,
      opt heritage]
  | heritage =>
    if typed then
      construct [
        opt (construct ["extends",
          seq [call, opt typeArguments, afterComma (seq [call, opt typeArguments])]]),
        opt (construct ["implements", type, afterComma type])]
    else construct ["extends", call]
  | classBody => construct ["\x7b", many member, "\x7d"]
  | member => memberRule typed
  | modifiers => modifiersRule typed
  | propertyName =>
    any [anyWord, string, number, scan .construct privateName, construct ["[", expression, "]"]]
  | decorator =>
    construct ["@", chain name (any [seq [".", anyWord], arguments])]
  | bindings => seq [declarator, afterComma declarator]
  | lexical => construct [any ["let", "const"], absent "enum", bindings, semicolon]
  | declarator =>
    construct [pattern, optTyped typed (text "!"), optTyped typed annotation,
      opt (seq ["=", expression])]
  | pattern =>
    any [
      construct ["\x7b",
        list (any [
          construct ["...", pattern],
          construct [propertyName, ":", initialised],
          construct [name, "=", expression],
          name]),
        "\x7d"],
      construct ["[", many (any [",", initialised]), "]"],
      construct ["...", pattern],
      name]
  | initialised => chain pattern (seq ["=", expression])
  | parameters => construct ["(", list parameter, ")"]
  | parameter => parameterRule typed
  | loop =>
    any [
      construct ["for", opt "await", "(",
        opt (any ["var", "let", "const"]), any [pattern, call], any ["in", "of"], expressions, ")",
        statement],
      construct ["for", "(",
        any [lexical, construct ["var", bindings, ";"], construct [";"], seq [expressions, ";"]],
        any [construct [";"], seq [expressions, ";"]],
        opt expressions, ")", statement],
      construct ["while", parenthesised, statement],
      construct ["do", statement, "while", parenthesised, opt ";"]]
  | cases =>
    construct ["\x7b",
      many (any [
        construct ["case", expressions, ":", many statement],
        construct ["default", ":", many statement]]),
      "\x7d"]
  | attempt =>
    construct ["try", block,
      opt (construct ["catch",
        opt (seq ["(", pattern, optTyped typed annotation, ")"]), block]),
      opt (construct ["finally", block])]
  | expressions =>
    chain expression (seq [",", expression, afterComma expression])
  | expression => expressionRule
  | arrow => arrowRule typed
  | ternary => chain binary (seq ["?", expression, ":", expression])
  | binary => climb unary (binaryLevels typed)
  | unary => unaryRule typed
  | update => chain call (seq [unbroken, any ["++", "--"]])
  | call => callRule typed
  | construction => constructionRule typed
  | primary => primaryRule typed
  | parenthesised => construct ["(", expressions, optTyped typed annotation, ")"]
  | arguments => construct ["(", list (any [construct ["...", expression], expression]), ")"]
  | array => construct ["[", many (any [",", construct ["...", expression], expression]), "]"]
  | object => construct ["\x7b", list property, "\x7d"]
  | property => propertyRule
  | template => templateOf expressions
  | element => elementRule
  | elementChild =>
    any [
      raw elementText,
      construct ["\x7b", opt (any [construct ["...", expression], expressions]), "\x7d"],
      element]
  | annotation => construct [":", type]
  | type =>
    chain
      (any [
        construct [name, unbroken, "is", type],
        construct ["asserts", unbroken, name, opt (seq [unbroken, "is", type])],
        union])
      (seq [unbroken, "extends", union, "?", type, ":", type])
  | union => chain (seq [opt "|", intersection]) (seq ["|", intersection])
  | intersection => chain (seq [opt "&", arrayType]) (seq ["&", arrayType])
  | arrayType => chain simpleType (seq [unbroken, "[", opt type, "]"])
  | simpleType =>
    any [
      construct [opt (modifier "abstract"), opt "new", opt typeParameters, parameters, "=>", type],
      construct ["(", type, ")"],
      objectType,
      construct ["[", list (any [
        construct ["...", opt (seq [anyWord, opt "?", ":"]), type],
        construct [anyWord, opt "?", ":", type],
        seq [type, opt "?"]]), "]"],
      construct ["infer", name, opt (seq [unbroken, "extends", union])],
      construct [any ["keyof", "unique", "readonly"], absent (any [",", ">", ")", ";"]),
        arrayType],
      construct ["typeof", call],
      string, construct [opt "-", number], templateOf type,
      construct ["import", "(", string, ")", many (seq [".", anyWord]), opt typeArguments],
      chain anyWord (any [seq [".", anyWord], typeArguments])]
  | objectType =>
    construct ["\x7b", many (seq [typeMember, opt (any [";", ","])]), "\x7d"]
  | typeMember =>
    any [
      construct [opt "new", opt typeParameters, parameters, opt annotation],
      construct [many (any [modifier "readonly", seq [any ["+", "-"], "readonly"], modifier "static"]),
        "[", name, any [seq ["in", type, opt (seq ["as", type])], annotation], "]",
        opt (any ["+", "-"]), opt "?", opt annotation],
      construct [modifiers, propertyName, opt "?", opt typeParameters, parameters, opt annotation],
      construct [modifiers, propertyName, opt "?", opt annotation]]
  | typeArguments => construct ["<", list type, piece ">"]
  | typeParameters =>
    construct ["<",
      list (construct [many (any [modifier "const", modifier "in", modifier "out"]), name,
        opt (construct ["extends", type]), opt (construct ["=", type])]),
      piece ">"]
  | interface =>
    construct ["interface", name, opt typeParameters,
      opt (construct ["extends", type, afterComma type]), objectType]
  | typeDefinition => construct ["type", name, opt typeParameters, "=", type, semicolon]
  | enumeration =>
    construct [opt "const", "enum", name,
      construct ["\x7b",
        list (any [construct [propertyName, "=", expression], propertyName]), "\x7d"]]
  | ambient =>
    construct ["declare", unbroken, any [
      seq ["global", block],
      space,
      declaration]]
  | space =>
    construct [any ["namespace", "module"], unbroken,
      any [string, chain name (seq [".", name])], opt block]

def marks : List String :=
  [">>>=", "...", "===", "!==", "**=", "<<=", ">>=", ">>>", "&&=", "||=", "??=",
    "=>", "==", "!=", "<=", ">=", "&&", "||", "??", "?.", "++", "--", "+=", "-=", "*=", "/=", "%=",
    "&=", "|=", "^=", "<<", ">>", "**",
    "\x7b", "\x7d", "(", ")", "[", "]", ";", ",", "<", ">", "+", "-", "*", "/", "%", "&", "|", "^",
    "!", "~", "?", ":", "=", ".", "@", "#"]

def reserved : List String :=
  ["break", "case", "catch", "class", "const", "continue", "debugger", "default", "delete", "do",
    "else", "export", "extends", "finally", "for", "function", "if", "import", "in", "instanceof",
    "new", "return", "switch", "throw", "try", "typeof", "var", "void", "while", "with", "enum"]

def lineEnds : List Char := ['\n', '\r', '\u2028', '\u2029']

def comments : List CommentForm :=
  [⟨.comment, "//", .line lineEnds false⟩, ⟨.comment, "/*", .closing "*/" false⟩]

def grammar (typed : Bool) : Grammar Part where
  comments := comments
  marks := marks
  reserved := reserved
  rule := rule typed
  start := program
  repairs := fun part => part = .unknown || part = .leftover

end Marginalia.Grammar.JavaScript
