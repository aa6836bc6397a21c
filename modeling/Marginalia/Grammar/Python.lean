import Marginalia.Syntax.Parse

/-! The grammar of Python. Suites are bounded by indentation; comments before the first statement of
a suite stand outside of its block. -/

namespace Marginalia.Grammar.Python

open Marginalia.Syntax Marginalia.Syntax.Rule

inductive Part where
  | program | statement | compound | simple | unknown | leftover | group | stray | line | suite | otherwise
  | definition | decorator | imports | importName | matching | caseClause
  | expressions | expression | starred | target | targets | conditional | disjunction | negation
  | comparison | arithmetic | factor | power | primary | atom | strings | arguments | argument | index
  | clause | yielding | parameters | typeParameters | parameter | plainParameter
  deriving DecidableEq, Repr

open Part

abbrev R := Rule Part

/-! ### Lexemes -/

/-- The end of a formatted string literal: inside braces, marks and quotes do not end it. -/
def formattedTail (closing : List Char) : Nat → Option Char → Bool → List Char → Option Nat
  | _, _, _, [] => none
  | depth, some quote, hidden, c :: cs =>
    (formattedTail closing depth (if !hidden && c == quote then none else some quote)
      (!hidden && c == '\\') cs).map (· + 1)
  | 0, none, hidden, c :: cs =>
    if !hidden && (afterOpening? closing (c :: cs)).isSome then some closing.length
    else
      (formattedTail closing (if c == '\x7b' && cs.head? != some '\x7b' && !hidden then 1 else 0) none
        (!hidden && (c == '\\' || (c == '\x7b' && cs.head? == some '\x7b'))) cs).map (· + 1)
  | depth + 1, none, _, c :: cs =>
    if c == '\x7d' then (formattedTail closing depth none false cs).map (· + 1)
    else if c == '\x7b' then (formattedTail closing (depth + 2) none false cs).map (· + 1)
    else if c == '"' || c == '\'' then
      (formattedTail closing (depth + 1) (some c) false cs).map (· + 1)
    else (formattedTail closing (depth + 1) none false cs).map (· + 1)

def formatted (closing : String) : Lexeme.Scanner := fun text =>
  (afterOpening? closing.toList text).bind fun rest =>
    (formattedTail closing.toList 0 none false rest).map (closing.length + ·)

/-- The marks around strings, longer ones first. -/
def quotes : List String := ["\"\"\"", "'''", "\"", "'"]

/-- Letters before a string that change how it is read. -/
def stringLetters : List Char := ['r', 'R', 'b', 'B', 'u', 'U', 'f', 'F', 't', 'T']

def stringLiteral : Lexeme.Scanner := fun text =>
  let letters := text.takeWhile stringLetters.contains
  let rest := text.dropWhile stringLetters.contains
  if 2 < letters.length then none
  else if letters.any fun c => c == 'f' || c == 'F' || c == 't' || c == 'T' then
    ((Lexeme.firstOf (quotes.map formatted)) rest).map (letters.length + ·)
  else
    ((Lexeme.firstOf (quotes.map fun q => Lexeme.delimited q q true)) rest).map
      (letters.length + ·)

def anyChar : Lexeme.Scanner
  | _ :: _ => some 1
  | [] => none

/-- No characters, where a token without text stands. -/
def noChars : Lexeme.Scanner := fun _ => some 0

/-! ### Rules -/

def string : R := scan .string stringLiteral

def number : R := scan .construct (Lexeme.number ['.'])

def anyText (words : List String) : R := any (words.map text)

/-- Succeeds where the innermost suite goes on. -/
def aligned : R := whenever fun c => !c.atEnd && c.margin ≤ c.column

/-- Succeeds where the line goes on. -/
def sameLine : R := whenever fun c => !c.atEnd && !c.newline

/-- A rule that need not apply, and does not where the statement may end. -/
def optional (rule : R) : R := opt (seq [inline, rule])

/-- A rule and then endings, none of them where the statement may end. -/
def extended (base ending : R) : R := chain base (seq [inline, ending])

/-- Operators between two operands, none of them where the statement may end. -/
def level (words : List String) : R × R := (seq [inline, anyText words], never)

def afterComma (rule : R) : R := many (seq [inline, ",", rule])

/-- Items that are all given, or the clauses of a comprehension after the first. -/
def contents (item : R) : R :=
  opt (seq [item, any [seq [clause, many clause], seq [afterComma item, opt ","]]])

/-- Items between brackets, inside of which a line does not end a statement. -/
def brackets (left : String) (items : R) (right : String) : R :=
  seq [left, free items, right]

def simpleRule : R :=
  any [
    imports,
    construct ["return", optional expressions],
    construct ["raise", optional expressions, optional (seq ["from", expression])],
    construct ["assert", expressions],
    construct ["del", expressions],
    construct ["pass"],
    construct ["break"],
    construct ["continue"],
    construct ["global", name, afterComma name],
    construct ["nonlocal", name, afterComma name],
    construct ["type", inline, name, opt typeParameters, "=", expression],
    construct ["print", inline, ">>", expression, afterComma expression, optional ","],
    construct ["print", inline, ahead printed, expression, afterComma expression, optional ","],
    construct ["exec", inline, any [string, name], optional (seq ["in", expressions])],
    node .expressionStatement (extended
      (any [yielding, seq [starred, afterComma starred, optional ","]])
      (any [
        seq [":", expression, optional (seq ["=", any [yielding, expressions]])],
        seq [anyText ["=", "+=", "-=", "*=", "/=", "//=", "%=", "**=", "@=", "&=", "|=", "^=", "<<=",
          ">>="], any [yielding, expressions]]]))]

where
  /-- What can follow a name only as an operand of a printing statement. -/
  printed : R := any [number, string, name, "\x7b", "~", "lambda", "await", seq ["not", absent "in"]]

def compoundRule : R :=
  any [
    construct ["if", expression, ":", suite,
      many (seq [aligned, construct ["elif", expression, ":", suite]]), otherwise],
    construct [opt "async", "for", targets, "in", expressions, ":", suite, otherwise],
    construct ["while", expression, ":", suite, otherwise],
    construct ["try", ":", suite,
      many (seq [aligned,
        construct ["except", opt "*", opt (seq [expressions, opt (seq ["as", expression])]), ":",
          suite]]),
      otherwise,
      opt (seq [aligned, construct ["finally", ":", suite]])],
    construct [opt "async", "with",
      construct [any [
        seq [brackets "(" (seq [withItem, afterComma withItem, opt ","]) ")", ahead ":"],
        seq [withItem, afterComma withItem, opt ","]]],
      ":", suite],
    definition,
    construct [decorator, many (seq [aligned, decorator]), definition],
    matching]
where
  withItem : R := construct [chain expression (seq ["as", target])]

def matchingRule : R :=
  construct ["match", inline, expressions, ":", indent,
    node .block (seq [raw noChars, many (seq [aligned, caseClause]), dedent])]

def atomRule : R :=
  any [
    strings, number,
    construct [brackets "(" (any [yielding, contents argument]) ")"],
    construct [brackets "[" (contents starred) "]"],
    construct [brackets "\x7b"
      (contents (any [construct ["**", expression], chain starred (seq [":", expression])]))
      "\x7d"],
    scan .construct (fun text => (afterOpening? ['.', '.', '.'] text).map fun _ => 3),
    name]

def rule : Part → R
  | program => many (any [statement, unknown, leftover])
  | statement => seq [aligned, bound (any [compound, line])]
  | compound => compoundRule
  | simple => simpleRule
  | unknown =>
    construct [sameOrFirst, many (any [group, seq [sameLine, stray]]), opt lineEnd]
  | group =>
    any [
      construct ["(", many (any [group, seq [absent ")", stray]]), ")"],
      construct ["[", many (any [group, seq [absent "]", stray]]), "]"],
      construct ["\x7b", many (any [group, seq [absent "\x7d", stray]]), "\x7d"]]
  | leftover => stray
  | stray => any [string, scan .mark anyChar]
  | line => seq [simple, many (seq [sameLine, ";", sameLine, simple]), optional ";", lineEnd]
  | suite =>
    any [
      seq [indent, node .block (seq [many (any [statement, seq [aligned, unknown]]), dedent])],
      node .block line]
  | otherwise => opt (seq [aligned, construct ["else", ":", suite]])
  | definition =>
    any [
      node .functionDefinition (seq [opt "async", "def", name, opt typeParameters,
        parameters, opt (seq ["->", construct [expression]]), ":", suite]),
      node .classDefinition (seq ["class", name, opt typeParameters,
        opt arguments, ":", suite])]
  | decorator => construct ["@", expression, lineEnd]
  | imports =>
    any [
      construct ["import", importName, afterComma importName],
      construct ["from", construct [many (anyText ["...", "."]), optional (extended name (seq [".", name]))],
        "import", any [
          construct ["*"],
          brackets "(" (list importName) ")",
          seq [importName, afterComma importName]]]]
  | importName => extended (extended name (seq [".", name])) (seq ["as", name])
  | matching => matchingRule
  | caseClause =>
    construct ["case", construct [chain starred (seq ["as", name])],
      afterComma (construct [chain starred (seq ["as", name])]), opt ",",
      opt (construct ["if", expression]), ":", suite]
  | expressions => extended starred (any [seq [",", starred, afterComma starred, optional ","], ","])
  | expression => extended conditional (seq [":=", expression])
  | starred => any [construct [anyText ["*", "**"], arithmetic], expression]
  | target => primary
  | targets =>
    chain (any [construct ["*", target], target])
      (seq [",", opt (seq [any [construct ["*", target], target],
        afterComma (any [construct ["*", target], target]), opt ","])])
  | conditional =>
    any [
      construct ["lambda", opt (construct [list plainParameter]), ":", expression],
      extended disjunction (seq ["if", disjunction, "else", expression])]
  | disjunction => climb negation [level ["or"], level ["and"]]
  | negation => any [construct ["not", negation], comparison]
  | comparison =>
    let operator : R := seq [inline, any [seq ["not", "in"], seq ["is", "not"],
      anyText ["is", "in", "<", "<=", "==", "!=", ">=", ">", "<>"]]]
    chain arithmetic (seq [operator, arithmetic, many (seq [operator, arithmetic])])
  | arithmetic =>
    climb factor [level ["|"], level ["^"], level ["&"], level ["<<", ">>"], level ["+", "-"],
      level ["*", "/", "//", "%", "@"]]
  | factor => any [construct [anyText ["-", "+", "~"], factor], power]
  | power => extended (any [construct ["await", primary], primary]) (seq ["**", factor])
  | primary =>
    extended atom (any [
      seq [".", anyWord],
      arguments,
      brackets "[" (list index) "]"])
  | atom => atomRule
  | strings => extended string (seq [string, many (seq [inline, string])])
  | arguments => construct [brackets "(" (contents argument) ")"]
  | argument => any [construct [name, "=", expression], starred]
  | index =>
    any [
      construct [":", opt expression, opt (seq [":", opt expression])],
      chain starred (seq [":", opt expression, opt (seq [":", opt expression])])]
  | clause =>
    any [
      construct [opt "async", "for", targets, "in", disjunction, afterComma disjunction, opt ","],
      construct ["if", expression]]
  | yielding =>
    construct ["yield", optional (any [seq ["from", expression], expressions])]
  | typeParameters => construct [brackets "[" (list (chain starred (seq [":", expression]))) "]"]
  | parameters => construct [brackets "(" (list parameter) ")"]
  | parameter =>
    any [chain parameterName (any [seq [":", construct [starred], given], seq ["=", expression]]),
      anyText ["*", "/"]]
  | plainParameter => any [chain parameterName (seq ["=", expression]), anyText ["*", "/"]]
where
  /-- The first token of a line, or one on the same line. -/
  sameOrFirst : R := any [group, stray]
  parameterName : R :=
    any [construct [anyText ["*", "**"], name], construct ["(", list name, ")"], name]
  given : R := opt (seq ["=", expression])

def marks : List String :=
  ["**=", "//=", "<<=", ">>=", "...", "->", ":=", "==", "!=", "<=", ">=", "<>", "**", "//", "<<",
    ">>", "+=", "-=", "*=", "/=", "%=", "@=", "&=", "|=", "^=",
    "(", ")", "[", "]", "\x7b", "\x7d", ",", ":", ";", ".", "=", "+", "-", "*", "/", "%", "@", "&",
    "|", "^", "~", "<", ">", "!"]

def reserved : List String :=
  ["and", "as", "assert", "async", "await", "break", "class", "continue", "def", "del", "elif",
    "else", "except", "finally", "for", "from", "global", "if", "import", "in", "is", "lambda",
    "nonlocal", "not", "or", "pass", "raise", "return", "try", "while", "with", "yield"]

def grammar : Grammar Part where
  comments := [⟨.comment, "#", .line ['\n'] false⟩]
  marks := marks
  reserved := reserved
  rule := rule
  start := program
  repairs := fun part => part = .unknown || part = .leftover

end Marginalia.Grammar.Python
