import Marginalia.Syntax.Parse

/-! The grammar of Rust. Where a body follows an expression, its brace opens no value. -/

namespace Marginalia.Grammar.Rust

open Marginalia.Syntax Marginalia.Syntax.Rule

inductive Part where
  | program | statement | item | unknown | leftover | stray | annotation | visibility | tokens | tokenTree
  | function | binding | importTree | block | declarations | fields | tupleFields | variants
  | typeParameters | parameters | parameter | whereClause | bounds | oneBound
  | expression | range | binary | casting | unary | access | primary | blockLike | condition | arguments
  | closure | record | matchBlock | arm
  | path | pathType | typeArguments | type | simpleType | pattern | simplePattern | lifetime
  deriving DecidableEq, Repr

open Part

abbrev R := Rule Part

/-! ### Lexemes -/

/-- A raw string after its letters: as many number signs close it as open it. -/
def rawString : Lexeme.Scanner := fun text =>
  let signs := text.takeWhile (· == '#')
  match text.dropWhile (· == '#') with
  | '"' :: rest =>
    (Lexeme.throughMark ('"' :: signs) false false rest).map (signs.length + 1 + ·)
  | _ => none

def plainString : Lexeme.Scanner := Lexeme.delimited "\"" "\"" true

def stringLiteral : Lexeme.Scanner :=
  Lexeme.firstOf [plainString, Lexeme.after "b" plainString, Lexeme.after "c" plainString,
    Lexeme.after "r" rawString, Lexeme.after "br" rawString, Lexeme.after "cr" rawString]

def charLiteral : Lexeme.Scanner
  | '\'' :: '\\' :: rest => (Lexeme.throughMark ['\''] true true ('\\' :: rest).tail).map (· + 2)
  | '\'' :: _ :: '\'' :: _ => some 3
  | _ => none

def lifetimeName : Lexeme.Scanner
  | '\'' :: rest => (Lexeme.nonempty (Lexeme.nameOf rest).length).map (· + 1)
  | _ => none

/-- A name after the letter and the sign that make a name of any word. -/
def rawName : Lexeme.Scanner :=
  Lexeme.after "r#" fun text => Lexeme.nonempty (Lexeme.nameOf text).length

def anyChar : Lexeme.Scanner
  | _ :: _ => some 1
  | [] => none

/-! ### Rules -/

def string : R := scan .string stringLiteral

def char : R := scan .construct (Lexeme.firstOf [charLiteral, Lexeme.after "b" charLiteral])

def number : R := scan .construct (Lexeme.number ['.'])

def anyText (words : List String) : R := any (words.map text)

def name : R := any [scan .construct rawName, Rule.name]

def afterComma (rule : R) : R := many (seq [",", rule])

def attributes : R := many annotation

def bracketed (item : R) : R := construct ["\x7b", list (seq [attributes, item]), "\x7d"]

def wide (rule : R) : R := under (fun m => { m with narrow := false }) rule

def itemRule : R :=
  any [
    annotation,
    construct ["macro_rules", "!", name, tokenTree, opt ";"],
    construct [visibility, "mod", name, any [";", declarations]],
    construct [visibility, any ["struct", "union"], name, opt typeParameters, any [
      seq [opt whereClause, fields],
      seq [tupleFields, opt whereClause, ";"],
      ";"]],
    construct [visibility, "enum", name, opt typeParameters, opt whereClause, variants],
    construct [visibility, "type", name, opt typeParameters, opt bounds, opt whereClause,
      opt (seq ["=", type]), opt whereClause, ";"],
    function,
    construct [opt "unsafe", "impl", opt typeParameters, opt "!", type, opt (seq ["for", type]),
      opt whereClause, any [";", declarations]],
    construct [visibility, opt "unsafe", "trait", name, opt typeParameters, opt bounds,
      opt whereClause, declarations],
    construct [visibility, "use", importTree, ";"],
    construct [visibility, "const", any ["_", name], ":", type, opt (seq ["=", expression]), ";"],
    construct [visibility, "static", opt "mut", name, ":", type, opt (seq ["=", expression]), ";"],
    construct [visibility, "extern", "crate", name, opt (seq ["as", any ["_", name]]), ";"],
    construct [visibility, opt "unsafe", construct ["extern", opt string], any [declarations]],
    binding,
    construct [";"]]

def statementRule : R :=
  any [
    item,
    construct [blockLike, absent (any [".", "?"]), opt ";"],
    chain expression ";"]

def functionRule : R :=
  construct [visibility, opt (construct [modifier, many modifier]), "fn", name, opt typeParameters,
    parameters, opt (seq ["->", type]), opt whereClause, any [";", block]]
where
  modifier : R := any ["const", "async", "unsafe", "default", construct ["extern", opt string]]

def blockLikeRule : R :=
  any [
    construct [any ["unsafe", seq ["async", opt "move"], "const", "gen"], block],
    construct ["if", narrow condition, block,
      opt (construct ["else", any [block, seq [ahead "if", blockLike]]])],
    construct ["match", narrow expression, matchBlock],
    construct [opt label, "while", narrow condition, block],
    construct [opt label, "loop", block],
    construct [opt label, "for", pattern, "in", narrow expression, block],
    construct [opt label, "\x7b", many statement, "\x7d"]]
where
  label : R := seq [construct [scan .mark lifetimeName], ":"]

def primaryRule : R :=
  any [
    char, string, number,
    construct ["(", wide (opt (seq [attributes, expression, afterComma expression, opt ","])), ")"],
    construct ["[", wide (opt (seq [attributes, expression,
      any [seq [";", expression], seq [afterComma expression, opt ","]]])), "]"],
    blockLike,
    closure,
    construct ["return", opt expression],
    construct ["break", opt lifetime, opt expression],
    construct ["continue", opt lifetime],
    construct ["yield", opt expression],
    construct ["let", pattern, "=", binary],
    construct [path, "!", tokenTree],
    construct [path, whenever fun c => !c.mode.narrow, record],
    path,
    "_"]

def simplePatternRule : R :=
  any [
    construct [opt "-", any [char, string, number],
      opt (seq [anyText ["..=", "...", ".."], opt (seq [opt "-", any [char, string, number, path]])])],
    construct [anyText ["..=", ".."], any [char, string, number]],
    "..",
    "_",
    construct [piece "&", opt "mut", simplePattern],
    construct ["(", list pattern, ")"],
    construct ["[", list pattern, "]"],
    construct [many (any ["ref", "mut"]), name, "@", pattern],
    construct [any ["ref", "mut"], opt "mut", name],
    construct ["box", simplePattern],
    construct [path, "!", tokenTree],
    construct [path, "(", list pattern, ")"],
    construct [path, "\x7b",
      list (any ["..",
        construct [attributes, any [name, number], ":", pattern],
        construct [attributes, many (any ["ref", "mut"]), name]]),
      "\x7d"],
    construct [path, anyText ["..=", ".."], opt path],
    path]

def simpleTypeRule : R :=
  any [
    construct [piece "&", opt lifetime, opt "mut", simpleType],
    construct ["*", any ["const", "mut"], simpleType],
    construct ["(", list type, ")"],
    construct ["[", type, opt (seq [";", expression]), "]"],
    "!", "_",
    construct [opt (seq ["for", typeParameters]), many (any ["unsafe", construct ["extern", opt string]]),
      "fn", construct ["(", list (seq [attributes, opt (seq [any ["_", name], ":"]), any ["...", type]]), ")"],
      opt (seq ["->", type])],
    construct [any ["impl", "dyn"], oneBound, many (seq ["+", oneBound])],
    construct ["for", typeParameters, simpleType],
    construct [path, "!", tokenTree],
    lifetime,
    pathType]

def rule : Part → R
  | program =>
    seq [opt (scan .construct (fun text =>
        (afterOpening? ['#', '!', '/'] text).map fun rest =>
          3 + (rest.takeWhile fun c => c != '\n').length)),
      many (any [statement, unknown, leftover])]
  | statement => statementRule
  | item => itemRule
  | unknown => construct [tokens, many (seq [absent (any [";", "\x7d"]), tokens]), opt ";"]
  | leftover => stray
  | stray => any [string, char, scan .mark anyChar]
  | annotation =>
    construct ["#", opt "!", "[",
      construct [path, opt (any [seq ["=", expression], tokenTree])], "]"]
  | visibility =>
    opt (construct ["pub", opt (seq ["(", any ["crate", "self", "super", seq ["in", path]], ")"])])
  | tokens => any [tokenTree, seq [absent (any [")", "]", "\x7d"]), any [string, char, stray]]]
  | tokenTree =>
    any [
      construct ["(", wide (many tokens), ")"],
      construct ["[", wide (many tokens), "]"],
      construct ["\x7b", wide (many tokens), "\x7d"]]
  | function => functionRule
  | binding =>
    construct ["let", pattern, opt (seq [":", type]),
      opt (seq ["=", expression, opt (seq ["else", block])]), ";"]
  | importTree =>
    any [
      construct ["\x7b", list importTree, "\x7d"],
      construct [opt (seq [importPath, "::"]), "*"],
      construct [opt importPath, "::", construct ["\x7b", list importTree, "\x7d"]],
      construct [importPath, "as", any ["_", name]],
      importPath]
  | block => wide (construct ["\x7b", many (any [statement, unknown]), "\x7d"])
  | declarations => construct ["\x7b", many (any [item, statement, unknown]), "\x7d"]
  | fields => bracketed (construct [visibility, name, ":", type])
  | tupleFields => construct ["(", list (seq [attributes, visibility, type]), ")"]
  | variants =>
    bracketed (construct [visibility, name, opt (any [fields, tupleFields]),
      opt (seq ["=", expression])])
  | typeParameters =>
    construct ["<",
      list (seq [attributes, any [
        construct ["const", name, ":", type, opt (seq ["=", any [block, number, name]])],
        chain lifetime bounds,
        construct [name, opt bounds, opt (seq ["=", type])]]]),
      piece ">"]
  | parameters => construct ["(", list (seq [attributes, parameter]), ")"]
  | parameter =>
    any [
      construct [opt (seq [piece "&", opt lifetime]), opt "mut", "self", absent ":"],
      construct [opt "mut", any ["self", pattern], ":", any ["...", type]],
      "...",
      type]
  | whereClause =>
    construct ["where", list (construct [opt (seq ["for", typeParameters]), any [lifetime, type], bounds])]
  | bounds => construct [":", opt (seq [oneBound, many (seq ["+", oneBound])]), opt "+"]
  | oneBound =>
    any [
      construct ["?", type],
      construct ["for", typeParameters, type],
      seq ["(", oneBound, ")"],
      lifetime, simpleType]
  | expression =>
    chain range
      (seq [anyText ["=", "+=", "-=", "*=", "/=", "%=", "&=", "|=", "^=", "<<=", ">>="], expression])
  | range =>
    any [
      construct [any ["..=", ".."], opt binary],
      chain binary (seq [any ["..=", ".."], opt binary])]
  | binary =>
    climb casting [("||", never), ("&&", never),
      (anyText ["==", "!=", "<", "<=", ">", ">="], never), ("|", never), ("^", never), ("&", never),
      (anyText ["<<", ">>"], never), (anyText ["+", "-"], never), (anyText ["*", "/", "%"], never)]
  | casting => chain unary (seq ["as", type])
  | unary =>
    any [
      construct [anyText ["-", "*", "!"], unary],
      construct [piece "&", any [seq ["raw", any ["const", "mut"]], opt "mut"], unary],
      access]
  | access =>
    chain primary (any [
      "?",
      seq [".", any [seq [word, opt (seq ["::", typeArguments])], number]],
      arguments,
      construct ["[", wide expression, "]"]])
  | primary => primaryRule
  | blockLike => blockLikeRule
  | condition => expression
  | arguments => construct ["(", wide (list (seq [attributes, expression])), ")"]
  | .closure =>
    construct [opt "static", opt "async", opt "move",
      any [
        construct ["||"],
        construct ["|",
          list (seq [attributes, construct [closurePattern, opt (seq [":", type])]]), "|"]],
      any [seq ["->", type, block], expression]]
  | record =>
    construct ["\x7b",
      wide (list (seq [attributes, any [
        construct ["..", opt expression],
        construct [any [name, number], ":", expression],
        construct [name]]])),
      "\x7d"]
  | matchBlock => construct ["\x7b", wide (many arm), "\x7d"]
  | arm =>
    construct [attributes,
      construct [pattern, opt (seq ["if", condition])], "=>",
      any [
        seq [blockLike, absent (anyText [".", "?", "+", "-", "*", "==", "as", "&&", "||"]), opt ","],
        seq [expression, opt ","]]]
  | path =>
    chain
      (any [
        construct ["<", type, opt (seq ["as", type]), piece ">"],
        construct ["::", word],
        anyPlainWord])
      (any [
        seq ["::", any [typeArguments, word]]])
  | pathType =>
    chain
      (any [
        construct ["<", type, opt (seq ["as", type]), piece ">"],
        construct ["::", word],
        anyPlainWord])
      (any [
        seq ["::", any [typeArguments, word]],
        typeArguments,
        seq [construct ["(", list type, ")"], opt (seq ["->", type])]])
  | typeArguments =>
    construct ["<",
      list (any [
        seq [lifetime, absent "+"],
        construct [name, opt typeArguments, any ["=", ":"], type],
        block, seq [opt "-", number], char, string,
        seq [type, many (seq ["+", oneBound])]]),
      piece ">"]
  | type => chain simpleType (seq ["+", oneBound])
  | simpleType => simpleTypeRule
  | pattern => chain (seq [opt "|", simplePattern]) (seq ["|", simplePattern])
  | simplePattern => simplePatternRule
  | lifetime => construct [scan .construct lifetimeName]
where
  importPath : R := chain (any [construct ["::", word], word]) (seq ["::", word])
  word : R := any [scan .construct rawName, anyWord]
  /-- Patterns of closures hold no alternatives, whose mark would close the list. -/
  closurePattern : R := simplePattern
  anyPlainWord : R := any [name, anyText ["self", "Self", "super", "crate"], seq ["$", anyWord]]

def marks : List String :=
  ["..=", "...", "<<=", ">>=", "::", "->", "=>", "==", "!=", "<=", ">=", "&&", "||", "+=", "-=", "*=",
    "/=", "%=", "^=", "&=", "|=", "<<", ">>", "..",
    "(", ")", "[", "]", "\x7b", "\x7d", ",", ";", ":", ".", "=", "+", "-", "*", "/", "%", "^", "&",
    "|", "!", "?", "<", ">", "#", "$", "@", "~", "'"]

def reserved : List String :=
  ["as", "break", "const", "continue", "else", "enum", "extern", "fn", "for", "if", "impl", "in",
    "let", "loop", "match", "mod", "move", "mut", "pub", "ref", "return", "self", "Self", "static",
    "struct", "super", "trait", "type", "unsafe", "use", "where", "while", "async", "await", "dyn",
    "crate", "_"]

def comments : List CommentForm :=
  [⟨.lineComment, "//", .line ['\n'] false⟩, ⟨.blockComment, "/*", .closing "*/" true⟩]

def grammar : Grammar Part where
  comments := comments
  marks := marks
  reserved := reserved
  rule := rule
  start := program
  repairs := fun part => part = .unknown || part = .leftover

end Marginalia.Grammar.Rust
