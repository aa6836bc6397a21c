import Marginalia.Syntax.Parse

/-! The grammar of C++. What a macro could turn into something else is read as what it looks like:
two names side by side are a declaration. -/

namespace Marginalia.Grammar.Cpp

open Marginalia.Syntax Marginalia.Syntax.Rule

inductive Part where
  | program | item | unknown | leftover | stray | group | directive | conditional | alternative
  | space | template | templateParameters | templateParameter
  | definition | declaration | specifiers | oneSpecifier | typeName | qualifiedName
  | record | recordBody | member | enumeration | enumerator | constraint | attributes
  | declarator | declaratorBase | abstractDeclarator | initialised
  | parameters | parameter | functionTail
  | statement | block | clause | caseBody
  | expressions | expression | binary | unary | access | primary | arguments | braces | lambda
  | templateArguments | typeId
  deriving DecidableEq, Repr

open Part

abbrev R := Rule Part

/-! ### Lexemes -/

/-- A raw string after its letter: the text before its parenthesis closes it. -/
def rawString : Lexeme.Scanner
  | '"' :: rest =>
    let tag := rest.takeWhile fun c => c != '(' && c != '"'
    match rest.dropWhile fun c => c != '(' && c != '"' with
    | '(' :: body =>
      (Lexeme.throughMark (')' :: tag ++ ['"']) false false body).map (tag.length + 2 + ·)
    | _ => none
  | _ => none

def plainString : Lexeme.Scanner := Lexeme.delimited "\"" "\"" true

def encodings : List String := ["u8", "u", "U", "L"]

def stringLiteral : Lexeme.Scanner :=
  Lexeme.firstOf ([plainString, Lexeme.after "R" rawString]
    ++ encodings.flatMap fun e => [Lexeme.after e plainString, Lexeme.after (e ++ "R") rawString])

def charLiteral : Lexeme.Scanner :=
  Lexeme.firstOf (Lexeme.delimited "'" "'" true
    :: encodings.map fun e => Lexeme.after e (Lexeme.delimited "'" "'" true))

def directiveName (words : List String) : Lexeme.Scanner
  | '#' :: rest =>
    let blanks := rest.takeWhile fun c => c == ' ' || c == '\t'
    let word := Lexeme.nameOf (rest.drop blanks.length)
    if words.contains (String.ofList word) then some (1 + blanks.length + word.length) else none
  | _ => none

def anyDirective : Lexeme.Scanner
  | '#' :: rest =>
    let blanks := rest.takeWhile fun c => c == ' ' || c == '\t'
    some (1 + blanks.length + (Lexeme.nameOf (rest.drop blanks.length)).length)
  | _ => none

/-- The text of a directive: up to the end of its lines or a block comment. -/
def directiveText : List Char → Nat
  | [] => 0
  | '\\' :: '\r' :: '\n' :: rest => 3 + directiveText rest
  | '\\' :: '\n' :: rest => 2 + directiveText rest
  | '\n' :: _ => 0
  | '/' :: '*' :: _ => 0
  | _ :: rest => 1 + directiveText rest

def directiveArgument : Lexeme.Scanner := fun text => Lexeme.nonempty (directiveText text)

/-- A header between angle brackets. -/
def systemHeader : Lexeme.Scanner
  | '<' :: rest =>
    let text := rest.takeWhile fun c => c != '>' && c != '\n'
    if (rest.drop text.length).head? == some '>' then some (text.length + 2) else none
  | _ => none

def anyChar : Lexeme.Scanner
  | _ :: _ => some 1
  | [] => none

/-! ### Rules -/

def string : R := scan .string stringLiteral

def char : R := scan .construct charLiteral

def number : R := scan .construct (Lexeme.number ['.', '\''])

def anyText (words : List String) : R := any (words.map text)

def afterComma (rule : R) : R := many (seq [",", rule])

def directiveWord (words : List String) : R := scan .mark (directiveName words)

/-- Succeeds where a directive goes on. -/
def sameLine : R := whenever fun c => !c.newline && !c.atEnd

/-- The rest of a directive and the end of its line. -/
def directiveRest : R :=
  seq [opt (seq [sameLine, scan .construct directiveArgument]), opt terminator]

def qualifiers : List String :=
  ["const", "volatile", "constexpr", "consteval", "constinit", "static", "inline", "extern", "virtual",
    "explicit", "friend", "mutable", "register", "thread_local", "typedef", "typename", "noexcept",
    "restrict"]

def builtinTypes : List String :=
  ["void", "bool", "char", "short", "int", "long", "float", "double", "signed", "unsigned", "wchar_t",
    "char8_t", "char16_t", "char32_t", "size_t", "auto"]

/-- A designated element of a list. -/
def designated : R :=
  construct [designator, many designator, "=", any [braces, expression]]
where
  designator : R := any [seq [".", name], construct ["[", expression, "]"]]

/-- Operands that are joined without writing all of them. -/
def folded : R :=
  any [
    seq ["...", operator, unary],
    seq [unary, operator, "...", opt (seq [operator, unary])]]
where
  operator : R :=
    anyText ["+", "-", "*", "/", "%", "^", "&", "|", "=", "<", ">", "<<", ">>", "+=", "-=", "*=", "/=",
      "%=", "^=", "&=", "|=", "<<=", ">>=", "==", "!=", "<=", ">=", "&&", "||", ",", ".*", "->*"]

/-- Terms that a type has to meet. -/
def requirements : R :=
  construct ["requires", opt parameters, construct ["\x7b",
    many (any [
      construct ["typename", qualifiedName, ";"],
      construct ["\x7b", expression, "\x7d", opt "noexcept", opt (seq ["->", typeId]), ";"],
      construct ["requires", constraint, ";"],
      construct [expressions, ";"]]), "\x7d"]]

def directiveRule : R :=
  any [
    construct [directiveWord ["include"], any [scan .construct systemHeader, string, name],
      opt (seq [sameLine, scan .construct directiveArgument]), opt terminator],
    construct [directiveWord ["define"], name, directiveRest],
    conditional,
    construct [absent (directiveWord ["else", "elif", "elifdef", "elifndef", "endif"]),
      scan .mark anyDirective, directiveRest]]

/-- What a condition decides about: declarations, members or enumerators. -/
def choices : R := many (any [item, member, seq [enumerator, ","], unknown])

def conditionalRule : R :=
  construct [directiveWord ["if", "ifdef", "ifndef"], directiveRest, choices, opt alternative,
    directiveWord ["endif"]]

def alternativeRule : R :=
  any [
    construct [directiveWord ["else"], choices],
    construct [directiveWord ["elif", "elifdef", "elifndef"], directiveRest, choices,
      opt alternative]]

def itemRule : R :=
  any [
    directive,
    space,
    construct ["extern", string, any [
      construct ["\x7b", many (any [item, unknown]), "\x7d"], item]],
    construct ["using", "namespace", qualifiedName, ";"],
    construct ["using", name, opt attributes, "=", typeId, ";"],
    construct ["using", opt (any ["typename", "enum"]), qualifiedName, ";"],
    construct ["static_assert", arguments, ";"],
    template,
    construct [opt "extern", "template", declaration],
    construct [opt "extern", "template", specifiers, ";"],
    definition,
    seq [any [record, enumeration], many oneSpecifier, ";"],
    declaration,
    statement]

def memberRule : R :=
  any [
    directive,
    seq [construct [any ["public", "private", "protected"]], ":"],
    construct ["using", name, opt attributes, "=", typeId, ";"],
    construct ["using", opt "typename", qualifiedName, ";"],
    construct ["static_assert", arguments, ";"],
    template,
    construct ["friend", any [declaration, definition, seq [opt "class", qualifiedName, ";"]]],
    definition,
    construct [any [record, enumeration], many oneSpecifier, ";"],
    construct [opt attributes, specifiers,
      opt (seq [memberDeclarator, afterComma memberDeclarator]), ";"],
    construct [opt attributes, many oneSpecifier, declarator, functionTail,
      opt (seq ["=", any [number, "default", "delete"]]), ";"],
    ";"]
where
  memberDeclarator : R :=
    seq [declarator, opt functionTail,
      opt (any [construct [":", expression], seq ["=", expression], braces])]

def definitionRule : R :=
  any [
    construct [opt attributes, specifiers, construct [declarator, functionTail], body],
    construct [opt attributes, many (anyText qualifiers),
      construct [declarator, functionTail], body]]
where
  body : R :=
    any [
      seq [opt (construct [":", initialiser, afterComma initialiser]), block],
      seq ["=", any ["default", "delete"], ";"],
      construct ["try", opt (construct [":", initialiser, afterComma initialiser]), block,
        many (construct ["catch", parameters, block])]]
  initialiser : R := construct [qualifiedName, any [arguments, braces], opt "..."]

def statementRule : R :=
  any [
    block,
    construct [opt attributes, "if", opt "constexpr", clause, statement,
      opt (construct ["else", statement])],
    construct ["switch", clause, block],
    construct ["while", clause, statement],
    construct ["do", statement, "while", construct ["(", expressions, ")"], ";"],
    construct ["for", "(", any [
        seq [specifiers, declarator, ":", any [braces, expression]],
        seq [any [declaration, seq [opt expressions, ";"]], opt expressions, ";", opt expressions]],
      ")", statement],
    construct [any ["return", "co_return"], opt (any [braces, expressions]), ";"],
    construct [any ["break", "continue"], ";"],
    construct ["goto", name, ";"],
    construct ["throw", opt expression, ";"],
    construct ["try", block, many (construct ["catch", parameters, block])],
    construct ["case", expression, ":", caseBody],
    construct ["default", ":", caseBody],
    construct [name, absent "::", ":", any [declaration, statement]],
    construct [attributes, statement],
    construct [opt expressions, ";"]]

def primaryRule : R :=
  any [
    chain string (seq [any [string, name], many string]),
    char, number, lambda,
    construct ["(", folded, ")"],
    construct ["(", expressions, ")"],
    requirements,
    construct [any ["sizeof", "alignof", "decltype", "typeid", "noexcept"], opt "...",
      any [construct ["(", any [typeId, expression], ")"], unary]],
    construct [any ["static_cast", "dynamic_cast", "const_cast", "reinterpret_cast"],
      templateArguments, arguments],
    construct [opt "::", "new", opt arguments, typeName, many (anyText ["*", "const"]),
      opt (construct ["[", expression, "]"]), opt (any [arguments, braces])],
    construct [opt "::", "delete", opt (seq ["[", "]"]), unary],
    construct ["throw", opt expression],
    construct [any ["co_await", "co_yield"], expression],
    construct [anyText builtinTypes, any [arguments, braces]],
    braces,
    qualifiedName]

def rule : Part → R
  | program => many (any [item, unknown, leftover])
  | item => itemRule
  | unknown =>
    construct [
      any [group, seq [absent (anyText ["\x7d", ")", "]", ";"]), stray]],
      many (any [group, seq [absent (anyText ["\x7d", ")", "]", ";"]), stray]]), opt ";"]
  | leftover => stray
  | stray =>
    seq [absent (scan .mark anyDirective), any [string, char, scan .mark anyChar]]
  | group =>
    any [
      construct ["\x7b", many (any [item, unknown]), "\x7d"],
      construct ["(", many unknown, ")"],
      construct ["[", many unknown, "]"]]
  | directive => directiveRule
  | conditional => conditionalRule
  | alternative => alternativeRule
  | space =>
    construct [opt "inline", "namespace", opt attributes, opt (chain name (seq ["::", opt "inline", name])),
      any [construct ["\x7b", many (any [item, unknown]), "\x7d"], seq ["=", qualifiedName, ";"]]]
  | template =>
    construct ["template", templateParameters, opt (construct ["requires", constraint]),
      any [template, definition, seq [any [record, enumeration], ";"],
        construct ["concept", name, "=", expression, ";"],
        construct ["using", name, "=", typeId, ";"],
        construct [opt attributes, specifiers, declarator, functionTail, ";"],
        construct [opt attributes, many oneSpecifier, declarator, functionTail, ";"],
        declaration]]
  | constraint => climb primary [("||", never), ("&&", never)]
  | templateParameters => construct ["<", list templateParameter, piece ">"]
  | templateParameter =>
    any [
      construct [any ["typename", "class"], opt "...", opt name, opt (seq ["=", typeId])],
      construct ["template", templateParameters, any ["typename", "class"], opt "...", opt name,
        opt (seq ["=", typeId])],
      construct [specifiers, opt "...", opt declarator, opt (seq ["=", unary])]]
  | definition => definitionRule
  | declaration =>
    construct [opt attributes, specifiers, initialised, afterComma initialised, ";"]
  | specifiers =>
    seq [many oneSpecifier, typeName, many oneSpecifier]
  | oneSpecifier =>
    any [construct [anyText qualifiers], attributes,
      construct [any ["alignas", "__attribute__", "__declspec"], arguments]]
  | typeName =>
    any [
      record, enumeration,
      seq [anyText builtinTypes, many (anyText (builtinTypes ++ ["const"]))],
      construct ["decltype", arguments],
      qualifiedName]
  | qualifiedName =>
    chain (any [construct ["::", segment], segment]) (seq ["::", opt "template", segment])
  | record =>
    any [
      construct [any ["class", "struct", "union"], many oneSpecifier,
        opt (seq [absent "final", qualifiedName]), opt "final",
        opt (construct [":", base, afterComma base]), recordBody],
      construct [any ["class", "struct", "union"], many oneSpecifier, qualifiedName]]
  | recordBody => construct ["\x7b", many (any [member, unknown]), "\x7d"]
  | member => memberRule
  | enumeration =>
    construct ["enum", opt (any ["class", "struct"]), opt attributes, opt qualifiedName,
      opt (seq [":", typeName]),
      opt (construct ["\x7b",
        many (any [directive, seq [enumerator, opt ","]]), "\x7d"])]
  | enumerator => construct [name, opt attributes, opt (seq ["=", expression])]
  | attributes => construct ["[", "[", many (seq [absent "]", stray]), "]", "]"]
  | declarator =>
    any [
      construct [anyText ["*", "&", "&&", "..."], many (any ["const", "volatile"]), declarator],
      construct [qualifiedName, "::", "*", declarator],
      chain declaratorBase (any [
        parameters,
        construct ["[", opt expression, "]"]])]
  | declaratorBase =>
    any [
      construct ["(", seq [ahead (any ["*", "&", seq [qualifiedName, "::"]]), declarator], ")"],
      construct ["[", ahead name, name, afterComma name, "]"],
      qualifiedName]
  | abstractDeclarator =>
    many (any [anyText ["*", "&", "&&", "const", "..."], construct ["[", opt expression, "]"],
      construct ["(", many (anyText ["*", "&"]), ")"], parameters])
  | initialised =>
    construct [declarator, opt functionTail,
      opt (any [seq ["=", any [braces, expression]], braces, arguments])]
  | parameters => construct ["(", list (any ["...", parameter]), ")"]
  | parameter =>
    any [
      construct [opt attributes, specifiers, declarator, opt (seq ["=", any [braces, expression]])],
      construct [opt attributes, specifiers, abstractDeclarator,
        opt (seq ["=", any [braces, expression]])]]
  | functionTail =>
    many (any ["const", "volatile", "override", "final", "&", "&&",
      construct ["noexcept", opt arguments],
      construct [any ["throw", "__attribute__"], arguments],
      construct ["->", typeId],
      construct ["requires", constraint],
      attributes])
  | statement => statementRule
  | block => construct ["\x7b", many (any [item, unknown]), "\x7d"]
  | clause =>
    construct ["(",
      opt (any [declaration, construct [expressions, ";"]]),
      any [
        construct [specifiers, declarator, any [seq ["=", expression], braces]],
        expressions],
      ")"]
  | caseBody => many (seq [absent (any ["case", "default"]), item])
  | expressions => chain expression (seq [",", expression, afterComma expression])
  | expression =>
    chain (chain binary (seq ["?", expressions, ":", expression]))
      (seq [anyText ["=", "+=", "-=", "*=", "/=", "%=", "&=", "|=", "^=", "<<=", ">>="],
        any [braces, expression]])
  | binary =>
    climb unary [("||", never), ("&&", never), ("|", never), ("^", never), ("&", never),
      (anyText ["==", "!="], never), ("<=>", never), (anyText ["<", "<=", ">", ">="], never),
      (anyText ["<<", ">>"], never), (anyText ["+", "-"], never), (anyText ["*", "/", "%"], never),
      (anyText [".*", "->*"], never)]
  | unary =>
    any [
      construct [anyText ["!", "~", "-", "+", "*", "&", "&&", "++", "--"], unary],
      construct [construct ["(", typeCast, ")"], unary],
      access]
  | access =>
    chain primary (any [
      arguments,
      seq [any [".", "->"], opt "template", any [construct ["~", name], qualifiedName]],
      construct ["[", opt expressions, "]"],
      "++", "--", braces])
  | primary => primaryRule
  | arguments =>
    construct ["(", list (seq [any [braces, expression, typeId], opt "..."]), ")"]
  | braces =>
    construct ["\x7b",
      list (any [designated, seq [any [braces, expression], opt "..."]]), "\x7d"]
  | lambda =>
    construct [
      construct ["[", list (any [
        construct [opt "&", name, "=", expression], seq ["*", "this"], seq ["&", opt name, opt "..."], "=",
        seq [name, opt "..."]]), "]"],
      opt templateParameters, opt (construct [parameters, opt "mutable", functionTail]),
      opt "mutable", block]
  | templateArguments =>
    construct ["<", list (seq [any [seq [typeId, ahead argumentEnd], calculated], opt "..."]),
      absent ">=", piece ">"]
  | typeId => construct [specifiers, abstractDeclarator]
where
  segment : R :=
    any [
      construct ["~", name],
      construct ["operator", any [
        seq ["(", ")"], seq ["[", "]"], seq ["new", opt (seq ["[", "]"])],
        seq ["delete", opt (seq ["[", "]"])],
        seq [string, name],
        anyText (marks.filter fun m => !(["(", ")", "[", "]", "\x7b", "\x7d", ";"].contains m)),
        typeId]],
      construct [name, templateArguments,
        ahead (any ["(", ")", "::", "\x7b", ",", ";", "&", "*", "&&", ">", ">>", "...", "=",
          "[", "\x7d", anyWord])],
      name]
  argumentEnd : R := any [",", "...", piece ">"]
  /-- A constant among types. -/
  calculated : R :=
    climb unary [(anyText ["==", "!="], never), (anyText ["+", "-"], never),
      (anyText ["*", "/", "%"], never)]
  base : R :=
    seq [many (anyText ["public", "private", "protected", "virtual"]), qualifiedName, opt "..."]
  /-- A type that reads as a cast: one that is built in, or a pointer. -/
  typeCast : R :=
    any [
      seq [many oneSpecifier, anyText builtinTypes, many (anyText builtinTypes), abstractDeclarator],
      seq [specifiers, anyText ["*", "&"], abstractDeclarator],
      seq [qualifiedName, ahead (seq [")", any [name, number, string, char, "!", "~"]])]]
  marks : List String :=
    ["->*", "<=>", "<<=", ">>=", "->", "==", "!=", "<=", ">=", "&&", "||", "++", "--", "+=", "-=",
      "*=", "/=", "%=", "&=", "|=", "^=", "<<", ">>", ",", "=", "+", "-", "*", "/", "%", "&", "|", "^",
      "!", "~", "<", ">"]

def marks : List String :=
  ["->*", "<=>", "<<=", ">>=", "...", "::", "->", "==", "!=", "<=", ">=", "&&", "||", "++", "--", "+=",
    "-=", "*=", "/=", "%=", "&=", "|=", "^=", "<<", ">>", ".*", "##",
    "(", ")", "[", "]", "\x7b", "\x7d", ",", ";", ":", ".", "=", "+", "-", "*", "/", "%", "&", "|",
    "^", "!", "~", "?", "<", ">", "#"]

def reserved : List String :=
  ["alignas", "alignof", "auto", "bool", "break", "case", "catch", "char", "class", "const",
    "constexpr", "continue", "decltype", "default", "delete", "do", "double", "else", "enum",
    "explicit", "extern", "float", "for", "friend", "goto", "if", "inline", "int", "long", "mutable",
    "namespace", "new", "noexcept", "operator", "private", "protected", "public", "register",
    "return", "short", "signed", "sizeof", "static", "static_assert", "struct", "switch", "template",
    "throw", "try", "typedef", "typename", "union", "unsigned", "using", "virtual", "void",
    "volatile", "while"]

def comments : List CommentForm :=
  [⟨.comment, "//", .line ['\n'] true⟩, ⟨.comment, "/*", .closing "*/" false⟩]

def grammar : Grammar Part where
  comments := comments
  marks := marks
  reserved := reserved
  rule := rule
  start := program
  repairs := fun part => part = .unknown || part = .leftover

end Marginalia.Grammar.Cpp
