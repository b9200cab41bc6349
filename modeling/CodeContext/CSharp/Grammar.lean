import CodeContext.CSharp.Form

/-!
# The grammar of C#

The forms of C# by name: types, expressions, patterns, statements and declarations. The grammar has a
second reading for sources with errors, in which tokens that fit nowhere are passed over: any token at
the top, and inside braces any but a brace without its partner.

Two marks are ambiguous. An opening angle bracket after a name starts type arguments if they are
complete and what follows them cannot start an operand. A bracketed type starts a cast if an operand
follows that cannot continue an expression.
-/

namespace CodeContext.CSharp

/-- The names of the forms. -/
inductive Phrase where
  -- names and types
  | qualifiedName
  | typeArguments
  | type
  | typeOperand
  | tupleType
  | functionType
  -- parameters and attributes
  | attributeList
  | parameter
  | typeParameters
  | constraints
  -- expressions
  | expression
  | condition
  | operand
  | primary
  | suffix
  | argument
  | arguments
  | lambda
  | creation
  | initializer
  | interpolated
  | query
  | queryBody
  | switchArm
  -- patterns
  | pattern
  | patternAnd
  | patternNot
  | patternPrimary
  | patternConstant
  -- statements
  | statement
  | block
  | declarators
  | localDeclaration
  | localFunction
  | functionBody
  | switchSection
  -- declarations
  | declaration
  | declarations
  | classDeclaration
  | structDeclaration
  | interfaceDeclaration
  | recordDeclaration
  | enumDeclaration
  | enumMember
  | delegateDeclaration
  | namespaceDeclaration
  | usingDirective
  | method
  | property
  | indexer
  | event
  | operator
  | constructor
  | destructor
  | field
  | accessors
  | topLevelItem
  | balanced

namespace Phrase

open Form

/-- The words that are never identifiers. -/
def reserved : List String :=
  ["abstract", "as", "base", "bool", "break", "byte", "case", "catch", "char", "checked", "class",
    "const", "continue", "decimal", "default", "delegate", "do", "double", "else", "enum", "event",
    "explicit", "extern", "false", "finally", "fixed", "float", "for", "foreach", "goto", "if",
    "implicit", "in", "int", "interface", "internal", "is", "lock", "long", "namespace", "new", "null",
    "object", "operator", "out", "override", "params", "private", "protected", "public", "readonly",
    "ref", "return", "sbyte", "sealed", "short", "sizeof", "stackalloc", "static", "string", "struct",
    "switch", "this", "throw", "true", "try", "typeof", "uint", "ulong", "unchecked", "unsafe",
    "ushort", "using", "virtual", "void", "volatile", "while"]

def predefinedTypes : List String :=
  ["bool", "byte", "char", "decimal", "double", "float", "int", "long", "object", "sbyte", "short",
    "string", "uint", "ulong", "ushort", "void"]

def plainModifiers : List String :=
  ["abstract", "const", "extern", "fixed", "internal", "new", "override", "private", "protected",
    "public", "readonly", "sealed", "static", "unsafe", "virtual", "volatile"]

/-- Modifiers that are also identifiers. -/
def softModifiers : List String :=
  ["async", "file", "partial", "required"]

/-- Identifiers that go on with an expression or end it. -/
def continuingWords : List String :=
  ["and", "or", "when", "with", "select", "group", "by", "into", "where", "orderby", "join", "on",
    "equals", "let", "ascending", "descending"]

abbrev P := Form Phrase

def identifier : P :=
  .terminal (.wordExcept reserved)

def anyWord : P :=
  .terminal (.wordExcept [])

def symbol (s : Symbol) : P :=
  .terminal (.symbol s)

def oneOf (words : List String) : P :=
  .terminal (.wordAmong words)

def predefined : P :=
  oneOf predefinedTypes

/-- Words in a row. -/
def words (ws : List String) : P :=
  all (ws.map word)

/-- One of some marks. -/
def marks (ms : List String) : P :=
  first (ms.map mark)

def semicolon : P :=
  mark ";"

/-- The name that a declaration gives. -/
def declaredName : P :=
  .node .name identifier

/-- A modifier. One that is also an identifier is a modifier only before another word. -/
def modifier : P :=
  first [oneOf plainModifiers, all [oneOf softModifiers, .ahead anyWord]]

def modifiers : P :=
  .many modifier

def attributes : P :=
  .many (.named .attributeList)

/-- Any number of items, some of them under conditions. Each branch of a condition counts. -/
def conditional (item : P) : P :=
  let branch := .many item
  .node .other (all [symbol (.directive .ifStart), branch,
    .many (all [symbol (.directive .elseIf), branch]),
    opt (all [symbol (.directive .elsePart), branch]), symbol (.directive .endIf)])

/-! ## Names and types -/

def ranks : P :=
  square (.many (mark ","))

/-- A name that may have type arguments. -/
def genericName : P :=
  all [identifier, opt (.named .typeArguments)]

def qualifiedNameForm : P :=
  all [opt (all [identifier, mark "::"]), listed "." genericName]

/-- Type arguments, which may all be left out. -/
def typeArgumentsForm : P :=
  all [mark "<", first [all [.ahead (marks [",", ">"]), .many (mark ",")], listed "," (.named .type)],
    mark ">"]

def tupleElement : P :=
  all [.named .type, opt identifier]

def tupleTypeForm : P :=
  parenthesized (all [tupleElement, mark ",", listed "," tupleElement])

/-- A pointer to a function: its calling convention, and the types of its parameters and its result. -/
def functionTypeForm : P :=
  all [word "delegate", mark "*", opt (all [oneOf ["managed", "unmanaged"], opt (square (listed "," identifier))]),
    mark "<", listed "," (all [opt (oneOf ["ref", "out", "in"]), opt (word "readonly"), .named .type]),
    mark ">"]

def plainType : P :=
  first [.named .functionType, predefined, .named .tupleType, .named .qualifiedName]

def typeForm : P :=
  all [opt (all [word "scoped", .ahead anyWord]), opt (all [word "ref", opt (word "readonly")]), plainType,
    .many (first [mark "?", mark "*", ranks])]

/-- What an expression can start with. -/
def startsExpression : P :=
  first [.terminal (.wordExcept (["is", "as", "in"] ++ continuingWords)), symbol .number,
    symbol .character, symbol .string, symbol .stringStart, marks ["(", "-", "+", "!", "~", "["]]

/-- A type inside an expression, where a question mark may also start a condition. -/
def typeOperandForm : P :=
  all [plainType, .many (first [all [mark "?", .notAhead startsExpression], all [mark "*", .ahead (marks ["*", ")", ">", ","])], ranks])]

/-! ## Parameters and attributes -/

def attributeForm : P :=
  let target := all [oneOf ["assembly", "module", "field", "event", "method", "param", "property",
    "return", "type", "typevar"], mark ":"]
  let one := all [.named .qualifiedName, opt (parenthesized (commas (.named .argument)))]
  first [all [mark "[", opt target, listed "," one, opt (mark ","), mark "]"],
    conditional (.named .attributeList)]

def parameterModifier : P :=
  first [oneOf ["this", "ref", "out", "in", "params", "readonly"], all [word "scoped", .ahead anyWord]]

def defaultValue : P :=
  opt (all [mark "=", .named .expression])

/-- A parameter need not have a type. -/
def parameterForm : P :=
  first [word "__arglist",
    all [attributes, .many parameterModifier, first [all [.named .type, identifier], identifier], defaultValue]]

def parameters : P :=
  parenthesized (commas (.named .parameter))

def indexParameters : P :=
  square (commas (.named .parameter))

def typeParametersForm : P :=
  all [mark "<", listed "," (all [attributes, opt (oneOf ["in", "out"]), identifier]), mark ">"]

def constraint : P :=
  first [all [word "class", opt (mark "?")], word "struct", all [word "new", mark "(", mark ")"],
    all [words ["allows", "ref", "struct"]], word "default", .named .type]

def constraintsForm : P :=
  all [word "where", identifier, mark ":", listed "," constraint]

/-! ## Expressions -/

/-- What may follow type arguments inside an expression. -/
def followsTypeArguments : P :=
  first [marks ["(", ")", "]", "\x7d", ":", ";", ",", ".", "?", "==", "!=", "|", "^", "&&", "||", "&", "[",
      "=>", ">", "\x7b"], symbol .holeEnd, symbol .format, .notAhead (.terminal .any)]

/-- A name inside an expression. -/
def nameOperand : P :=
  all [identifier, opt (all [.named .typeArguments, .ahead followsTypeArguments])]

def compoundAssignments : List String :=
  ["=", "+=", "-=", "*=", "/=", "%=", "&=", "|=", "^=", "<<=", "??="]

/-- The marks of assignments. Those that start with closing angle brackets are several marks. -/
def assignment : P :=
  first [marks compoundAssignments,
    all [mark ">", gluedMark ">", opt (gluedMark ">"), gluedMark "="]]

/-- An expression under a condition, and those that stand in for it. -/
def conditionalExpression : P :=
  all [symbol (.directive .ifStart), .named .expression,
    .many (all [symbol (.directive .elseIf), .named .expression]),
    opt (all [symbol (.directive .elsePart), .named .expression]), symbol (.directive .endIf)]

def expressionForm : P :=
  first [.named .lambda, .named .query,
    all [.named .condition, opt (all [assignment, .named .expression])],
    .named .initializer, conditionalExpression]

/-- The marks of binary operators that are a mark by themselves. -/
def binaryMarks : List String :=
  ["||", "&&", "|", "^", "&", "==", "!=", "<", "<=", "<<", "+", "-", "*", "/", "%", "??"]

/-- The binary operators. Those that start with closing angle brackets are several marks. -/
def binaryOperator : P :=
  first [marks binaryMarks,
    all [mark ">", gluedMark ">", opt (gluedMark ">"), .notAhead (gluedMark "=")],
    all [mark ">", gluedMark "="], all [mark ">", .notAhead (gluedMark ">")]]

/-- How an expression goes on after an operand. -/
def continuation : P :=
  first [all [binaryOperator, first [.named .lambda, .named .operand]],
    all [mark "..", opt (.named .operand)],
    all [word "is", .named .pattern],
    all [word "as", .named .typeOperand],
    all [word "switch", mark "\x7b", commasOpen (.named .switchArm), mark "\x7d"],
    all [word "with", .named .initializer]]

def conditionForm : P :=
  all [.named .operand, .many continuation,
    opt (all [mark "?", .named .expression, mark ":", .named .expression])]

/-- What may follow the brackets of a cast to a named type. -/
def followsCast : P :=
  first [.terminal (.wordExcept (["is", "as", "in", "switch"] ++ continuingWords)), symbol .number,
    symbol .character, symbol .string, symbol .stringStart, marks ["(", "!", "~"]]

/-- A type that is nothing but a type. -/
def certainType : P :=
  all [predefined, .many (first [mark "?", mark "*", ranks])]

def cast : P :=
  first [all [parenthesized certainType, .ahead (first [followsCast, marks ["+", "-", "&", "*", "^", "++", "--", "["]])],
    all [parenthesized (.named .type), .ahead followsCast]]

def operandForm : P :=
  first [all [marks ["+", "-", "!", "~", "++", "--", "&", "&&", "*", "^"], .named .operand],
    all [mark "..", opt (.named .operand)],
    all [cast, .named .operand],
    all [word "await", .ahead startsExpression, .named .operand],
    all [word "throw", .named .expression],
    all [word "ref", .named .expression],
    all [.named .primary, .many (.named .suffix)]]

def tupleItem : P :=
  all [opt (all [identifier, mark ":"]), .named .argument]

def primaryForm : P :=
  first [symbol .number, symbol .character, symbol .string, .named .interpolated,
    oneOf ["true", "false", "null", "this", "base"],
    all [oneOf ["typeof", "sizeof"], parenthesized (.named .type)],
    all [word "default", opt (parenthesized (.named .type))],
    all [oneOf ["checked", "unchecked"], parenthesized (.named .expression)],
    all [word "__refvalue", parenthesized (all [.named .expression, mark ",", .named .type])],
    .named .creation,
    all [.many (oneOf ["async", "static"]), word "delegate", opt parameters, .named .block],
    all [predefined, .ahead (first [mark ".", mark "?", mark "["]), .many (first [mark "?", ranks])],
    all [identifier, mark "::", nameOperand],
    nameOperand,
    parenthesized (listed "," tupleItem),
    square (commasOpen (all [opt (mark ".."), .named .expression]))]

def suffixForm : P :=
  first [all [marks [".", "->"], nameOperand],
    all [mark "?", mark ".", nameOperand],
    all [mark "?", square (commas (.named .argument)), .notAhead (mark ":")],
    square (commas (.named .argument)),
    .named .arguments,
    marks ["++", "--"],
    all [mark "!", .notAhead (gluedMark "=")]]

/-- An argument: a value, or the declaration of a variable. -/
def argumentForm : P :=
  let declared := all [.named .type, identifier, .ahead (marks [",", ")", "]"])]
  all [opt (all [identifier, marks [":", "="], .notAhead (gluedMark ":")]), opt (oneOf ["ref", "out", "in"]), opt (word "readonly"),
    first [declared, .named .expression]]

def argumentsForm : P :=
  parenthesized (commas (.named .argument))

def lambdaForm : P :=
  all [attributes, .many (all [oneOf ["async", "static"], .ahead (first [anyWord, mark "("])]),
    first [all [identifier, mark "=>"],
      all [parameters, mark "=>"],
      all [.named .type, parameters, mark "=>"]],
    first [.named .block, .named .expression]]

def sizes : P :=
  square (commas (.named .expression))

def creationForm : P :=
  first [
    all [word "new", ranks, .named .initializer],
    all [word "new", .named .arguments, opt (.named .initializer)],
    all [word "new", .named .initializer],
    all [word "new", plainType, .many (first [mark "?", mark "*"]), sizes, .many ranks, opt (.named .initializer)],
    all [word "new", .named .type, opt (.named .arguments), opt (.named .initializer)],
    all [word "stackalloc", opt plainType, .many (mark "*"), sizes, opt (.named .initializer)]]

/-- Braces with the items of a collection, the members of an object, or both. -/
def initializerForm : P :=
  braced (commasOpen (.named .expression))

def interpolatedForm : P :=
  all [symbol .stringStart,
    .many (all [symbol .holeStart, .named .expression, opt (all [mark ",", .named .expression]),
      opt (symbol .format), symbol .holeEnd]),
    symbol .stringEnd]

/-- A variable that ranges over a source. -/
def range : P :=
  all [first [all [identifier, .ahead (word "in")], all [.named .type, identifier]], word "in",
    .named .expression]

def queryForm : P :=
  all [word "from", range, .named .queryBody]

def ordering : P :=
  all [.named .expression, opt (oneOf ["ascending", "descending"])]

def queryBodyForm : P :=
  all [.many (first [all [word "from", range],
      all [word "let", identifier, mark "=", .named .expression],
      all [word "where", .named .expression],
      all [word "join", range, word "on", .named .expression, word "equals", .named .expression,
        opt (all [word "into", identifier])],
      all [word "orderby", listed "," ordering]]),
    first [all [word "select", .named .expression],
      all [word "group", .named .expression, word "by", .named .expression]],
    opt (all [word "into", identifier, .named .queryBody])]

def guard : P :=
  opt (all [word "when", .named .expression])

def switchArmForm : P :=
  all [.named .pattern, guard, mark "=>", .named .expression]

/-! ## Patterns -/

/-- A variable that a pattern declares. -/
def designation : P :=
  .terminal (.wordExcept (reserved ++ ["and", "or", "when"]))

def patternForm : P :=
  all [.named .patternAnd, .many (all [word "or", .named .patternAnd])]

def patternAndForm : P :=
  all [.named .patternNot, .many (all [word "and", .named .patternNot])]

def patternNotForm : P :=
  first [all [word "not", .named .patternNot], .named .patternPrimary]

/-- A pattern for a member, or for each of several positions. -/
def subpattern : P :=
  all [opt (all [listed "." identifier, mark ":"]), .named .pattern]

def positions : P :=
  parenthesized (commas subpattern)

def members : P :=
  braced (commasOpen subpattern)

/-- Operators that show that a pattern is a constant and not a type. -/
def constantGoesOn : P :=
  marks ["+", "-", "*", "/", "%", "&", "|", "^", "<<", ".", "(", "["]

/-- A variable, or variables in brackets. -/
def nested : P :=
  first [designation, parenthesized (commas (.named .argument))]

def patternPrimaryForm : P :=
  first [
    all [first [all [mark "<", opt (gluedMark "=")], mark "<=", all [mark ">", opt (gluedMark "=")]],
      .named .patternConstant],
    all [word "var", nested],
    all [positions, opt members, opt designation, .notAhead constantGoesOn],
    all [members, opt designation],
    all [mark "..", opt (.named .patternNot)],
    all [square (commasOpen (.named .pattern)), opt designation],
    all [.named .typeOperand, opt positions, opt members, opt designation, .notAhead constantGoesOn],
    .named .patternConstant]

/-- A constant: operands between arithmetic operators. -/
def patternConstantForm : P :=
  all [.named .operand,
    .many (all [marks ["+", "-", "*", "/", "%", "&", "|", "^", "<<"], .named .operand])]

/-! ## Statements -/

/-- A token that fits nowhere inside braces, or braces with all that they hold. -/
def stray : P :=
  .node .error (first [.named .balanced,
    all [.notAhead (marks ["\x7b", "\x7d"]), .terminal .any]])

def balancedForm : P :=
  braced (.many (first [.named .balanced, all [.notAhead (marks ["\x7b", "\x7d"]), .terminal .any]]))

/-- Items, and in a source with errors also tokens that fit nowhere. -/
def items (tolerant : Bool) (item : P) : P :=
  .many (if tolerant then first [item, stray] else item)

def arrow : P :=
  all [mark "=>", .named .expression]

def functionBodyForm : P :=
  first [.named .block, all [arrow, semicolon], semicolon]

def sizedName : P :=
  all [identifier, opt sizes]

def declaratorsForm : P :=
  listed "," (all [sizedName, defaultValue])

/-- Variables that a value is taken apart into. -/
def apart : P :=
  all [word "var", parenthesized (commas (.named .argument)), mark "=", .named .expression]

def localDeclarationForm : P :=
  first [apart,
    all [modifiers, opt (all [word "scoped", .ahead anyWord]), .named .type, .named .declarators]]

def localFunctionForm : P :=
  all [attributes, modifiers, .named .type, identifier, opt (.named .typeParameters), parameters,
    .many (.named .constraints), .named .functionBody]

def handler : P :=
  all [word "catch", opt (parenthesized (all [.named .type, opt identifier])),
    opt (all [word "when", parenthesized (.named .expression)]), .named .block]

def resource : P :=
  parenthesized (first [all [.named .localDeclaration, .ahead (mark ")")], .named .expression])

/-- The items that a loop declares or computes. -/
def loopStart : P :=
  first [all [.named .localDeclaration, .ahead semicolon], commas (.named .expression)]

def eachHead : P :=
  parenthesized (all [first [all [.named .type, first [identifier, nested], .ahead (word "in")], .named .expression],
    word "in", .named .expression])

def switchSectionForm (tolerant : Bool) : P :=
  all [
    first [all [word "case", first [all [.named .pattern, guard, mark ":"], all [.named .expression, mark ":"]]],
      all [word "default", mark ":"]],
    items tolerant (all [.notAhead (oneOf ["case"]), .notAhead (all [word "default", mark ":"]), .named .statement])]

def statementForm : P :=
  let body := .named .statement
  let test := parenthesized (.named .expression)
  first [
    .named .block,
    semicolon,
    all [oneOf ["break", "continue"], semicolon],
    all [word "return", opt (.named .expression), semicolon],
    all [word "throw", opt (.named .expression), semicolon],
    all [word "goto", first [all [word "case", .named .expression], word "default", identifier], semicolon],
    all [word "if", test, body, opt (all [word "else", body])],
    all [word "while", test, body],
    all [word "do", body, word "while", test, semicolon],
    all [word "for", mark "(", loopStart, semicolon, opt (.named .expression), semicolon,
      commas (.named .expression), mark ")", body],
    all [opt (word "await"), word "foreach", eachHead, body],
    all [word "lock", test, body],
    all [opt (word "await"), word "using", resource, body],
    all [word "fixed", resource, body],
    all [oneOf ["checked", "unchecked", "unsafe"], .named .block],
    all [word "try", .named .block, .many handler, opt (all [word "finally", .named .block])],
    all [word "switch", parenthesized (listed "," tupleItem),
      braced (.many (.named .switchSection))],
    all [word "yield", first [all [word "return", .named .expression], word "break"], semicolon],
    conditional (.named .statement),
    all [.notAhead (word "default"), identifier, mark ":", .named .statement],
    .named .localFunction,
    all [opt (word "await"), opt (word "using"), .named .localDeclaration, semicolon],
    all [.named .expression, semicolon]]

/-! ## Declarations -/

/-- A member's name after the interface that it implements explicitly. -/
def explicitly (member : P) : P :=
  all [.many (all [genericName, marks [".", "::"]]), member]

def bases : P :=
  all [mark ":", listed "," (all [.named .type, opt (.named .arguments)])]

/-- What stands between a type's name and its body. -/
def typeHead : P :=
  all [opt (.named .typeParameters), opt parameters, opt bases, .many (.named .constraints)]

/-- A semicolon right after a closing brace belongs to what the brace closes. -/
def closing : P :=
  opt (gluedMark ";")

/-- The body of a type, or a semicolon in its place. -/
def typeBody : P :=
  first [all [.node .body (.named .declarations), closing], semicolon]

def declarationsForm (tolerant : Bool) : P :=
  braced (items tolerant (.named .declaration))

def classForm : P :=
  .node .classDeclaration (all [attributes, modifiers, word "class", declaredName, typeHead, typeBody])

def structForm : P :=
  .node .other
    (all [attributes, .many (first [modifier, all [word "ref", .ahead (oneOf ["struct", "partial"])], word "partial"]),
      word "struct", identifier, typeHead, typeBody])

def interfaceForm : P :=
  .node .other (all [attributes, modifiers, word "interface", identifier, typeHead, typeBody])

def recordForm : P :=
  .node .other
    (all [attributes, modifiers, word "record", opt (oneOf ["class", "struct"]), identifier,
      .ahead (first [marks ["<", "(", ":", ";", "\x7b"], word "where"]), typeHead, typeBody])

def enumMemberForm : P :=
  first [conditional (all [.named .enumMember, opt (mark ",")]), all [attributes, identifier, defaultValue]]

def enumForm : P :=
  all [attributes, modifiers, word "enum", identifier, opt (all [mark ":", .named .type]),
    mark "\x7b", .many (all [.named .enumMember, first [mark ",", .ahead (mark "\x7d"), .ahead (symbol (.directive .ifStart))]]), mark "\x7d",
    closing]

def delegateForm : P :=
  all [attributes, modifiers, word "delegate", .named .type, identifier, opt (.named .typeParameters),
    parameters, .many (.named .constraints), semicolon]

def namespaceForm : P :=
  .node .other (all [word "namespace", .named .qualifiedName, .named .declarations, closing])

def usingForm : P :=
  all [opt (word "global"), word "using",
    first [all [opt (word "unsafe"), identifier, mark "=", .named .type],
      all [.many (oneOf ["static", "unsafe"]), .named .qualifiedName]],
    semicolon]

def aliasForm : P :=
  all [words ["extern", "alias"], identifier, semicolon]

def methodForm : P :=
  .node .methodDeclaration
    (all [attributes, modifiers, .named .type, explicitly declaredName, opt (.named .typeParameters),
      parameters, .many (.named .constraints), .named .functionBody])

def accessorsForm (tolerant : Bool) : P :=
  braced (items tolerant (all [attributes, modifiers, identifier, .named .functionBody]))

def propertyForm : P :=
  all [attributes, modifiers, .named .type, explicitly identifier,
    first [all [.named .accessors, opt (all [mark "=", .named .expression, semicolon])],
      all [arrow, semicolon]]]

def indexerForm : P :=
  all [attributes, modifiers, .named .type, explicitly (word "this"), indexParameters,
    first [.named .accessors, all [arrow, semicolon]]]

def eventForm : P :=
  all [attributes, modifiers, word "event", .named .type,
    first [all [explicitly identifier, .named .accessors], all [.named .declarators, semicolon]]]

/-- The operators that can be declared. -/
def operatorName : P :=
  first [marks ["!", "~", "++", "--", "+", "-", "*", "/", "%", "^", "|", "&", "<<", "==", "!=", "<=", "<"],
    oneOf ["true", "false"],
    all [mark ">", opt (first [all [gluedMark ">", opt (gluedMark ">")], gluedMark "="])]]

def operatorForm : P :=
  first [
    all [attributes, modifiers, oneOf ["implicit", "explicit"],
      explicitly (all [word "operator", opt (word "checked")]), .named .type, parameters,
      .named .functionBody],
    all [attributes, modifiers, .named .type, explicitly (all [word "operator", opt (word "checked")]),
      operatorName, parameters, .named .functionBody]]

def constructorForm : P :=
  all [attributes, modifiers, identifier, parameters,
    opt (all [mark ":", oneOf ["this", "base"], .named .arguments]), .named .functionBody]

def destructorForm : P :=
  all [attributes, modifiers, mark "~", identifier, parameters, .named .functionBody]

def fieldForm : P :=
  all [attributes, modifiers, .named .type, .named .declarators, semicolon]

def typeDeclarations : List P :=
  [.named .classDeclaration, .named .structDeclaration, .named .interfaceDeclaration,
    .named .recordDeclaration, .named .enumDeclaration, .named .delegateDeclaration,
    .named .namespaceDeclaration, .named .usingDirective, aliasForm]

def declarationForm : P :=
  first (typeDeclarations ++
    [.named .event, .named .operator, .named .destructor, .named .constructor, .named .method,
      .named .indexer, .named .property, .named .field, conditional (.named .declaration)])

/-- An attribute for the whole assembly or module. -/
def globalAttribute : P :=
  all [.ahead (all [mark "[", oneOf ["assembly", "module"], mark ":"]), .named .attributeList]

def topLevelForm : P :=
  first ([globalAttribute, all [word "namespace", .named .qualifiedName, semicolon]] ++
    typeDeclarations ++ [conditional (.named .topLevelItem), .named .statement])

/-- The form with a name, in a source without errors or with errors. -/
def form (tolerant : Bool) : Phrase → P
  | qualifiedName => qualifiedNameForm
  | typeArguments => typeArgumentsForm
  | type => typeForm
  | typeOperand => typeOperandForm
  | tupleType => tupleTypeForm
  | functionType => functionTypeForm
  | attributeList => attributeForm
  | parameter => parameterForm
  | typeParameters => typeParametersForm
  | constraints => constraintsForm
  | expression => expressionForm
  | condition => conditionForm
  | operand => operandForm
  | primary => primaryForm
  | suffix => suffixForm
  | argument => argumentForm
  | arguments => argumentsForm
  | lambda => lambdaForm
  | creation => creationForm
  | initializer => initializerForm
  | interpolated => interpolatedForm
  | query => queryForm
  | queryBody => queryBodyForm
  | switchArm => switchArmForm
  | pattern => patternForm
  | patternAnd => patternAndForm
  | patternNot => patternNotForm
  | patternPrimary => patternPrimaryForm
  | patternConstant => patternConstantForm
  | statement => statementForm
  | block => braced (items tolerant (.named .statement))
  | declarators => declaratorsForm
  | localDeclaration => localDeclarationForm
  | localFunction => localFunctionForm
  | functionBody => functionBodyForm
  | switchSection => switchSectionForm tolerant
  | declaration => declarationForm
  | declarations => declarationsForm tolerant
  | classDeclaration => classForm
  | structDeclaration => structForm
  | interfaceDeclaration => interfaceForm
  | recordDeclaration => recordForm
  | enumDeclaration => enumForm
  | enumMember => enumMemberForm
  | delegateDeclaration => delegateForm
  | namespaceDeclaration => namespaceForm
  | usingDirective => usingForm
  | method => methodForm
  | property => propertyForm
  | indexer => indexerForm
  | event => eventForm
  | operator => operatorForm
  | constructor => constructorForm
  | destructor => destructorForm
  | field => fieldForm
  | accessors => accessorsForm tolerant
  | topLevelItem => topLevelForm
  | balanced => balancedForm

end Phrase

end CodeContext.CSharp
