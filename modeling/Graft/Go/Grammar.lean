-- The grammar of Go source. It is wider than the language: statements may
-- stand at the top level, and any number of package clauses and imports may
-- stand anywhere. Words that have a meaning of their own are names wherever
-- that meaning cannot apply.
import Graft.Go.Lexer
import Graft.Go.Rule

namespace Graft.Go
namespace Rule

/-! ## Words -/

def typeWords : List Keyword := [.funcWord, .structWord, .mapWord, .chanWord, .interfaceWord]

/-- The words that mean something where an expression can stand. -/
def expressionWords : List Keyword :=
  typeWords ++ [.nilWord, .trueWord, .falseWord, .iotaWord, .newWord, .makeWord]

/-- The words that open a statement or a declaration, or that end a list of statements. -/
def statementWords : List Keyword :=
  [.breakWord, .caseWord, .constWord, .continueWord, .defaultWord, .deferWord,
   .fallthroughWord, .forWord, .goWord, .gotoWord, .ifWord, .importWord, .packageWord,
   .returnWord, .selectWord, .switchWord, .typeWord, .varWord]

def anyWord (kind : Kind) : Rule := word [] kind

/-- What is read between brackets: line ends do not matter there. -/
def inner (r : Rule) : Rule := lines false (literals true r)

/-- What is read between the brackets, and the brackets. -/
def enclosed (opening closing : Mark) (r : Rule) : Rule :=
  all [mark opening, inner r, mark closing]

/-- Entries on lines of their own between brackets. -/
def lineGroup (opening closing : Mark) (entry : Rule) : Rule :=
  lines true (literals true (all [mark opening,
    maybe (all [entry, many (seq terminator entry), maybe terminator]), mark closing]))

/-- Entries between brackets, each with its terminator. -/
def closedGroup (entry : Rule) : Rule :=
  lines true (literals true (all [mark .parenOpen, many (seq entry terminator), mark .parenClose]))

def oneOf (ms : List Mark) : Rule := any (ms.map mark)

/-- The rule can be read here. Nothing is read. -/
def ahead (r : Rule) : Rule := absent (absent r)

def stringLiteral : Rule :=
  alt (token .string .interpretedStringLiteral) (token .rawString .rawStringLiteral)

/-! ## Types -/

/-- Types between brackets, behind a name. -/
def typeList : Rule :=
  node .typeArguments
    (enclosed .bracketOpen .bracketClose (seq (sepBy .comma (part .type)) (maybe (mark .comma))))

/-- One type, or several of which any will do. -/
def typeElem : Rule := node .typeElem (sepBy .pipe (part .type))

def typeArguments : Rule :=
  node .typeArguments
    (enclosed .bracketOpen .bracketClose (seq (sepBy .comma typeElem) (maybe (mark .comma))))

def typeParameters : Rule :=
  node .typeParameterList (enclosed .bracketOpen .bracketClose
    (seq
      (sepBy .comma (node .typeParameterDeclaration
        (seq (sepBy .comma (anyWord .identifier))
          (node .typeConstraint (sepBy .pipe (part .type))))))
      (maybe (mark .comma))))

/-- A type name, with or without its package. -/
def typeName : Rule :=
  alt
    (node .qualifiedType
      (all [word typeWords .packageIdentifier, here, mark .dot, anyWord .typeIdentifier]))
    (word typeWords .typeIdentifier)

def result : Rule := alt (part .parameters) (part .type)

def sliceType : Rule :=
  node .sliceType (all [mark .bracketOpen, mark .bracketClose, part .type])

def arrayType : Rule :=
  node .arrayType (seq (enclosed .bracketOpen .bracketClose (part .expression)) (part .type))

def implicitLengthArrayType : Rule :=
  node .implicitLengthArrayType
    (all [mark .bracketOpen, mark .ellipsis, mark .bracketClose, part .type])

def pointerType : Rule := node .pointerType (seq (mark .star) (part .type))

def negatedType : Rule := node .negatedType (seq (mark .tilde) (part .type))

def parenthesizedType : Rule :=
  node .parenthesizedType (enclosed .parenOpen .parenClose (part .type))

def mapType : Rule :=
  node .mapType
    (all [keyword .mapWord, enclosed .bracketOpen .bracketClose (part .type), part .type])

def channelType : Rule :=
  node .channelType (any [
    all [keyword .chanWord, mark .arrow, part .type],
    all [keyword .chanWord, part .type],
    all [mark .arrow, keyword .chanWord, part .type]])

def functionType : Rule :=
  node .functionType (all [keyword .funcWord, part .parameters, maybe (seq here result)])

def fieldDeclaration : Rule :=
  let tag := maybe (seq here stringLiteral)
  node .fieldDeclaration (alt
    (all [sepBy .comma (anyWord .fieldIdentifier), here, part .type, tag,
      ahead (alt terminator (mark .braceClose))])
    (all [maybe (mark .star), part .namedType, tag]))

def structType : Rule :=
  node .structType (seq (keyword .structWord)
    (node .fieldDeclarationList (lineGroup .braceOpen .braceClose fieldDeclaration)))

def interfaceElem : Rule :=
  alt
    (node .methodElem
      (all [word typeWords .fieldIdentifier, part .parameters, maybe (seq here result)]))
    typeElem

def interfaceType : Rule :=
  node .interfaceType
    (seq (keyword .interfaceWord) (lineGroup .braceOpen .braceClose interfaceElem))

def parameter : Rule :=
  any [
    node .variadicParameterDeclaration
      (all [maybe (word typeWords .identifier), mark .ellipsis, part .type]),
    node .parameterDeclaration
      (seq (sepBy .comma (word typeWords .identifier)) (part .type)),
    node .parameterDeclaration (part .type)]

/-! ## Expressions -/

/-- The right side of a binary operation. -/
def operation (ops : List Mark) (operand : Part) : Rule :=
  node .binaryExpression (all [here, oneOf ops, part operand])

def literalElement : Rule := node .literalElement (alt (part .literalValue) (part .expression))

def literalEntry : Rule :=
  once none literalElement (node .keyedElement (seq (mark .colon) literalElement))

def argument : Rule :=
  once none (part .expression) (node .variadicArgument (mark .ellipsis))

def arguments : Rule :=
  role .arguments (node .argumentList (enclosed .parenOpen .parenClose
    (maybe (seq (sepBy .comma argument) (maybe (mark .comma))))))

def typeFirstArguments : Rule :=
  role .arguments (node .argumentList (enclosed .parenOpen .parenClose
    (maybe (all [part .type, many (seq (mark .comma) (part .expression)),
      maybe (mark .comma)]))))

def conversionOperand : Rule :=
  enclosed .parenOpen .parenClose (seq (part .expression) (maybe (mark .comma)))

def allocator : Rule :=
  alt (token (.keyword .newWord) .identifier) (token (.keyword .makeWord) .identifier)

def functionLiteral : Rule :=
  node .funcLiteral (all [keyword .funcWord, part .parameters, maybe result, part .block])

/-- What an expression can open with. -/
def atom : Rule :=
  any [
    token .int .intLiteral,
    token .float .floatLiteral,
    token .imaginary .imaginaryLiteral,
    token .rune .runeLiteral,
    stringLiteral,
    token (.keyword .nilWord) .nilWord,
    token (.keyword .trueWord) .trueWord,
    token (.keyword .falseWord) .falseWord,
    token (.keyword .iotaWord) .iotaWord,
    node .parenthesizedExpression (enclosed .parenOpen .parenClose (part .expression)),
    node .callExpression (seq (role .function allocator) typeFirstArguments),
    seq allocator (absent (mark .parenOpen)),
    seq openLiterals (node .compositeLiteral (all [part .namedType, here, part .literalValue])),
    node .typeConversionExpression
      (seq (node .genericType (all [typeName, here, typeList])) conversionOperand),
    word expressionWords .identifier,
    functionLiteral,
    node .compositeLiteral
      (seq (any [mapType, sliceType, arrayType, implicitLengthArrayType, structType])
        (part .literalValue)),
    node .typeConversionExpression
      (seq (any [sliceType, arrayType, mapType, channelType, structType, interfaceType,
        functionType, parenthesizedType]) conversionOperand)]

def sliceBounds : Rule :=
  let bound := part .expression
  alt (all [maybe bound, mark .colon, bound, mark .colon, bound])
    (all [maybe bound, mark .colon, maybe bound])

/-- How an expression can go on. -/
def continuation : Rule :=
  any [
    node .callExpression (all [here, typeList, arguments]),
    node .indexExpression (seq here (enclosed .bracketOpen .bracketClose (part .expression))),
    node .sliceExpression (seq here (enclosed .bracketOpen .bracketClose sliceBounds)),
    node .typeInstantiationExpression (seq here (enclosed .bracketOpen .bracketClose
      (seq (sepBy .comma (part .type)) (maybe (mark .comma))))),
    node .callExpression (seq here arguments),
    node .typeAssertionExpression (all [here, mark .dot, mark .parenOpen,
      alt openLiterals (absent (keyword .typeWord)), inner (part .type), mark .parenClose]),
    node .selectorExpression (all [here, mark .dot, role .field (anyWord .fieldIdentifier)])]

/-! ## Statements -/

/-- An expression, and what can make a statement of it. `values` reads what is
assigned. -/
def simple (values : Rule) : Rule :=
  let more := many (seq (mark .comma) (part .expression))
  once (some .expressionStatement) (part .expression) (any [
    node .incStatement (seq here (mark .increment)),
    node .decStatement (seq here (mark .decrement)),
    node .sendStatement (all [here, mark .arrow, part .expression]),
    node .shortVarDeclaration (all [here, more, mark .define, values]),
    node .assignmentStatement
      (all [here, more, alt (mark .assign) (mark .operatorAssign), values])])

/-- A statement before the semicolon of a header. -/
def initializer : Rule := simple (literals true (part .expressionList))

/-- What stands between the word of a statement and its block. -/
def header (r : Rule) : Rule := lines false (literals false r)

def constSpec : Rule :=
  node .constSpec (seq (sepBy .comma (anyWord .identifier))
    (maybe (all [here, maybe (part .type), mark .assign, part .expressionList])))

def varSpec : Rule :=
  let value := seq (mark .assign) (part .expressionList)
  node .varSpec (seq (sepBy .comma (anyWord .identifier))
    (alt (seq (part .type) (maybe (seq here value))) value))

def typeSpec : Rule :=
  any [
    node .typeAlias
      (all [anyWord .typeIdentifier, maybe typeParameters, mark .assign, part .type]),
    node .typeSpec (all [anyWord .typeIdentifier, typeParameters, part .type]),
    node .typeSpec (seq (anyWord .typeIdentifier) (part .type))]

def declaration : Rule :=
  any [
    node .constDeclaration (seq (keyword .constWord) (alt (closedGroup constSpec) constSpec)),
    node .varDeclaration
      (seq (keyword .varWord) (alt (node .varSpecList (closedGroup varSpec)) varSpec)),
    node .typeDeclaration (seq (keyword .typeWord) (alt (closedGroup typeSpec) typeSpec))]

def rangeClause : Rule :=
  node .rangeClause (all [
    maybe (seq (part .expressionList) (alt (mark .define) (mark .assign))),
    keyword .rangeWord, part .expression])

def forClause : Rule :=
  node .forClause (all [maybe initializer, mark .semicolon, maybe (part .expression),
    mark .semicolon, maybe (part .simpleStatement)])

def forStatement : Rule :=
  node .forStatement (all [keyword .forWord,
    header (maybe (any [rangeClause, forClause, part .expression])), part .block])

/-- The statements behind the colon of a case. -/
def caseBody : Rule :=
  seq (mark .colon) (lines true (literals true (maybe (part .statementList))))

def defaultCase : Rule := node .defaultCase (seq (keyword .defaultWord) caseBody)

/-- The cases of a statement between braces. -/
def cases (kind : Kind) (choice : Rule) : Rule :=
  all [mark .braceOpen,
    many (alt (node kind (all [keyword .caseWord, inner choice, caseBody])) defaultCase),
    mark .braceClose]

def typeSwitchStatement : Rule :=
  node .typeSwitchStatement (all [keyword .switchWord,
    header (all [maybe (seq initializer (mark .semicolon)),
      maybe (seq (part .expressionList) (mark .define)), part .expression, mark .dot,
      mark .parenOpen, keyword .typeWord, mark .parenClose]),
    cases .typeCase (sepBy .comma (part .type))])

def expressionSwitchStatement : Rule :=
  node .expressionSwitchStatement (all [keyword .switchWord,
    header (seq (maybe (seq initializer (mark .semicolon))) (maybe (part .expression))),
    cases .expressionCase (part .expressionList)])

def communication : Rule :=
  alt
    (node .sendStatement (all [part .expression, mark .arrow, part .expression]))
    (node .receiveStatement (seq
      (maybe (seq (part .expressionList) (alt (mark .define) (mark .assign))))
      (part .expression)))

def selectStatement : Rule :=
  node .selectStatement (seq (keyword .selectWord) (cases .communicationCase communication))

def labelWord : Rule := word (expressionWords ++ statementWords) .labelName

/-- A label; at the end of a list no statement follows it. -/
def labeledStatement : Rule :=
  node .labeledStatement (all [labelWord, mark .colon, maybe (part .statement)])

def maybeLabel : Rule := maybe (seq here (anyWord .labelName))

/-! ## Declarations at the top level -/

def packageClause : Rule :=
  node .packageClause (seq (keyword .packageWord) (anyWord .packageIdentifier))

def importSpec : Rule :=
  node .importSpec (seq
    (maybe (role .name (alt (token (.mark .dot) .dot) (anyWord .packageIdentifier))))
    (role .path stringLiteral))

def importDeclaration : Rule :=
  node .importDeclaration (seq (keyword .importWord)
    (alt importSpec (node .importSpecList (lineGroup .parenOpen .parenClose importSpec))))

/-- What follows the name of a function. -/
def signature : Rule :=
  all [role .parameters (part .parameters), maybe (seq here (role .result result)),
    maybe (seq here (part .block))]

def functionDeclaration : Rule :=
  node .functionDeclaration (all [keyword .funcWord, role .name (anyWord .identifier),
    maybe typeParameters, signature])

def methodDeclaration : Rule :=
  node .methodDeclaration (all [keyword .funcWord, part .parameters,
    role .name (anyWord .fieldIdentifier), signature])

end Rule

open Rule in
def grammar : Part → Rule
  | .expression =>
    chain (chain (part .comparison) (operation [.bothAnd] .comparison))
      (node .binaryExpression (all [here, mark .eitherOr,
        chain (part .comparison) (operation [.bothAnd] .comparison)]))
  | .comparison =>
    chain (part .sum)
      (operation [.equal, .notEqual, .less, .lessEqual, .greater, .greaterEqual] .sum)
  | .sum => chain (part .product) (operation [.plus, .minus, .pipe, .caret] .product)
  | .product =>
    chain (part .unary)
      (operation [.star, .slash, .percent, .shiftLeft, .shiftRight, .ampersand, .andNot] .unary)
  | .unary =>
    alt
      (node .unaryExpression
        (seq (oneOf [.plus, .minus, .bang, .caret, .star, .ampersand, .arrow]) (part .unary)))
      (part .primary)
  | .primary => chain atom continuation
  | .expressionList => node .expressionList (sepBy .comma (part .expression))
  | .type =>
    any [part .namedType, sliceType, arrayType, pointerType, parenthesizedType, structType,
      interfaceType, mapType, channelType, functionType, negatedType]
  | .namedType => once none typeName (node .genericType (seq here typeArguments))
  | .parameters =>
    node .parameterList (enclosed .parenOpen .parenClose
      (seq (maybe (sepBy .comma parameter)) (maybe (mark .comma))))
  | .literalValue =>
    node .literalValue (enclosed .braceOpen .braceClose
      (seq (maybe (sepBy .comma literalEntry)) (maybe (mark .comma))))
  | .block =>
    node .block (lines true (literals true
      (all [mark .braceOpen, maybe (part .statementList), mark .braceClose])))
  | .statementList =>
    all [part .statement, many (seq terminator (part .statement)), maybe terminator]
  | .statement =>
    any [
      declaration,
      node .returnStatement (seq (keyword .returnWord) (maybe (seq here (part .expressionList)))),
      node .goStatement (seq (keyword .goWord) (part .expression)),
      node .deferStatement (seq (keyword .deferWord) (part .expression)),
      part .ifStatement,
      forStatement,
      typeSwitchStatement,
      expressionSwitchStatement,
      selectStatement,
      labeledStatement,
      node .fallthroughStatement (keyword .fallthroughWord),
      node .breakStatement (seq (keyword .breakWord) maybeLabel),
      node .continueStatement (seq (keyword .continueWord) maybeLabel),
      node .gotoStatement (seq (keyword .gotoWord) (anyWord .labelName)),
      part .block,
      seq (absent (any (statementWords.map keyword))) (part .simpleStatement),
      node .emptyStatement (mark .semicolon)]
  | .simpleStatement => simple (part .expressionList)
  | .ifStatement =>
    node .ifStatement (all [keyword .ifWord,
      header (alt (all [initializer, mark .semicolon, part .expression]) (part .expression)),
      part .block,
      maybe (all [here, keyword .elseWord, alt (part .block) (part .ifStatement)])])
  | .topDeclaration =>
    any [packageClause, functionDeclaration, methodDeclaration, importDeclaration]

/-- A file: declarations and statements with their terminators; the last declaration
needs none. -/
def sourceRule : Rule :=
  .seq
    (.many (.alt (.seq (.part .topDeclaration) .terminator) (.seq (.part .statement) .terminator)))
    (.maybe (.part .topDeclaration))

/-! ## Reading a file -/

/-- Deep enough for every nesting that so many items can have. -/
def depthBound (items : List Item) : Nat := 400 * (items.length + 1)

/-- What could be read of the items, and the items that are left. -/
def readSource (items : List Item) : List Shape × List Item :=
  match sourceRule.read grammar (depthBound items) ⟨true, true⟩ items with
  | some found => found
  | none => ([], items)

/-- A place in a file, from one, with its column in bytes. -/
structure Position where
  line : Nat
  column : Nat
  deriving DecidableEq, Repr

def Token.position (t : Token) : Position := ⟨t.row + 1, t.column + 1⟩

/-- Where the reading stopped: at the first character that opens no token, or else at
the first item that is left. -/
def faultPosition (left : List Item) : Position :=
  match left.find? fun i => i.token.sort == .junk with
  | some i => i.token.position
  | none =>
    match left with
    | i :: _ => i.token.position
    | [] => ⟨1, 1⟩

/-- The tree of a file over what was read and the comments behind it. -/
def sourceTree (shapes : List Shape) (trailing : List Token) : Tree :=
  .node .sourceFile none (Shape.trees shapes ++ trailing.map Shape.commentTree)

/-- The syntax tree of a source text, or the place of an error. -/
def parse (source : List Char) : Except Position Tree :=
  match readSource (items (tokens source)) with
  | (shapes, [last]) =>
    if last.token.sort = .ending then .ok (sourceTree shapes last.comments)
    else .error (faultPosition [last])
  | (_, left) => .error (faultPosition left)

end Graft.Go
