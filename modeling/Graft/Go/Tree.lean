-- Syntax trees of Go source. Comments are part of the tree: a comment is a
-- child of the smallest node that reaches over both of its sides. Some
-- children have a role in their node, by which they are found.
import Graft.Go.Token

namespace Graft.Go

/-- What a node is. -/
inductive Kind
  /-- Punctuation, an operator or a keyword. -/
  | mark
  | comment
  | sourceFile | packageClause | packageIdentifier
  | importDeclaration | importSpecList | importSpec | dot
  | constDeclaration | constSpec | varDeclaration | varSpecList | varSpec
  | functionDeclaration | methodDeclaration
  | typeParameterList | typeParameterDeclaration | typeConstraint
  | parameterList | parameterDeclaration | variadicParameterDeclaration
  | typeDeclaration | typeSpec | typeAlias
  | typeIdentifier | genericType | typeArguments | typeElem | qualifiedType | pointerType
  | structType | interfaceType | arrayType | implicitLengthArrayType | sliceType | mapType
  | channelType | functionType | negatedType | parenthesizedType
  | fieldDeclarationList | fieldDeclaration | fieldIdentifier | methodElem
  | block | emptyStatement | expressionStatement | sendStatement | incStatement | decStatement
  | assignmentStatement | shortVarDeclaration | labeledStatement | labelName
  | fallthroughStatement | breakStatement | continueStatement | gotoStatement
  | returnStatement | goStatement | deferStatement | ifStatement | forStatement | forClause
  | rangeClause | expressionSwitchStatement | expressionCase | defaultCase
  | typeSwitchStatement | typeCase | selectStatement | communicationCase | receiveStatement
  | expressionList | identifier | parenthesizedExpression | callExpression | argumentList
  | variadicArgument | selectorExpression | indexExpression | sliceExpression
  | typeAssertionExpression | typeConversionExpression | typeInstantiationExpression
  | compositeLiteral | literalValue | literalElement | keyedElement | funcLiteral
  | unaryExpression | binaryExpression
  | intLiteral | floatLiteral | imaginaryLiteral | runeLiteral
  | interpretedStringLiteral | rawStringLiteral
  | nilWord | trueWord | falseWord | iotaWord
  deriving DecidableEq, Repr

/-- The name of a kind, in the vocabulary of the grammar. Marks have no name. -/
def Kind.name : Kind → String
  | .mark => ""
  | .comment => "comment"
  | .sourceFile => "source_file"
  | .packageClause => "package_clause"
  | .packageIdentifier => "package_identifier"
  | .importDeclaration => "import_declaration"
  | .importSpecList => "import_spec_list"
  | .importSpec => "import_spec"
  | .dot => "dot"
  | .constDeclaration => "const_declaration"
  | .constSpec => "const_spec"
  | .varDeclaration => "var_declaration"
  | .varSpecList => "var_spec_list"
  | .varSpec => "var_spec"
  | .functionDeclaration => "function_declaration"
  | .methodDeclaration => "method_declaration"
  | .typeParameterList => "type_parameter_list"
  | .typeParameterDeclaration => "type_parameter_declaration"
  | .typeConstraint => "type_constraint"
  | .parameterList => "parameter_list"
  | .parameterDeclaration => "parameter_declaration"
  | .variadicParameterDeclaration => "variadic_parameter_declaration"
  | .typeDeclaration => "type_declaration"
  | .typeSpec => "type_spec"
  | .typeAlias => "type_alias"
  | .typeIdentifier => "type_identifier"
  | .genericType => "generic_type"
  | .typeArguments => "type_arguments"
  | .typeElem => "type_elem"
  | .qualifiedType => "qualified_type"
  | .pointerType => "pointer_type"
  | .structType => "struct_type"
  | .interfaceType => "interface_type"
  | .arrayType => "array_type"
  | .implicitLengthArrayType => "implicit_length_array_type"
  | .sliceType => "slice_type"
  | .mapType => "map_type"
  | .channelType => "channel_type"
  | .functionType => "function_type"
  | .negatedType => "negated_type"
  | .parenthesizedType => "parenthesized_type"
  | .fieldDeclarationList => "field_declaration_list"
  | .fieldDeclaration => "field_declaration"
  | .fieldIdentifier => "field_identifier"
  | .methodElem => "method_elem"
  | .block => "block"
  | .emptyStatement => "empty_statement"
  | .expressionStatement => "expression_statement"
  | .sendStatement => "send_statement"
  | .incStatement => "inc_statement"
  | .decStatement => "dec_statement"
  | .assignmentStatement => "assignment_statement"
  | .shortVarDeclaration => "short_var_declaration"
  | .labeledStatement => "labeled_statement"
  | .labelName => "label_name"
  | .fallthroughStatement => "fallthrough_statement"
  | .breakStatement => "break_statement"
  | .continueStatement => "continue_statement"
  | .gotoStatement => "goto_statement"
  | .returnStatement => "return_statement"
  | .goStatement => "go_statement"
  | .deferStatement => "defer_statement"
  | .ifStatement => "if_statement"
  | .forStatement => "for_statement"
  | .forClause => "for_clause"
  | .rangeClause => "range_clause"
  | .expressionSwitchStatement => "expression_switch_statement"
  | .expressionCase => "expression_case"
  | .defaultCase => "default_case"
  | .typeSwitchStatement => "type_switch_statement"
  | .typeCase => "type_case"
  | .selectStatement => "select_statement"
  | .communicationCase => "communication_case"
  | .receiveStatement => "receive_statement"
  | .expressionList => "expression_list"
  | .identifier => "identifier"
  | .parenthesizedExpression => "parenthesized_expression"
  | .callExpression => "call_expression"
  | .argumentList => "argument_list"
  | .variadicArgument => "variadic_argument"
  | .selectorExpression => "selector_expression"
  | .indexExpression => "index_expression"
  | .sliceExpression => "slice_expression"
  | .typeAssertionExpression => "type_assertion_expression"
  | .typeConversionExpression => "type_conversion_expression"
  | .typeInstantiationExpression => "type_instantiation_expression"
  | .compositeLiteral => "composite_literal"
  | .literalValue => "literal_value"
  | .literalElement => "literal_element"
  | .keyedElement => "keyed_element"
  | .funcLiteral => "func_literal"
  | .unaryExpression => "unary_expression"
  | .binaryExpression => "binary_expression"
  | .intLiteral => "int_literal"
  | .floatLiteral => "float_literal"
  | .imaginaryLiteral => "imaginary_literal"
  | .runeLiteral => "rune_literal"
  | .interpretedStringLiteral => "interpreted_string_literal"
  | .rawStringLiteral => "raw_string_literal"
  | .nilWord => "nil"
  | .trueWord => "true"
  | .falseWord => "false"
  | .iotaWord => "iota"

/-- The part that a child plays in its node. -/
inductive Role
  | name | path | parameters | result | function | arguments | operand | field
  deriving DecidableEq, Repr

/-- A syntax tree: a token, or a node over its children in the order of the source. -/
inductive Tree
  | leaf (kind : Kind) (role : Option Role) (token : Token)
  | node (kind : Kind) (role : Option Role) (children : List Tree)
  deriving Repr

namespace Tree

def kind : Tree → Kind
  | leaf k _ _ => k
  | node k _ _ => k

def role : Tree → Option Role
  | leaf _ r _ => r
  | node _ r _ => r

def children : Tree → List Tree
  | leaf _ _ _ => []
  | node _ _ ts => ts

/-- A node that is more than punctuation. -/
def isNamed (t : Tree) : Bool := t.kind != .mark

def isComment (t : Tree) : Bool := t.kind == .comment

def child? (t : Tree) (r : Role) : Option Tree := t.children.find? fun c => c.role == some r

/-- The children that are neither punctuation nor comments. -/
def items (t : Tree) : List Tree := t.children.filter fun c => c.isNamed && !c.isComment

mutual
/-- The tokens of a tree, comments included, in the order of the source. -/
def tokens : Tree → List Token
  | leaf _ _ t => [t]
  | node _ _ ts => tokensAll ts

def tokensAll : List Tree → List Token
  | [] => []
  | t :: ts => tokens t ++ tokensAll ts
end

/-- What stands in the source from the first to the last token. -/
def text (t : Tree) : String := String.ofList (spell t.tokens)

def row (t : Tree) : Nat :=
  match t.tokens with
  | [] => 0
  | first :: _ => first.row

mutual
/-- The node and all nodes below it, each node before its children. -/
def preorder : Tree → List Tree
  | leaf k r t => [leaf k r t]
  | node k r ts => node k r ts :: preorderAll ts

def preorderAll : List Tree → List Tree
  | [] => []
  | t :: ts => preorder t ++ preorderAll ts
end

mutual
/-- The number of nodes. -/
def size : Tree → Nat
  | leaf _ _ _ => 1
  | node _ _ ts => 1 + sizeAll ts

def sizeAll : List Tree → Nat
  | [] => 0
  | t :: ts => size t + sizeAll ts
end

theorem size_pos (t : Tree) : 0 < t.size := by cases t <;> unfold size <;> omega

end Tree
end Graft.Go
