-- The tokens of Go source. The grammar looks only at the class of a token
-- and at the line ends; its text, the blanks before it and its row are kept
-- for the tree, and so are the comments.
namespace Graft.Go

/-- The words that can have a meaning of their own. -/
inductive Keyword
  | breakWord | caseWord | chanWord | constWord | continueWord | defaultWord | deferWord
  | elseWord | fallthroughWord | forWord | funcWord | goWord | gotoWord | ifWord | importWord
  | interfaceWord | mapWord | packageWord | rangeWord | returnWord | selectWord | structWord
  | switchWord | typeWord | varWord | newWord | makeWord | nilWord | trueWord | falseWord
  | iotaWord
  deriving DecidableEq, Repr

/-- The keywords as they are written. -/
def keywordTable : List (String × Keyword) :=
  [("break", .breakWord), ("case", .caseWord), ("chan", .chanWord), ("const", .constWord),
   ("continue", .continueWord), ("default", .defaultWord), ("defer", .deferWord),
   ("else", .elseWord), ("fallthrough", .fallthroughWord), ("for", .forWord),
   ("func", .funcWord), ("go", .goWord), ("goto", .gotoWord), ("if", .ifWord),
   ("import", .importWord), ("interface", .interfaceWord), ("map", .mapWord),
   ("package", .packageWord), ("range", .rangeWord), ("return", .returnWord),
   ("select", .selectWord), ("struct", .structWord), ("switch", .switchWord),
   ("type", .typeWord), ("var", .varWord), ("new", .newWord), ("make", .makeWord),
   ("nil", .nilWord), ("true", .trueWord), ("false", .falseWord), ("iota", .iotaWord)]

/-- Operators and punctuation. All assignments with an operator are one class. -/
inductive Mark
  | parenOpen | parenClose | bracketOpen | bracketClose | braceOpen | braceClose
  | comma | semicolon | colon | dot | ellipsis | assign | define | operatorAssign
  | arrow | increment | decrement | plus | minus | star | slash | percent | ampersand
  | pipe | caret | shiftLeft | shiftRight | andNot | bothAnd | eitherOr | bang | tilde
  | equal | notEqual | less | lessEqual | greater | greaterEqual | nul
  deriving DecidableEq, Repr

/-- The marks as they are written, longer ones first. -/
def markTable : List (String × Mark) :=
  [("<<=", .operatorAssign), (">>=", .operatorAssign), ("&^=", .operatorAssign),
   ("...", .ellipsis),
   ("&&", .bothAnd), ("||", .eitherOr), ("<-", .arrow), ("++", .increment),
   ("--", .decrement), ("==", .equal), ("!=", .notEqual), ("<=", .lessEqual),
   (">=", .greaterEqual), (":=", .define), ("+=", .operatorAssign), ("-=", .operatorAssign),
   ("*=", .operatorAssign), ("/=", .operatorAssign), ("%=", .operatorAssign),
   ("&=", .operatorAssign), ("|=", .operatorAssign), ("^=", .operatorAssign),
   ("<<", .shiftLeft), (">>", .shiftRight), ("&^", .andNot),
   ("(", .parenOpen), (")", .parenClose), ("[", .bracketOpen), ("]", .bracketClose),
   ("\x7b", .braceOpen), ("\x7d", .braceClose), (",", .comma), (";", .semicolon),
   (":", .colon), (".", .dot), ("=", .assign), ("+", .plus), ("-", .minus), ("*", .star),
   ("/", .slash), ("%", .percent), ("&", .ampersand), ("|", .pipe), ("^", .caret),
   ("!", .bang), ("~", .tilde), ("<", .less), (">", .greater), ("\x00", .nul)]

inductive Class
  | name
  | keyword (k : Keyword)
  | mark (m : Mark)
  | int | float | imaginary | rune | string | rawString
  | comment
  /-- A character that opens no token. -/
  | junk
  /-- The end of the text. -/
  | ending
  deriving DecidableEq, Repr

/-- A token, with the white space that stands before it. -/
structure Token where
  sort : Class
  /-- The blanks and line ends since the token before. -/
  before : List Char
  text : List Char
  /-- The row and the byte column of its first character, from zero. -/
  row : Nat
  column : Nat
  deriving DecidableEq, Repr

/-- The tokens as they stand in the source, without what stands before the first. -/
def spell : List Token → List Char
  | [] => []
  | t :: ts => t.text ++ ts.flatMap fun u => u.before ++ u.text

/-! ## Tokens as the grammar sees them -/

/-- A token that is no comment. The grammar sees its class, and whether a line ended
since the token before it. -/
structure Item where
  token : Token
  /-- The comments since the item before. -/
  comments : List Token
  opensLine : Bool
  deriving DecidableEq, Repr

/-- A line ends in the white space before the token. -/
def Token.opensLine (t : Token) : Bool := t.before.contains '\n'

/-- The items of a token list. `comments` holds the comments since the last item,
and `lineEnded` says whether a line ended since then. -/
def itemsFrom (comments : List Token) (lineEnded : Bool) : List Token → List Item
  | [] => []
  | t :: ts =>
    let ended := lineEnded || t.opensLine
    if t.sort = .comment then itemsFrom (comments ++ [t]) ended ts
    else ⟨t, comments, ended⟩ :: itemsFrom [] false ts

def items (tokens : List Token) : List Item := itemsFrom [] false tokens

end Graft.Go
