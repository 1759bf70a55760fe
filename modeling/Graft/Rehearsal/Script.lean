-- Shell scripts as they are written: words, redirections and commands. Only
-- a part of the language is known: simple commands with assignments, loops,
-- conditions, choices by patterns, groups, and lists of those.
namespace Graft.Rehearsal

inductive Piece
  /-- A character that may stand for others, as in a pattern of file names. -/
  | plain (c : Char)
  | quoted (cs : List Char)
  | variable (name : String) (inQuotes : Bool)
  deriving DecidableEq, Repr

abbrev Word := List Piece

/-- Where the output of a command goes. -/
inductive Redirection
  /-- Into a file, behind what it holds if `append` says so. -/
  | into (stream : Nat) (append : Bool) (file : Word)
  /-- Where another stream goes. -/
  | like (stream other : Nat)
  deriving DecidableEq, Repr

inductive Command
  | simple (words : List Word) (redirections : List Redirection)
  | forEach (name : String) (items : List Word) (body : List Command)
  | repeatWhile (condition body : List Command)
  | ifThen (condition yes no : List Command)
  /-- The commands of the first branch that has a pattern for the subject. -/
  | choose (subject : Word) (branches : List (List Word × List Command))
  | group (body : List Command) (redirections : List Redirection)
  /-- Ends well if the command does not. -/
  | negated (c : Command)
  /-- The second command runs if the first one ends well, or if it does not. -/
  | andThen (first second : Command)
  | orElse (first second : Command)
  deriving Repr

/-! ## Tokens -/

inductive Token
  | word (w : Word)
  /-- The end of a command. -/
  | separator
  /-- The end of a branch. -/
  | branchEnd
  | both
  | either
  | pipe
  | open_
  | close
  | into (stream : Nat) (append : Bool)
  | like (stream other : Nat)
  deriving DecidableEq, Repr

def isNameStart (c : Char) : Bool := c.isAlpha || c == '_'

def isNamePart (c : Char) : Bool := c.isAlphanum || c == '_'

/-- The variable behind a dollar sign, and the rest. -/
def expansion? : List Char → Option (String × List Char)
  | [] => none
  | c :: cs =>
    if c == '\x7b' then
      match cs.dropWhile fun d => d != '\x7d' with
      | _ :: rest => some (String.ofList (cs.takeWhile fun d => d != '\x7d'), rest)
      | [] => none
    else if isNameStart c then
      some (String.ofList (c :: cs.takeWhile isNamePart), cs.dropWhile isNamePart)
    else if c.isDigit || "#*@$?".toList.contains c then some (String.ofList [c], cs)
    else none

/-- The pieces up to a closing double quote. The first argument bounds the number of
steps. -/
def inDoubleQuotes : Nat → List Char → Word × List Char
  | 0, cs => ([], cs)
  | _ + 1, [] => ([], [])
  | n + 1, c :: cs =>
    if c == '"' then ([], cs)
    else if c == '\\' then
      match cs with
      | d :: rest =>
        let r := inDoubleQuotes n rest
        if "$\"\\\x60".toList.contains d then (.quoted [d] :: r.1, r.2)
        else if d == '\n' then r
        else (.quoted ['\\', d] :: r.1, r.2)
      | [] => ([.quoted ['\\']], [])
    else if c == '$' then
      match expansion? cs with
      | some (name, rest) =>
        let r := inDoubleQuotes n rest
        (.variable name true :: r.1, r.2)
      | none =>
        let r := inDoubleQuotes n cs
        (.quoted ['$'] :: r.1, r.2)
    else
      let r := inDoubleQuotes n cs
      (.quoted [c] :: r.1, r.2)

/-- A character that ends a word. -/
def endsWord (c : Char) : Bool := " \t\n;&|<>()".toList.contains c

def wordPieces : Nat → List Char → Word × List Char
  | 0, cs => ([], cs)
  | _ + 1, [] => ([], [])
  | n + 1, c :: cs =>
    if endsWord c then ([], c :: cs)
    else if c == '\'' then
      let r := wordPieces n ((cs.dropWhile (· != '\'')).drop 1)
      (.quoted (cs.takeWhile (· != '\'')) :: r.1, r.2)
    else if c == '"' then
      let q := inDoubleQuotes n cs
      let r := wordPieces n q.2
      (.quoted [] :: q.1 ++ r.1, r.2)
    else if c == '\\' then
      match cs with
      | d :: rest =>
        let r := wordPieces n rest
        if d == '\n' then r else (.quoted [d] :: r.1, r.2)
      | [] => ([.plain '\\'], [])
    else if c == '$' then
      match expansion? cs with
      | some (name, rest) =>
        let r := wordPieces n rest
        (.variable name false :: r.1, r.2)
      | none =>
        let r := wordPieces n cs
        (.plain '$' :: r.1, r.2)
    else
      let r := wordPieces n cs
      (.plain c :: r.1, r.2)

/-- A redirection behind its mark: the stream, and the rest. -/
def redirection (stream : Nat) (cs : List Char) : Token × List Char :=
  match cs with
  | '>' :: rest => (.into stream true, rest)
  | '&' :: d :: rest =>
    if d.isDigit then (.like stream (d.toNat - '0'.toNat), rest)
    else (.into stream false, d :: rest)
  | _ => (.into stream false, cs)

def tokens : Nat → List Char → List Token
  | 0, _ => []
  | _ + 1, [] => []
  | n + 1, c :: cs =>
    if c == ' ' || c == '\t' then tokens n cs
    else if c == ';' && cs.head? == some ';' then .branchEnd :: tokens n (cs.drop 1)
    else if c == '\n' || c == ';' then .separator :: tokens n cs
    else if c == '#' then tokens n (cs.dropWhile (· != '\n'))
    else if c == '&' && cs.head? == some '&' then .both :: tokens n (cs.drop 1)
    else if c == '|' && cs.head? == some '|' then .either :: tokens n (cs.drop 1)
    else if c == '|' then .pipe :: tokens n cs
    else if c == '(' then .open_ :: tokens n cs
    else if c == ')' then .close :: tokens n cs
    else if c == '>' then
      let r := redirection 1 cs
      r.1 :: tokens n r.2
    else if c.isDigit && cs.head? == some '>' then
      let r := redirection (c.toNat - '0'.toNat) (cs.drop 1)
      r.1 :: tokens n r.2
    else if endsWord c then tokens n cs
    else
      let r := wordPieces (cs.length + 2) (c :: cs)
      .word r.1 :: tokens n r.2

/-! ## Commands -/

/-- The text of a word that is written without quotes and variables. -/
def bareText (w : Word) : String :=
  String.ofList (w.filterMap fun p =>
    match p with
    | .plain c => some c
    | _ => none)

def isBare (w : Word) : Bool :=
  w.all fun p =>
    match p with
    | .plain _ => true
    | _ => false

/-- The word is this one, without quotes. -/
def isWord (text : String) (t : Token) : Bool :=
  match t with
  | .word w => isBare w && bareText w == text
  | _ => false

def skipSeparators : List Token → List Token
  | .separator :: ts => skipSeparators ts
  | ts => ts

/-- The words and redirections of a simple command, and the rest. -/
def simpleParts : List Token → (List Word × List Redirection) × List Token
  | .word w :: ts =>
    let r := simpleParts ts
    ((w :: r.1.1, r.1.2), r.2)
  | .into stream append :: .word w :: ts =>
    let r := simpleParts ts
    ((r.1.1, .into stream append w :: r.1.2), r.2)
  | .like stream other :: ts =>
    let r := simpleParts ts
    ((r.1.1, .like stream other :: r.1.2), r.2)
  | ts => (([], []), ts)

/-- The words up to the end of a command. -/
def wordsOf : List Token → List Word × List Token
  | .word w :: ts =>
    let r := wordsOf ts
    (w :: r.1, r.2)
  | ts => ([], ts)

/-- The patterns of a branch, and the rest behind the bracket that closes them. -/
def patterns : List Token → List Word × List Token
  | .word w :: .pipe :: ts =>
    let r := patterns ts
    (w :: r.1, r.2)
  | .word w :: .close :: ts => ([w], ts)
  | .open_ :: ts => patterns ts
  | ts => ([], ts)

mutual
/-- The commands up to one of the closing words or the end of a branch. -/
def commands : Nat → List String → List Token → List Command × List Token
  | 0, _, _ => ([], [])
  | n + 1, closing, ts =>
    match skipSeparators ts with
    | [] => ([], [])
    | t :: rest =>
      if t = .branchEnd || closing.any fun w => isWord w t then ([], t :: rest)
      else
        let c := chain n (t :: rest)
        let r := commands n closing c.2
        (c.1 :: r.1, r.2)

/-- Commands that depend on each other. -/
def chain : Nat → List Token → Command × List Token
  | 0, _ => (.simple [] [], [])
  | n + 1, ts =>
    let c := command n ts
    continued n c.1 c.2

/-- Goes on behind a command that others depend on. -/
def continued : Nat → Command → List Token → Command × List Token
  | 0, c, ts => (c, ts)
  | n + 1, c, ts =>
    match ts with
    | .both :: rest =>
      let d := command n (skipSeparators rest)
      continued n (.andThen c d.1) d.2
    | .either :: rest =>
      let d := command n (skipSeparators rest)
      continued n (.orElse c d.1) d.2
    | _ => (c, ts)

/-- One command, and the rest. -/
def command : Nat → List Token → Command × List Token
  | 0, _ => (.simple [] [], [])
  | n + 1, ts =>
    match ts with
    | t :: rest =>
      if isWord "for" t then
        match rest with
        | .word name :: tail =>
          let items := wordsOf (tail.drop 1)
          let body := commands n ["done"] ((skipSeparators items.2).drop 1)
          (.forEach (bareText name) items.1 body.1, body.2.drop 1)
        | _ => (.simple [] [], rest)
      else if isWord "while" t then
        let condition := commands n ["do"] rest
        let body := commands n ["done"] (condition.2.drop 1)
        (.repeatWhile condition.1 body.1, body.2.drop 1)
      else if isWord "if" t then conditional n rest
      else if isWord "case" t then
        match rest with
        | .word subject :: tail =>
          let r := branches n ((skipSeparators tail).drop 1)
          (.choose subject r.1, r.2)
        | _ => (.simple [] [], rest)
      else if isWord "\x7b" t then
        let body := commands n ["\x7d"] rest
        let tail := simpleParts (body.2.drop 1)
        (.group body.1 tail.1.2, tail.2)
      else if isWord "!" t then
        let c := command n rest
        (.negated c.1, c.2)
      else
        let parts := simpleParts ts
        match parts.2 with
        | [] => (.simple parts.1.1 parts.1.2, [])
        | u :: tail =>
          -- A token that nothing can start with is passed over.
          if parts.1.1.isEmpty && parts.1.2.isEmpty then (.simple [] [], tail)
          else (.simple parts.1.1 parts.1.2, u :: tail)
    | [] => (.simple [] [], [])

/-- A condition behind its opening word, up to its end, and the rest. -/
def conditional : Nat → List Token → Command × List Token
  | 0, _ => (.simple [] [], [])
  | n + 1, ts =>
    let condition := commands n ["then"] ts
    let yes := commands n ["elif", "else", "fi"] (condition.2.drop 1)
    match yes.2 with
    | e :: tail =>
      if isWord "elif" e then
        let no := conditional n tail
        (.ifThen condition.1 yes.1 [no.1], no.2)
      else if isWord "else" e then
        let no := commands n ["fi"] tail
        (.ifThen condition.1 yes.1 no.1, no.2.drop 1)
      else (.ifThen condition.1 yes.1 [], tail)
    | [] => (.ifThen condition.1 yes.1 [], [])

/-- The branches of a choice, up to its end, and the rest. -/
def branches : Nat → List Token → List (List Word × List Command) × List Token
  | 0, ts => ([], ts)
  | n + 1, ts =>
    match skipSeparators ts with
    | [] => ([], [])
    | t :: rest =>
      if isWord "esac" t then ([], rest)
      else
        let ps := patterns (t :: rest)
        let body := commands n ["esac"] ps.2
        let more := if body.2.head? = some .branchEnd then body.2.drop 1 else body.2
        let r := branches n more
        ((ps.1, body.1) :: r.1, r.2)
end

def commandsOf (text : List Char) : List Command :=
  let ts := tokens (text.length + 1) text
  (commands (4 * ts.length + 4) [] ts).1

end Graft.Rehearsal
