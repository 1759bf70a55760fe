-- Running shell scripts in a tree of files. A script changes the tree, writes
-- to its two streams, and ends with a number or by a signal.
import Graft.Rehearsal.Script
import Graft.World

namespace Graft.Rehearsal

/-- A script that is running. -/
structure Shell where
  view : Files.View
  /-- The name of the script and its arguments. -/
  arguments : List String
  bindings : List (String × String)
  status : Nat
  output : List UInt8
  complaint : List UInt8
  /-- How the script ended, if it did. -/
  ended : Option Exit

namespace Shell

/-! ## Words -/

/-- Texts with blanks between them. -/
def spaced : List String → String
  | [] => ""
  | [s] => s
  | s :: ss => s ++ " " ++ spaced ss

/-- The number of the process that runs a script. -/
def processNumber : String := "4242"

def value (sh : Shell) (name : String) : String :=
  if name == "#" then toString (sh.arguments.length - 1)
  else if name == "*" || name == "@" then spaced (sh.arguments.drop 1)
  else if name == "$" then processNumber
  else if name == "?" then toString sh.status
  else
    match name.toNat? with
    | some n => sh.arguments.getD n ""
    | none =>
      if name == "PWD" then sh.view.cwd.path
      else ((sh.bindings.find? fun v => v.1 == name).map fun v => v.2).getD ""

/-- A character of a field, and whether it may stand for others. -/
abbrev Mark := Char × Bool

/-- The fields so far, and the one that is open. -/
structure Fields where
  closed : List (List Mark)
  current : Option (List Mark)

namespace Fields

def start : Fields := ⟨[], none⟩

/-- More characters for the field that is open. -/
def add (active : Bool) (cs : List Char) (f : Fields) : Fields :=
  { f with current := some (f.current.getD [] ++ cs.map fun c => (c, active)) }

/-- Closes the field that is open. -/
def close (f : Fields) : Fields :=
  match f.current with
  | some m => ⟨f.closed ++ [m], none⟩
  | none => f

/-- Fields of their own, the first joined to the one that is open. -/
def addEach : List String → Fields → Fields
  | [], f => f
  | [s], f => f.add false s.toList
  | s :: ss, f => addEach ss (f.add false s.toList).close

/-- Characters that are split at white space. -/
def addSplit : List Char → Fields → Fields
  | [], f => f
  | c :: cs, f =>
    if c == ' ' || c == '\t' || c == '\n' then addSplit cs f.close
    else addSplit cs (f.add true [c])

end Fields

/-- The fields behind one more piece. -/
def addPiece (sh : Shell) (f : Fields) : Piece → Fields
  | .plain c => f.add true [c]
  | .quoted cs => f.add false cs
  | .variable name inQuotes =>
    if name == "@" && inQuotes then
      -- An empty list of arguments makes no field.
      let f' := if f.current == some [] then { f with current := none } else f
      f'.addEach (sh.arguments.drop 1)
    else if inQuotes then f.add false (sh.value name).toList
    else f.addSplit (sh.value name).toList

def matchesName : List Mark → List Char → Bool
  | [], cs => cs.isEmpty
  | ('*', true) :: ms, [] => matchesName ms []
  | ('*', true) :: ms, c :: cs => matchesName ms (c :: cs) || matchesName (('*', true) :: ms) cs
  | _ :: _, [] => false
  | (m, active) :: ms, c :: cs => ((m == '?' && active) || m == c) && matchesName ms cs
termination_by ms cs => ms.length + cs.length

def isPattern (ms : List Mark) : Bool := ms.any fun m => m.2 && (m.1 == '*' || m.1 == '?')

def letters (ms : List Mark) : List Char := ms.map fun m => m.1

/-- The names that a field stands for. -/
def expand (sh : Shell) (ms : List Mark) : List String :=
  if isPattern ms then
    let base := (ms.reverse.takeWhile fun m => m.1 != '/').reverse
    let dir := ms.take (ms.length - base.length)
    let dirText := String.ofList (letters dir)
    match sh.view.list (if dirText.isEmpty then "." else dirText) with
    | .ok entries =>
      let names := entries.filterMap fun e => Path.fileName? e.path
      let shown := names.filter fun n =>
        (n.toList.head? != some '.' || (letters base).head? == some '.') &&
          matchesName base n.toList
      if shown.isEmpty then [String.ofList (letters ms)] else shown.map fun n => dirText ++ n
    | .error _ => [String.ofList (letters ms)]
  else [String.ofList (letters ms)]

/-- The texts that a word stands for. -/
def fields (sh : Shell) (w : Word) : List String :=
  ((w.foldl sh.addPiece .start).close.closed).flatMap sh.expand

/-- The one text that a word stands for. -/
def single (sh : Shell) (w : Word) : String := spaced (sh.fields w)

/-! ## Commands that are known -/

def put (sh : Shell) (bytes : List UInt8) : Shell := { sh with output := sh.output ++ bytes }

def say (sh : Shell) (text : String) : Shell := sh.put (Files.View.encode text)

def complain (sh : Shell) (text : String) : Shell :=
  { sh with complaint := sh.complaint ++ Files.View.encode (text ++ "\n") }

def leave (sh : Shell) (e : Exit) : Shell := { sh with ended := some e }

def end_ (sh : Shell) (status : Nat) : Shell := { sh with status }

/-- Goes on in a changed tree, or complains. -/
def change (sh : Shell) (what : String) (r : Except Files.Fault Files.Store) : Shell :=
  match r with
  | .ok store => { sh with view := { sh.view with store }, status := 0 }
  | .error fault => (sh.complain (what ++ ": " ++ fault.message)).end_ 1

/-- The place where something new can stand. -/
def freePlace (sh : Shell) (path : String) : Except Files.Fault Files.Place :=
  match sh.view.store.place sh.view.cwd false path with
  | .error fault => .error fault
  | .ok p => if (sh.view.store.at? p).isSome then .error .alreadyExists else .ok p

/-- Puts something new at a path. -/
def putNew (sh : Shell) (path : String) (e : Files.Entry) : Except Files.Fault Files.Store :=
  (sh.freePlace path).map fun p => sh.view.store.put p e

/-- Removes a tree or a file; if forced, nothing is said of what is not there. -/
def removePath (recursive forced : Bool) (sh : Shell) (path : String) : Shell :=
  match sh.view.store.place sh.view.cwd false path with
  | .error .notFound => if forced then sh else sh.change "rm" (.error .notFound)
  | .error fault => if forced then sh else sh.change "rm" (.error fault)
  | .ok p =>
    match sh.view.store.at? p with
    | none => if forced then sh else sh.change "rm" (.error .notFound)
    | some .directory =>
      if recursive then
        let kept := sh.view.store.entries.filter fun e => !p.isPrefixOf e.1
        { sh with view := { sh.view with store := ⟨kept⟩ } }
      else sh.change "rm" (.error .isADirectory)
    | some _ => { sh with view := { sh.view with store := sh.view.store.erase p } }

/-- The mode lets somebody run the file. -/
def modeRuns (mode : String) : Option Bool :=
  if mode.toList.all fun c => '0' ≤ c && c ≤ '7' then
    some (mode.toList.any fun c => (c.toNat - '0'.toNat) % 2 == 1)
  else if mode.toList.contains 'x' then some (mode.toList.contains '+')
  else none

/-- Changes whether a file can be run. -/
def setMode (sh : Shell) (mode path : String) : Shell :=
  match sh.view.store.place sh.view.cwd true path with
  | .error fault => sh.change "chmod" (.error fault)
  | .ok p =>
    match sh.view.store.at? p, modeRuns mode with
    | none, _ => sh.change "chmod" (.error .notFound)
    | some (.file bytes _), some runs =>
      sh.change "chmod" (.ok (sh.view.store.put p (.file bytes runs)))
    | some _, _ => sh.end_ 0

/-- The value of the octal digits of an escape, at most three, and the rest. -/
def octal (cs : List Char) : Nat × List Char :=
  let ds := (cs.take 3).takeWhile fun c => '0' ≤ c && c ≤ '7'
  (ds.foldl (fun n c => n * 8 + (c.toNat - '0'.toNat)) 0, cs.drop ds.length)

def bytesOf (cs : List Char) : List UInt8 := Files.View.encode (String.ofList cs)

def formatEscape (c : Char) : List Char :=
  if c == 'n' then ['\n'] else if c == 't' then ['\t'] else if c == 'r' then ['\r']
  else if c == 'a' then ['\x07'] else if c == '\\' || c == '"' then [c] else ['\\', c]

/-- What a format says for the texts; the texts that are left, and whether any was used.
The first argument bounds the number of steps. -/
def formatOnce : Nat → List Char → List String → List UInt8 × List String × Bool
  | 0, _, args => ([], args, false)
  | _ + 1, [], args => ([], args, false)
  | n + 1, '\\' :: c :: cs, args =>
    if '0' ≤ c && c ≤ '7' then
      let o := octal (c :: cs)
      let r := formatOnce n o.2 args
      (UInt8.ofNat o.1 :: r.1, r.2)
    else
      let r := formatOnce n cs args
      (bytesOf (formatEscape c) ++ r.1, r.2)
  | n + 1, '%' :: c :: cs, args =>
    if c == '%' then
      let r := formatOnce n cs args
      (bytesOf ['%'] ++ r.1, r.2)
    else if c == 's' || c == 'd' then
      let r := formatOnce n cs (args.drop 1)
      (bytesOf (args.getD 0 "").toList ++ r.1, r.2.1, true)
    else
      let r := formatOnce n cs args
      (bytesOf ['%', c] ++ r.1, r.2)
  | n + 1, c :: cs, args =>
    let r := formatOnce n cs args
    (bytesOf [c] ++ r.1, r.2)

/-- What a format says; it is used again while texts are left. -/
def formatted : Nat → List Char → List String → List UInt8
  | 0, _, _ => []
  | n + 1, format, args =>
    let r := formatOnce (format.length + 1) format args
    if r.2.2 && !r.2.1.isEmpty then r.1 ++ formatted n format r.2.1 else r.1

/-- The signals that can be sent by name. -/
def signalNumbers : List (String × Nat) :=
  [("HUP", 1), ("INT", 2), ("QUIT", 3), ("ILL", 4), ("TRAP", 5), ("ABRT", 6), ("BUS", 7),
   ("FPE", 8), ("KILL", 9), ("USR1", 10), ("SEGV", 11), ("USR2", 12), ("PIPE", 13),
   ("ALRM", 14), ("TERM", 15)]

/-- The signal that the words of a command ask for. -/
def signalOf (words : List String) : Nat :=
  match words with
  | first :: rest =>
    let name := (if first == "-s" then rest.headD "" else first).toList.dropWhile (· == '-')
    let short := if List.isPrefixOf "SIG".toList name then name.drop 3 else name
    match (String.ofList name).toNat? with
    | some n => if first.toList.head? == some '-' then n else 15
    | none =>
      match signalNumbers.find? fun e => e.1.toList == short with
      | some e => e.2
      | none => 15
  | [] => 15

/-- What a test of one path or text says. -/
def unaryTest (sh : Shell) (mark text : String) : Bool :=
  match mark with
  | "-n" => !text.isEmpty
  | "-z" => text.isEmpty
  | "-f" => sh.view.isFile text
  | "-e" => sh.view.exists? text
  | "-r" => sh.view.exists? text
  | "-w" => sh.view.exists? text
  | "-d" =>
    match sh.view.find text with
    | .ok .directory => true
    | _ => false
  | "-x" =>
    match sh.view.find text with
    | .ok (.file _ executable) => executable
    | .ok _ => true
    | .error _ => false
  | "-s" =>
    match sh.view.readBytes text with
    | .ok bytes => !bytes.isEmpty
    | .error fault => fault == .isADirectory
  | "-L" | "-h" =>
    match sh.view.store.place sh.view.cwd false text with
    | .ok p =>
      match sh.view.store.at? p with
      | some (.link _) => true
      | _ => false
    | .error _ => false
  | _ => false

/-- What a test of two texts or numbers says. -/
def binaryTest (a mark b : String) : Bool :=
  let numbers := fun (p : Nat → Nat → Bool) =>
    match a.toNat?, b.toNat? with
    | some m, some n => p m n
    | _, _ => false
  match mark with
  | "=" | "==" => a == b
  | "!=" => a != b
  | "-eq" => numbers fun m n => m == n
  | "-ne" => numbers fun m n => m != n
  | "-lt" => numbers fun m n => decide (m < n)
  | "-le" => numbers fun m n => decide (m ≤ n)
  | "-gt" => numbers fun m n => decide (n < m)
  | "-ge" => numbers fun m n => decide (n ≤ m)
  | _ => false

/-- What a test says. -/
def test (sh : Shell) : List String → Bool
  | "!" :: words => !sh.test words
  | [text] => !text.isEmpty
  | [mark, text] => sh.unaryTest mark text
  | [a, mark, b] => binaryTest a mark b
  | _ => false

/-- The words that are not options. -/
def operands (words : List String) : List String :=
  words.filter fun w => w.toList.head? != some '-'

/-- An option with this letter is given. -/
def hasOption (letter : Char) (words : List String) : Bool :=
  words.any fun w => w.toList.head? == some '-' && w.toList.contains letter

def runKnown (sh : Shell) (name : String) (words : List String) : Shell :=
  match name with
  | ":" | "true" => sh.end_ 0
  | "false" => sh.end_ 1
  | "exit" =>
    sh.leave (.code (((words.head?.bind String.toNat?).getD sh.status) % 256))
  | "kill" =>
    if words.contains processNumber then sh.leave (.signal (signalOf words)) else sh.end_ 1
  | "test" => sh.end_ (if sh.test words then 0 else 1)
  | "[" => sh.end_ (if sh.test words.dropLast then 0 else 1)
  | "exec" | "set" | "export" | "unset" | "sleep" | "umask" => sh.end_ 0
  | "shift" =>
    { sh with arguments := sh.arguments.take 1 ++ sh.arguments.drop 2, status := 0 }
  | "echo" => (sh.say (spaced words ++ "\n")).end_ 0
  | "printf" =>
    match words with
    | format :: args =>
      (sh.put (formatted (args.length + 1) format.toList args)).end_ 0
    | [] => sh.end_ 2
  | "pwd" => (sh.say (sh.view.cwd.path ++ "\n")).end_ 0
  | "cd" =>
    match sh.view.store.place sh.view.cwd true (words.getD 0 "/") with
    | .ok p =>
      if sh.view.store.at? p = some .directory then
        { sh with view := { sh.view with cwd := p }, status := 0 }
      else sh.end_ 2
    | .error _ => sh.end_ 2
  | "rm" =>
    (operands words).foldl (removePath (hasOption 'r' words) (hasOption 'f' words)) (sh.end_ 0)
  | "mkdir" =>
    (operands words).foldl
      (fun sh path =>
        if hasOption 'p' words then
          match sh.view.store.place sh.view.cwd true path with
          | .ok p =>
            if (sh.view.store.at? p).isSome then sh
            else sh.change "mkdir" (.ok (sh.view.store.put p .directory))
          | .error fault => sh.change "mkdir" (.error fault)
        else sh.change "mkdir" (sh.putNew path .directory))
      (sh.end_ 0)
  | "ln" =>
    match operands words with
    | [target, path] => sh.change "ln" (sh.putNew path (.link target))
    | _ => sh.end_ 1
  | "chmod" =>
    match words with
    | mode :: paths => paths.foldl (fun sh path => sh.setMode mode path) (sh.end_ 0)
    | [] => sh.end_ 1
  | "rmdir" =>
    (operands words).foldl
      (fun sh path =>
        match sh.view.list path with
        | .ok [] => removePath true false sh path
        | .ok _ => sh.change "rmdir" (.error .notEmpty)
        | .error fault => sh.change "rmdir" (.error fault))
      (sh.end_ 0)
  | "mv" =>
    match operands words with
    | [path, target] =>
      match sh.view.store.place sh.view.cwd false path with
      | .error fault => sh.change "mv" (.error fault)
      | .ok p =>
        match sh.view.store.at? p, sh.view.store.place sh.view.cwd false target with
        | some (.file bytes runs), .ok q =>
          sh.change "mv" (.ok ((sh.view.store.erase p).put q (.file bytes runs)))
        | some (.link to_), .ok q =>
          sh.change "mv" (.ok ((sh.view.store.erase p).put q (.link to_)))
        | _, _ => sh.change "mv" (.error .notFound)
    | _ => sh.end_ 1
  | "touch" =>
    (operands words).foldl
      (fun sh path =>
        if sh.view.exists? path then sh else sh.change "touch" (sh.view.write path []))
      (sh.end_ 0)
  | "cat" =>
    (operands words).foldl
      (fun sh path =>
        match sh.view.readBytes path with
        | .ok bytes => sh.put bytes
        | .error fault => sh.change "cat" (.error fault))
      (sh.end_ 0)
  | "cp" =>
    match operands words with
    | [path, target] =>
      match sh.view.readBytes path with
      | .ok bytes => sh.change "cp" (sh.view.write target bytes)
      | .error fault => sh.change "cp" (.error fault)
    | _ => sh.end_ 1
  | _ => (sh.complain (sh.arguments.getD 0 "sh" ++ ": " ++ name ++ ": not found")).end_ 127

/-! ## Running -/

/-- Where a stream goes. -/
inductive Sink
  | output
  | complaint
  | file (path : String)
  deriving DecidableEq, Repr

/-- Where the two streams go behind a redirection. -/
def redirect (sh : Shell) (sinks : Sink × Sink) : Redirection → Sink × Sink
  | .into stream _ file =>
    if stream == 2 then (sinks.1, .file (sh.single file)) else (.file (sh.single file), sinks.2)
  | .like stream other =>
    let target := if other == 2 then sinks.2 else sinks.1
    if stream == 2 then (sinks.1, target) else (target, sinks.2)

/-- Sends bytes to where a stream goes. -/
def send (bytes : List UInt8) (sh : Shell) : Sink → Shell
  | .output => { sh with output := sh.output ++ bytes }
  | .complaint => { sh with complaint := sh.complaint ++ bytes }
  | .file path =>
    let before := (sh.view.readBytes path).toOption.getD []
    match sh.view.write path (before ++ bytes) with
    | .ok store => { sh with view := { sh.view with store } }
    | .error fault => (sh.complain (path ++ ": " ++ fault.message)).end_ 2

def openFile (sh : Shell) : Redirection → Shell
  | .into _ false file =>
    match sh.view.write (sh.single file) [] with
    | .ok store => { sh with view := { sh.view with store } }
    | .error _ => sh
  | _ => sh

/-- The name and the value, if the word assigns one. -/
def assignment? (w : Word) : Option (String × Word) :=
  let isPlain := fun (p : Char → Bool) (piece : Piece) =>
    match piece with
    | .plain c => p c
    | _ => false
  let name := bareText (w.takeWhile (isPlain isNamePart))
  match w.dropWhile (isPlain isNamePart) with
  | .plain '=' :: value => if name.toList.head?.any isNameStart then some (name, value) else none
  | _ => none

/-- The word with its variables in quotes, so that they are not split. -/
def unsplit (w : Word) : Word :=
  w.map fun p =>
    match p with
    | .variable name _ => .variable name true
    | _ => p

/-- Assigns what the words at the front assign; the other words are left. -/
def assignAll (sh : Shell) : List Word → Shell × List Word
  | [] => (sh, [])
  | w :: ws =>
    match assignment? w with
    | some (name, value) =>
      let bindings := (name, sh.single (unsplit value)) :: sh.bindings
      assignAll { sh with bindings, status := 0 } ws
    | none => (sh, w :: ws)

/-- The directories whose programs are known by their names. -/
def programDirs : List String := ["/bin/", "/usr/bin/"]

/-- The name of a command without its directory. -/
def commandName (name : String) : String :=
  match programDirs.find? fun d => d.toList.isPrefixOf name.toList with
  | some d => String.ofList (name.toList.drop d.toList.length)
  | none => name

/-- Goes on with redirections in force. -/
def redirected (sh : Shell) (redirections : List Redirection) (f : Shell → Shell) : Shell :=
  let sinks := redirections.foldl sh.redirect (.output, .complaint)
  let opened := redirections.foldl openFile sh
  let inner := f { opened with output := [], complaint := [] }
  let after := { inner with output := sh.output, complaint := sh.complaint }
  (after.send inner.output sinks.1 |>.send inner.complaint) sinks.2

def runSimple (sh : Shell) (words : List Word) (redirections : List Redirection) : Shell :=
  let assigned := sh.assignAll words
  let sh := assigned.1
  let texts := assigned.2.flatMap sh.fields
  sh.redirected redirections fun opened =>
    let replaces := texts.head? == some "exec" && 1 < texts.length
    match if replaces then texts.drop 1 else texts with
    | [] => opened
    | name :: args =>
      let ran := opened.runKnown (commandName name) args
      if replaces && ran.ended.isNone then ran.leave (.code ran.status) else ran

/-- The pattern that a word makes suits the text. -/
def suits (sh : Shell) (w : Word) (text : String) : Bool :=
  match ((unsplit w).foldl sh.addPiece .start).close.closed with
  | [ms] => matchesName ms text.toList
  | _ => text.isEmpty

mutual
/-- Runs a command. The first argument bounds the depth. -/
def runCommand : Nat → Shell → Rehearsal.Command → Shell
  | 0, sh, _ => sh
  | n + 1, sh, c =>
    if sh.ended.isSome then sh
    else
      match c with
      | .simple words redirections => sh.runSimple words redirections
      | .forEach name items body => runLoop n name body sh (items.flatMap sh.fields)
      | .repeatWhile condition body => runWhile n condition body sh
      | .group body redirections =>
        sh.redirected redirections fun inner => runAll n inner body
      | .negated c =>
        let sh' := runCommand n sh c
        if sh'.status == 0 then sh'.end_ 1 else sh'.end_ 0
      | .choose subject branches =>
        match branches.find? fun b => b.1.any fun w => sh.suits w (sh.single (unsplit subject)) with
        | some b => runAll n (sh.end_ 0) b.2
        | none => sh.end_ 0
      | .ifThen condition yes no =>
        let sh' := runAll n sh condition
        if sh'.status == 0 then runAll n sh' yes else runAll n sh' no
      | .andThen a b =>
        let sh' := runCommand n sh a
        if sh'.status == 0 then runCommand n sh' b else sh'
      | .orElse a b =>
        let sh' := runCommand n sh a
        if sh'.status == 0 then sh' else runCommand n sh' b

/-- Runs commands one after the other. -/
def runAll : Nat → Shell → List Rehearsal.Command → Shell
  | 0, sh, _ => sh
  | _ + 1, sh, [] => sh
  | n + 1, sh, c :: cs => runAll n (runCommand n sh c) cs

/-- Runs the body of a loop as long as the condition ends well. -/
def runWhile : Nat → List Rehearsal.Command → List Rehearsal.Command → Shell → Shell
  | 0, _, _, sh => sh
  | n + 1, condition, body, sh =>
    let sh' := runAll n sh condition
    if sh'.ended.isSome then sh'
    else if sh'.status == 0 then runWhile n condition body (runAll n sh' body)
    else sh'.end_ 0

/-- Runs the body of a loop for each text. -/
def runLoop : Nat → String → List Rehearsal.Command → Shell → List String → Shell
  | 0, _, _, sh, _ => sh
  | _ + 1, _, _, sh, [] => sh
  | n + 1, name, body, sh, item :: items =>
    runLoop n name body
      (runAll n { sh with bindings := (name, item) :: sh.bindings } body) items
end

/-- How a script ended: by itself, or with the status of its last command. -/
def exit (sh : Shell) : Exit := sh.ended.getD (.code sh.status)

end Shell

def runScript (view : Files.View) (arguments : List String) (environment : List (String × String))
    (text : List Char) : Shell :=
  Shell.runAll (1000 + text.length) ⟨view, arguments, environment, 0, [], [], none⟩
    (commandsOf text)

end Graft.Rehearsal
