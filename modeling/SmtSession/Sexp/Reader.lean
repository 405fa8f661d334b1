import SmtSession.Sexp.Basic
import SmtSession.Text.Basic

namespace SmtSession.Sexp

/-- Where the lexer is. Characters of an unfinished atom are kept last first. -/
inductive LexMode where
  | gap
  | comment
  | word (read : List Char)
  | string (read : List Char)
  /-- After a quote in a string: its end, unless another quote follows. -/
  | stringQuote (read : List Char)
  | symbol (read : List Char)
  deriving DecidableEq, Repr

structure Lexer where
  mode : LexMode := .gap
  /-- The finished tokens, last first. -/
  found : List Token := []
  deriving DecidableEq, Repr

namespace Lexer

def endsWord (c : Char) : Bool :=
  c == '(' || c == ')' || c == '"' || c == ';' || Text.isBlank c

def emit (token : Token) (lexer : Lexer) : Lexer :=
  { mode := .gap, found := token :: lexer.found }

/-- The unfinished atom is complete. -/
def emitAtom (read : List Char) (lexer : Lexer) : Lexer :=
  lexer.emit (.atom (String.ofList read.reverse))

/-- A character outside every atom and comment. -/
def feedGap (c : Char) (lexer : Lexer) : Lexer :=
  if c = '(' then lexer.emit .opening
  else if c = ')' then lexer.emit .closing
  else if c = ';' then { lexer with mode := .comment }
  else if c = '"' then { lexer with mode := .string [c] }
  else if c = '|' then { lexer with mode := .symbol [c] }
  else if Text.isBlank c then { lexer with mode := .gap }
  else { lexer with mode := .word [c] }

def feed (lexer : Lexer) (c : Char) : Lexer :=
  match lexer.mode with
  | .gap => lexer.feedGap c
  | .comment => if c = '\n' then { lexer with mode := .gap } else lexer
  | .word read =>
    if endsWord c then (lexer.emitAtom read).feedGap c else { lexer with mode := .word (c :: read) }
  | .string read =>
    { lexer with mode := if c = '"' then .stringQuote (c :: read) else .string (c :: read) }
  | .stringQuote read =>
    if c = '"' then { lexer with mode := .string (c :: read) } else (lexer.emitAtom read).feedGap c
  | .symbol read =>
    if c = '|' then lexer.emitAtom (c :: read) else { lexer with mode := .symbol (c :: read) }

def finish (lexer : Lexer) : Except SexpError (List Token) :=
  match lexer.mode with
  | .gap | .comment => .ok lexer.found.reverse
  | .word read | .stringQuote read => .ok (lexer.emitAtom read).found.reverse
  | .string _ => .error .unterminatedString
  | .symbol _ => .error .unterminatedSymbol

def run (lexer : Lexer) (cs : List Char) : Lexer := cs.foldl feed lexer

theorem run_append (lexer : Lexer) (front back : List Char) :
    lexer.run (front ++ back) = (lexer.run front).run back := List.foldl_append

end Lexer

def tokenize (cs : List Char) : Except SexpError (List Token) := (Lexer.run {} cs).finish

/-- A partly read forest; every list of items is kept last first. -/
structure Forest where
  /-- The lists not yet closed, innermost first. -/
  openLists : List (List Sexp) := []
  finished : List Sexp := []
  deriving DecidableEq, Repr

namespace Forest

def add (tree : Sexp) (forest : Forest) : Forest :=
  match forest.openLists with
  | [] => { forest with finished := tree :: forest.finished }
  | inner :: outer => { forest with openLists := (tree :: inner) :: outer }

def feed (forest : Forest) : Token → Except SexpError Forest
  | .atom text => .ok (forest.add (.atom text))
  | .opening => .ok { forest with openLists := [] :: forest.openLists }
  | .closing =>
    match forest.openLists with
    | [] => .error .unexpectedClosing
    | inner :: outer => .ok ({ forest with openLists := outer }.add (.list inner.reverse))

def finish (forest : Forest) : Except SexpError (List Sexp) :=
  if forest.openLists.isEmpty then .ok forest.finished.reverse else .error .unbalanced

/-- Feed tokens until the first that does not fit. -/
def run (forest : Forest) : List Token → Except SexpError Forest
  | [] => .ok forest
  | token :: rest =>
    match forest.feed token with
    | .error err => .error err
    | .ok next => next.run rest

end Forest

def ofTokens (tokens : List Token) : Except SexpError (List Sexp) :=
  match Forest.run {} tokens with
  | .error err => .error err
  | .ok forest => forest.finish

def readAllChars (cs : List Char) : Except SexpError (List Sexp) :=
  match tokenize cs with
  | .error err => .error err
  | .ok tokens => ofTokens tokens

def readAll (text : String) : Except SexpError (List Sexp) := readAllChars text.toList

/-- The single S-expression of a text. -/
def read (text : String) : Except SexpError Sexp :=
  match readAll text with
  | .error err => .error err
  | .ok [] => .error .empty
  | .ok [tree] => .ok tree
  | .ok (_ :: _ :: _) => .error (.trailing text)

end SmtSession.Sexp
