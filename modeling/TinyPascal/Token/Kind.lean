/-!
# Kinds of tokens

A token is a keyword, a mark (an operator or a delimiter), a name, a literal, or the end of the
input. Keywords are recognised without regard to the case of ASCII letters.
-/
namespace TinyPascal

inductive Keyword where
  | program | var | begin | «end» | integer | «if» | «then» | «else» | «while» | «do» | read | write
deriving DecidableEq, Repr

namespace Keyword

def spelling : Keyword → String
  | program => "program"
  | var => "var"
  | begin => "begin"
  | «end» => "end"
  | integer => "integer"
  | «if» => "if"
  | «then» => "then"
  | «else» => "else"
  | «while» => "while"
  | «do» => "do"
  | read => "read"
  | write => "write"

def all : List Keyword :=
  [program, var, begin, «end», integer, «if», «then», «else», «while», «do», read, write]

/-- The reserved word that `word` spells once its ASCII letters are in lower case. -/
def ofWord? (word : String) : Option Keyword :=
  all.find? fun keyword => keyword.spelling == word.map Char.toLower

end Keyword

inductive Mark where
  | plus | minus | star | slash
  | assign
  | equal | notEqual | less | lessEqual | greater | greaterEqual
  | semicolon | dot | comma | colon | leftParen | rightParen
deriving DecidableEq, Repr

namespace Mark

def spelling : Mark → String
  | plus => "+"
  | minus => "-"
  | star => "*"
  | slash => "/"
  | assign => ":="
  | equal => "="
  | notEqual => "<>"
  | less => "<"
  | lessEqual => "<="
  | greater => ">"
  | greaterEqual => ">="
  | semicolon => ";"
  | dot => "."
  | comma => ","
  | colon => ":"
  | leftParen => "("
  | rightParen => ")"

/-- Whether a mark is an operator; the others are delimiters. -/
def isOperator : Mark → Bool
  | semicolon | dot | comma | colon | leftParen | rightParen => false
  | _ => true

end Mark

inductive TokenKind where
  | keyword (word : Keyword)
  | mark (mark : Mark)
  | identifier
  | integerLiteral
  | stringLiteral
  | endOfInput
deriving DecidableEq, Repr

inductive TokenCategory where
  | keyword | operator | delimiter | identifier | integerLiteral | stringLiteral | endOfInput
deriving DecidableEq, Repr

namespace TokenKind

def category : TokenKind → TokenCategory
  | keyword _ => .keyword
  | mark m => if m.isOperator then .operator else .delimiter
  | identifier => .identifier
  | integerLiteral => .integerLiteral
  | stringLiteral => .stringLiteral
  | endOfInput => .endOfInput

/-- The kind of a word: a keyword if it spells one, and a name otherwise. -/
def ofWord (word : String) : TokenKind :=
  match Keyword.ofWord? word with
  | some k => keyword k
  | none => identifier

end TokenKind

end TinyPascal
