import Bhasha.Text.Bytes

/-!
# Kinds of tokens

The brackets, marks, operators and reserved words of the language, the three kinds of free
spelling, and the end of the input.  Every kind has a number and a name; a number that names no
kind is kept as it is, so a token list from elsewhere can be represented faithfully.

Source: benglang, package `lexer`: `TokenType` with `tokenTypeStrings`, `keywords`, `LookupKeyword`,
`spellings` and `Spelling`.
-/

namespace Bhasha

/-- What a token is. -/
inductive Kind where
  | leftParen | rightParen | leftBrace | rightBrace
  | comma | dot | minus | plus | semicolon | slash | star
  | bang | bangEqual | equal | equalEqual
  | greater | greaterEqual | less | lessEqual
  | identifier | string | number
  | and | class_ | else_ | false_ | fun_ | for_ | if_ | nil | or | print | return_ | super | this
  | true_ | var | while_
  | eof
  /-- A number outside the table of kinds. -/
  | unnamed (code : Int)
deriving DecidableEq, Repr

namespace Kind

/-- The named kinds in the order of their numbers. -/
def all : List Kind := [
  .leftParen, .rightParen, .leftBrace, .rightBrace,
  .comma, .dot, .minus, .plus, .semicolon, .slash, .star,
  .bang, .bangEqual, .equal, .equalEqual,
  .greater, .greaterEqual, .less, .lessEqual,
  .identifier, .string, .number,
  .and, .class_, .else_, .false_, .fun_, .for_, .if_, .nil, .or, .print, .return_, .super, .this,
  .true_, .var, .while_,
  .eof]

/-- The number of a kind. -/
def code : Kind → Int
  | .unnamed n => n
  | kind => all.idxOf kind

/-- The kind with a given number. -/
def ofCode : Int → Kind
  | .ofNat n => (all[n]?).getD (.unnamed n)
  | .negSucc n => .unnamed (.negSucc n)

theorem code_getElem : ∀ place : Fin all.length, (all[place]).code = place := by decide

/-- Every number is that of its kind. -/
theorem code_ofCode (n : Int) : (ofCode n).code = n := by
  cases n with
  | negSucc n => rfl
  | ofNat n =>
    rw [ofCode]
    by_cases named : n < all.length
    · rw [List.getElem?_eq_getElem named]
      exact code_getElem ⟨n, named⟩
    · rw [List.getElem?_eq_none (Nat.le_of_not_lt named)]
      rfl

/-- A kind of the table is that of its number. -/
theorem ofCode_code {kind : Kind} (named : kind ∈ all) : ofCode kind.code = kind := by
  revert kind
  decide

/-- The name of a kind. -/
def name : Kind → Text
  | .leftParen => text "LEFT_PAREN"
  | .rightParen => text "RIGHT_PAREN"
  | .leftBrace => text "LEFT_BRACE"
  | .rightBrace => text "RIGHT_BRACE"
  | .comma => text "COMMA"
  | .dot => text "DOT"
  | .minus => text "MINUS"
  | .plus => text "PLUS"
  | .semicolon => text "SEMICOLON"
  | .slash => text "SLASH"
  | .star => text "STAR"
  | .bang => text "BANG"
  | .bangEqual => text "BANG_EQUAL"
  | .equal => text "EQUAL"
  | .equalEqual => text "EQUAL_EQUAL"
  | .greater => text "GREATER"
  | .greaterEqual => text "GREATER_EQUAL"
  | .less => text "LESS"
  | .lessEqual => text "LESS_EQUAL"
  | .identifier => text "IDENTIFIER"
  | .string => text "STRING"
  | .number => text "NUMBER"
  | .and => text "AND"
  | .class_ => text "CLASS"
  | .else_ => text "ELSE"
  | .false_ => text "FALSE"
  | .fun_ => text "FUN"
  | .for_ => text "FOR"
  | .if_ => text "IF"
  | .nil => text "NIL"
  | .or => text "OR"
  | .print => text "PRINT"
  | .return_ => text "RETURN"
  | .super => text "SUPER"
  | .this => text "THIS"
  | .true_ => text "TRUE"
  | .var => text "VAR"
  | .while_ => text "WHILE"
  | .eof => text "EOF"
  | .unnamed n => text "TokenType(" ++ Text.ofInt n ++ text ")"

/-- The reserved word of a kind; empty for a kind that is no reserved word. -/
def spelling : Kind → Text
  | .and => text "and"
  | .class_ => text "class"
  | .else_ => text "nahole"
  | .false_ => text "bhul"
  | .fun_ => text "kormo"
  | .for_ => text "jokhon"
  | .if_ => text "jodi"
  | .nil => text "nil"
  | .or => text "or"
  | .print => text "lekho"
  | .return_ => text "return"
  | .super => text "super"
  | .this => text "this"
  | .true_ => text "thik"
  | .var => text "dhoro"
  | .while_ => text "jotokhon"
  | _ => []

/-- The kinds that have a reserved word. -/
def reserved : List Kind := [
  .and, .class_, .else_, .false_, .fun_, .for_, .if_, .nil, .or, .print, .return_, .super, .this,
  .true_, .var, .while_]

/-- The kind that a word is reserved for. -/
def ofWord? (word : Text) : Option Kind := reserved.find? (·.spelling == word)

/-- The kind of a word: reserved, or an identifier. -/
def ofWord (word : Text) : Kind := (ofWord? word).getD .identifier

end Kind

end Bhasha
