namespace LineBasic

inductive Keyword
  | LET | LIST | PRINT | RUN | FOR | NEXT | IF | THEN | ELSE | EXIT | STEP | GOTO | GOSUB | INPUT
  | REM | RETURN | SAVE | LOAD | TO | NEW | STOP | ON | DIM | RANDOMIZE | DATA | READ | AND | OR
  | NOT | OPEN | CLOSE | FSEEK | RESTORE | APPEND | OUTPUT | CLEAR | CURSOR
  deriving DecidableEq, Repr

inductive Function
  | POW | SQR | ABS | RND | ATN | COS | EXP | LOG | SIN | TAN | INT | CHR | ASC | STR | MID | IFF
  | VAL | LEN | UPPER | LOWER | ROUND | MAX | MIN | INSTR | PI | RNDINT | TAB | LEFT | RIGHT
  deriving DecidableEq, Repr

inductive Mark
  | equals | opening | closing | plus | minus | times | divide | modulo | lesser | greater
  | notEqual | lessEqual | greaterEqual | comma | colon | semicolon | hash
  deriving DecidableEq, Repr

inductive Category
  | integer
  | decimal
  | text
  | name
  | keyword (k : Keyword)
  | function (f : Function)
  | mark (m : Mark)
  deriving DecidableEq, Repr

namespace Keyword

def code : Keyword → Nat
  | LET => 1 | LIST => 2 | PRINT => 3 | RUN => 4 | FOR => 5 | NEXT => 6 | IF => 7 | THEN => 8
  | ELSE => 9 | EXIT => 20 | STEP => 24 | GOTO => 25 | GOSUB => 26 | INPUT => 27 | REM => 28
  | RETURN => 29 | SAVE => 30 | LOAD => 31 | TO => 37 | NEW => 38 | STOP => 41 | ON => 43
  | DIM => 47 | RANDOMIZE => 48 | DATA => 56 | READ => 57 | AND => 73 | OR => 74 | NOT => 75
  | OPEN => 78 | CLOSE => 80 | FSEEK => 81 | RESTORE => 82 | APPEND => 83 | OUTPUT => 84
  | CLEAR => 89 | CURSOR => 90

end Keyword

namespace Function

def code : Function → Nat
  | POW => 44 | SQR => 45 | ABS => 46 | RND => 49 | ATN => 50 | COS => 51 | EXP => 52 | LOG => 53
  | SIN => 54 | TAN => 55 | INT => 58 | CHR => 59 | ASC => 60 | STR => 61 | MID => 62 | IFF => 64
  | VAL => 65 | LEN => 66 | UPPER => 67 | LOWER => 68 | ROUND => 69 | MAX => 70 | MIN => 71
  | INSTR => 72 | PI => 76 | RNDINT => 77 | TAB => 85 | LEFT => 87 | RIGHT => 88

end Function

namespace Mark

def code : Mark → Nat
  | equals => 10 | opening => 11 | closing => 12 | plus => 13 | minus => 14 | times => 15
  | divide => 16 | greater => 22 | lesser => 23 | notEqual => 32 | lessEqual => 33
  | greaterEqual => 34 | comma => 40 | colon => 42 | modulo => 63 | hash => 79 | semicolon => 86

def ofChar? : Char → Option Mark
  | '=' => some equals
  | '(' => some opening
  | ')' => some closing
  | '+' => some plus
  | '-' => some minus
  | '*' => some times
  | '/' => some divide
  | '<' => some lesser
  | '>' => some greater
  | ',' => some comma
  | ':' => some colon
  | '%' => some modulo
  | '#' => some hash
  | ';' => some semicolon
  | _ => none

def ofPair? (c : Char) (rest : List Char) : Option Mark :=
  match c, rest with
  | '<', '>' :: _ => some notEqual
  | '<', '=' :: _ => some lessEqual
  | '>', '=' :: _ => some greaterEqual
  | _, _ => none

end Mark

namespace Category

def code : Category → Nat
  | integer => 18
  | name => 19
  | decimal => 35
  | text => 36
  | keyword k => k.code
  | function f => f.code
  | mark m => m.code

def labels : List String :=
  ["EOF", "LET", "LIST", "PRINT", "RUN", "FOR", "NEXT", "IF", "THEN", "ELSE", "ASSIGNOP",
    "LEFTPAREN", "RIGHTPAREN", "PLUS", "MINUS", "TIMES", "DIVIDE", "NEWLINE", "UNSIGNEDINT",
    "NAME", "EXIT", "DIM", "GREATER", "LESSER", "STEP", "GOTO", "GOSUB", "INPUT", "REM",
    "RETURN", "SAVE", "LOAD", "NOTEQUAL", "LESSEQUAL", "GREATEQUAL", "UNSIGNEDFLOAT", "STRING",
    "TO", "NEW", "EQUAL", "COMMA", "STOP", "COLON", "ON", "POW", "SQR", "ABS", "DIM",
    "RANDOMIZE", "RND", "ATN", "COS", "EXP", "LOG", "SIN", "TAN", "DATA", "READ", "INT", "CHR",
    "ASC", "STR", "MID", "MODULO", "TERNARY", "VAL", "LEN", "UPPER", "LOWER", "ROUND", "MAX",
    "MIN", "INSTR", "AND", "OR", "NOT", "PI", "RNDINT", "OPEN", "HASH", "CLOSE", "FSEEK",
    "APPEND", "OUTPUT", "RESTORE", "RNDINT", "TAB", "SEMICOLON", "LEFT", "RIGHT", "CLEAR"]

/-- The name shown for a category. From code 82 on the labels belong to other categories:
`RESTORE` is shown as `APPEND`, a semicolon as `TAB`. -/
def label (c : Category) : String := labels.getD c.code ""

def words : List (String × Category) :=
  [("LET", keyword .LET), ("LIST", keyword .LIST), ("PRINT", keyword .PRINT),
    ("FOR", keyword .FOR), ("RUN", keyword .RUN), ("NEXT", keyword .NEXT), ("IF", keyword .IF),
    ("THEN", keyword .THEN), ("ELSE", keyword .ELSE), ("EXIT", keyword .EXIT),
    ("DIM", keyword .DIM), ("STEP", keyword .STEP), ("GOTO", keyword .GOTO),
    ("GOSUB", keyword .GOSUB), ("INPUT", keyword .INPUT), ("REM", keyword .REM),
    ("RETURN", keyword .RETURN), ("SAVE", keyword .SAVE), ("LOAD", keyword .LOAD),
    ("NEW", keyword .NEW), ("STOP", keyword .STOP), ("END", keyword .STOP), ("TO", keyword .TO),
    ("ON", keyword .ON), ("RANDOMIZE", keyword .RANDOMIZE), ("DATA", keyword .DATA),
    ("READ", keyword .READ), ("AND", keyword .AND), ("OR", keyword .OR), ("NOT", keyword .NOT),
    ("OPEN", keyword .OPEN), ("CLOSE", keyword .CLOSE), ("FSEEK", keyword .FSEEK),
    ("APPEND", keyword .APPEND), ("OUTPUT", keyword .OUTPUT), ("RESTORE", keyword .RESTORE),
    ("CLEAR", keyword .CLEAR), ("CURSOR", keyword .CURSOR), ("MOD", mark .modulo),
    ("POW", function .POW), ("SQR", function .SQR), ("ABS", function .ABS),
    ("RND", function .RND), ("ATN", function .ATN), ("COS", function .COS),
    ("EXP", function .EXP), ("LOG", function .LOG), ("SIN", function .SIN),
    ("TAN", function .TAN), ("INT", function .INT), ("CHR$", function .CHR),
    ("ASC", function .ASC), ("STR$", function .STR), ("MID$", function .MID),
    ("IF$", function .IFF), ("IFF", function .IFF), ("VAL", function .VAL),
    ("LEN", function .LEN), ("UPPER$", function .UPPER), ("LOWER$", function .LOWER),
    ("ROUND", function .ROUND), ("MAX", function .MAX), ("MIN", function .MIN),
    ("INSTR", function .INSTR), ("PI", function .PI), ("RNDINT", function .RNDINT),
    ("TAB", function .TAB), ("LEFT$", function .LEFT), ("RIGHT$", function .RIGHT)]

def ofWord (w : String) : Category := (words.lookup w).getD name

end Category

/-- A token starts at `column`. Only the end of a text that stops in white space has none of the
categories. -/
structure Token where
  column : Nat
  category : Option Category
  lexeme : String
  deriving DecidableEq, Repr

namespace Token

def isKeyword (t : Token) (k : Keyword) : Bool := t.category == some (.keyword k)

def isMark (t : Token) (m : Mark) : Bool := t.category == some (.mark m)

def describe? (t : Token) : Option String :=
  t.category.map fun c =>
    "Column: " ++ toString t.column ++ " Category: " ++ c.label ++ " Lexeme: " ++ t.lexeme ++ "\n"

def listed (t : Token) : String :=
  if t.category = some .text then "\"" ++ t.lexeme ++ "\" " else t.lexeme ++ " "

end Token

end LineBasic
