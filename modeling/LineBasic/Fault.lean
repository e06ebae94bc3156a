import LineBasic.Token

namespace LineBasic

/-- Why something could not be done. A `line` is the label of the program line at fault, a `kind`
the name of a value's kind, a `quoted` text one that is already in quotes. -/
inductive Fault
  -- reading tokens
  | openQuote
  | strangeCharacter
  -- reading statements
  | expecting (wanted : Category) (line : String)
  | expectingStatement (line : String)
  | expectingFactor (line lexeme : String)
  | expectingPosition (line : String)
  | expectingAs (line : String)
  | expectingInputName (line : String)
  | emptyStatement
  | endlessNesting
  | endlessLine
  | endlessNames
  -- names, arrays, loops
  | undefinedName (name line : String)
  | lostVariable (quoted : String)
  | textNeeded (line : String)
  | numberNeeded (line : String)
  | textCellNeeded (line : String)
  | numberCellNeeded (line : String)
  | loopOverText (line : String)
  | zeroStep (line : String)
  | unknownArray (line : String)
  | notAnArray (kind : String)
  | bareArray (line : String)
  | indexCount (line : String)
  | indexRange (line : String)
  | indexKind (kind : String)
  | manyDimensions (line : String)
  | noDimensions
  | negativeSize
  | fractionalSize
  -- DATA
  | noData (line : String)
  | noDataAt (target : String)
  | lostPointer (line : String)
  | noValue
  | textRead (line : String)
  | numberRead (line : String)
  | foreignDigit (quoted code : String)
  | leadingZeros
  | unhashable (kind : String)
  -- flow
  | flowKind (code : String)
  | flowTarget
  | strayTarget (code : String)
  | badJump (target : String)
  | badCall (target : String)
  | callAtEnd
  | loopAtEnd
  | strayReturn (line : String)
  | strayNext (line : String)
  | badReturn (line : String)
  | badLoopExit (line : String)
  | noStatements
  | missingLine (kind : String)
  | interrupted
  -- stored lines
  | noSuchLine
  | noListedLine (line : String)
  | noEntry
  | cannotSave
  | cannotRead
  | nullInPath
  -- operators
  | operands (operator left right : String)
  | concatenation (kind : String)
  | repetition (kind : String)
  | ordering (operator left right : String)
  | negation (kind : String)
  | absolute (kind : String)
  | realNeeded (kind : String)
  | divisionByZero
  | realDivisionByZero
  | moduloByZero
  | realModuloByZero
  | integerTooLarge
  | quotientTooLarge
  | mathRange
  | infinityToInteger
  | nanToInteger
  | repeatTooOften
  | repeatTooLong
  | outOfMemory
  | characterCode
  | indexCode
  | digitsToText
  | digitsFromText (count : Nat)
  | badInteger (quoted : String)
  | badReal (quoted : String)
  | emptySequence (function : String)
  | badArgument (function line : String)
  | badArgumentKind (function line : String)
  | emptyText
  -- text formats
  | formatEnds
  | formatCharacter (shown : Char) (code : String) (index : Nat)
  | formatArguments
  | formatLeftover
  | formatMapping
  | formatStar
  | formatReal (conversion : Char) (kind : String)
  | formatInteger (conversion : Char) (kind : String)
  | formatCharNeeded
  | formatCharRange
  | widthTooBig
  | precisionTooBig
  | precisionTooLarge
  -- files
  | accessMode (line : String)
  | notOpened (verb channel line : String)
  | alreadyOpened (channel line : String)
  | cannotOpen (path line : String)
  | promptForFile (line : String)
  | notWritable
  | negativeSeek (quoted : String)
  | placeTooBig
  | noSuchPlace
  | lostPlace
  | negativeCount
  | undecodable (byte : String) (position : Nat) (reason : String)
  | undecodableRun (first last : Nat) (reason : String)
  -- terminals
  | endOfInput
  | noMoreKeys
  | notImplemented
  | testPending
  | testMissing
  | resultPending
  | testUnset
  | testFailed
  -- workloads
  | nothingFirst
  | nothingLast
  deriving DecidableEq

namespace Fault

inductive Kind
  | runtime | nesting | grammar | value | type | index | key | zeroDivision | overflow | memory
  | attribute | endOfInput | storage | unsupported | decoding | interrupt | general
  deriving DecidableEq, Repr

def kind : Fault → Kind
  | openQuote | strangeCharacter | expectingAs _ | textNeeded _ | numberNeeded _
  | textCellNeeded _ | numberCellNeeded _ | loopOverText _ | manyDimensions _ | noDimensions
  | negativeSize | fractionalSize | foreignDigit _ _ | leadingZeros | accessMode _
  | promptForFile _ => .grammar
  | expecting _ _ | expectingStatement _ | expectingFactor _ _ | expectingPosition _
  | undefinedName _ _ | bareArray _ | noData _ | noDataAt _ | badJump _ | badCall _ | callAtEnd
  | loopAtEnd | strayReturn _ | strayNext _ | badReturn _ | badLoopExit _ | noStatements
  | notOpened _ _ _ | alreadyOpened _ _ | cannotOpen _ _ | endlessLine | endlessNames => .runtime
  | endlessNesting => .nesting
  | expectingInputName _ | lostPointer _ | textRead _ | numberRead _ | nanToInteger
  | digitsToText | digitsFromText _ | badInteger _ | badReal _ | emptySequence _
  | badArgument _ _ | formatEnds | formatCharacter _ _ _ | widthTooBig | precisionTooBig
  | negativeSeek _ | negativeCount | nullInPath => .value
  | emptyStatement | zeroStep _ | indexCount _ | indexRange _ | noValue | emptyText
  | nothingFirst => .index
  | lostVariable _ | unknownArray _ | noSuchLine | noListedLine _ => .key
  | indexKind _ | unhashable _ | flowKind _ | flowTarget | strayTarget _ | operands _ _ _
  | missingLine _ | concatenation _ | repetition _ | ordering _ _ _ | negation _ | absolute _
  | realNeeded _
  | badArgumentKind _ _ | formatArguments | formatLeftover | formatMapping
  | formatStar | formatReal _ _ | formatInteger _ _ | formatCharNeeded | noEntry
  | nothingLast => .type
  | divisionByZero | realDivisionByZero | moduloByZero | realModuloByZero => .zeroDivision
  | integerTooLarge | quotientTooLarge | mathRange | infinityToInteger | repeatTooOften
  | repeatTooLong | characterCode | indexCode | formatCharRange | precisionTooLarge
  | placeTooBig => .overflow
  | outOfMemory => .memory
  | notAnArray _ => .attribute
  | interrupted => .interrupt
  | cannotSave | cannotRead | noSuchPlace | lostPlace => .storage
  | notWritable => .unsupported
  | undecodable _ _ _ | undecodableRun _ _ _ => .decoding
  | endOfInput | noMoreKeys => .endOfInput
  | notImplemented | testPending | testMissing | resultPending | testUnset | testFailed => .general

def isRuntime (f : Fault) : Bool :=
  match f.kind with
  | .runtime | .nesting => true
  | _ => false

def digitLimit (value : String) : String :=
  "Exceeds the limit (4300 digits) for integer string conversion" ++ value ++
    "; use sys.set_int_max_str_digits() to increase the limit"

def message : Fault → String
  | openQuote => "Mismatched quotes"
  | strangeCharacter => "Syntax error"
  | expecting c line => "Expecting " ++ c.label ++ " in line " ++ line
  | expectingStatement line => "Expecting program statement in line " ++ line
  | expectingFactor line lexeme =>
      "Expecting factor in numeric expression in line " ++ line ++ lexeme
  | expectingPosition line => "Expecting column and line positions on line " ++ line
  | expectingAs line => "Expecting AS in line " ++ line
  | expectingInputName line => "Expecting NAME in INPUT statement in line " ++ line
  | emptyStatement | nothingFirst => "list index out of range"
  | endlessNesting | endlessLine => "maximum recursion depth exceeded"
  | endlessNames => "Endless list of names"
  | undefinedName name line => "Name " ++ name ++ " is not defined in line " ++ line
  | lostVariable quoted => quoted
  | textNeeded line =>
      "Syntax error: Attempt to assign non string to string variable in line " ++ line
  | numberNeeded line =>
      "Syntax error: Attempt to assign string to numeric variable in line " ++ line
  | textCellNeeded line => "Attempt to assign non string to string array in line " ++ line
  | numberCellNeeded line => "Attempt to assign string to numeric array in line " ++ line
  | loopOverText line => "Syntax error: Loop variable is not numeric in line " ++ line
  | zeroStep line => "Zero step value supplied for loop in line " ++ line
  | unknownArray line => "'Array could not be found in line " ++ line ++ "'"
  | notAnArray kind => "'" ++ kind ++ "' object has no attribute 'dims'"
  | bareArray line => "Array used without index in line " ++ line
  | indexCount line => "Incorrect number of indices applied to array in line " ++ line
  | indexRange line => "Array index out of range in line " ++ line
  | indexKind kind => "list indices must be integers or slices, not " ++ kind
  | manyDimensions line => "Maximum number of array dimensions is three in line " ++ line
  | noDimensions => "Zero dimensional array specified"
  | negativeSize => "Negative array size specified"
  | fractionalSize => "Fractional array size specified"
  | noData line => "No DATA statements available to READ in line " ++ line
  | noDataAt target => "Attempt to RESTORE but no DATA statement at line " ++ target
  | lostPointer line => line ++ " is not in list"
  | noValue => "pop from empty list"
  | textRead line => "Non-numeric input provided to a numeric variable in line " ++ line
  | numberRead line => "Non-string input provided to a string variable in line " ++ line
  | foreignDigit quoted code =>
      "invalid character " ++ quoted ++ " (U+" ++ code ++ ") (<string>, line 1)"
  | leadingZeros =>
      "leading zeros in decimal integer literals are not permitted; use an 0o prefix for octal " ++
        "integers (<string>, line 1)"
  | unhashable kind => "Invalid line number: unhashable type: '" ++ kind ++ "'"
  | flowKind code => "Invalid flow signal type supplied: " ++ code
  | flowTarget => "Invalid jump target supplied for flow signal type: None"
  | strayTarget code => "Target wrongly supplied for flow signal " ++ code
  | badJump target => "Invalid line number supplied in GOTO or conditional branch: " ++ target
  | badCall target => "Invalid line number supplied in subroutine call: " ++ target
  | callAtEnd => "GOSUB at end of program, nowhere to return"
  | loopAtEnd => "Program terminated within a loop"
  | strayReturn line =>
      "RETURN encountered without corresponding subroutine call in line " ++ line
  | strayNext line => "NEXT encountered without corresponding FOR loop in line " ++ line
  | badReturn line => "Invalid subroutine return in line " ++ line
  | badLoopExit line => "Invalid loop exit in line " ++ line
  | noStatements => "No statements to execute"
  | interrupted => ""
  | noSuchLine => "'Line number does not exist'"
  | noListedLine line => line
  | cannotSave => "Could not save to file"
  | cannotRead => "Could not read file"
  | nullInPath => "embedded null byte"
  | operands operator left right =>
      "unsupported operand type(s) for " ++ operator ++ ": '" ++ left ++ "' and '" ++ right ++ "'"
  | missingLine kind | concatenation kind =>
      "can only concatenate str (not \"" ++ kind ++ "\") to str"
  | repetition kind => "can't multiply sequence by non-int of type '" ++ kind ++ "'"
  | ordering operator left right =>
      "'" ++ operator ++ "' not supported between instances of '" ++ left ++ "' and '" ++ right ++
        "'"
  | negation kind => "bad operand type for unary -: '" ++ kind ++ "'"
  | absolute kind => "bad operand type for abs(): '" ++ kind ++ "'"
  | realNeeded kind => "must be real number, not " ++ kind
  | divisionByZero => "division by zero"
  | realDivisionByZero => "float division by zero"
  | moduloByZero => "integer modulo by zero"
  | realModuloByZero => "float modulo"
  | integerTooLarge => "int too large to convert to float"
  | quotientTooLarge => "integer division result too large for a float"
  | mathRange => "math range error"
  | infinityToInteger => "cannot convert float infinity to integer"
  | nanToInteger => "cannot convert float NaN to integer"
  | repeatTooOften => "cannot fit 'int' into an index-sized integer"
  | repeatTooLong => "repeated string is too long"
  | outOfMemory => ""
  | characterCode => "Python int too large to convert to C int"
  | indexCode => "Python int too large to convert to C ssize_t"
  | digitsToText => digitLimit ""
  | digitsFromText count => digitLimit (": value has " ++ toString count ++ " digits")
  | badInteger quoted => "invalid literal for int() with base 10: " ++ quoted
  | badReal quoted => "could not convert string to float: " ++ quoted
  | emptySequence function => function ++ "() arg is an empty sequence"
  | badArgument function line => "Invalid value supplied to " ++ function ++ " in line " ++ line
  | badArgumentKind function line =>
      "Invalid type supplied to " ++ function ++ " in line " ++ line
  | emptyText => "string index out of range"
  | formatEnds => "incomplete format"
  | formatCharacter shown code index =>
      "unsupported format character '" ++ shown.toString ++ "' (0x" ++ code ++ ") at index " ++
        toString index
  | formatArguments => "not enough arguments for format string"
  | formatLeftover => "not all arguments converted during string formatting"
  | formatMapping => "format requires a mapping"
  | formatStar => "* wants int"
  | formatReal conversion kind =>
      "%" ++ conversion.toString ++ " format: a real number is required, not " ++ kind
  | formatInteger conversion kind =>
      "%" ++ conversion.toString ++ " format: an integer is required, not " ++ kind
  | formatCharNeeded => "%c requires int or char"
  | formatCharRange => "%c arg not in range(0x110000)"
  | widthTooBig => "width too big"
  | precisionTooBig => "precision too big"
  | precisionTooLarge => "precision too large"
  | accessMode line => "Invalid Open access mode in line " ++ line
  | notOpened verb channel line => verb ++ ": file #" ++ channel ++ " not opened in line " ++ line
  | alreadyOpened channel line =>
      "('File #', " ++ channel ++ ", ' already opened in line " ++ line ++ "')"
  | cannotOpen path line => "File " ++ path ++ " could not be opened in line " ++ line
  | promptForFile line => "Input prompt specified for file I/O in line " ++ line
  | notWritable => "not writable"
  | negativeSeek quoted => "negative seek position " ++ quoted
  | placeTooBig => "int too big to convert"
  | noSuchPlace => "[Errno 22] Invalid argument"
  | lostPlace => "can't restore logical file position"
  | negativeCount => "read length must be non-negative or -1"
  | undecodable byte position reason =>
      "'utf-8' codec can't decode byte 0x" ++ byte ++ " in position " ++ toString position ++
        ": " ++ reason
  | undecodableRun first last reason =>
      "'utf-8' codec can't decode bytes in position " ++ toString first ++ "-" ++ toString last ++
        ": " ++ reason
  | endOfInput => "EOF when reading a line"
  | noMoreKeys => "no more keys"
  | notImplemented => "Not Implemented by terminal"
  | testPending => "TEST ERROR: New Test Started before previous test complete"
  | testMissing => "TEST ERROR: Not ready for expected value no test started"
  | resultPending => "TEST ERROR: Expected value provided, but test still pending"
  | testUnset => "TEST ERROR: Undelimited string without test setup"
  | testFailed => "TEST FAILED"
  | noEntry | nothingLast => "'NoneType' object is not iterable"

end Fault

end LineBasic
