import SuiteShift.Script.Type

/-!
# Expressions

The productions for expressions, from literals up to sequences. Each production takes the reader
for all goals and gives a node.

- `operand`: a unary expression, an arrow function, or a primary with its suffixes.
- `binary`: operands with operators of at least a level.
- `expression`: a conditional or an assignment; `sequence`: expressions with commas.
-/

namespace SuiteShift
namespace Script

open Scan

/-- Words that cannot be identifiers. -/
def isReserved (w : String) : Bool :=
  ["break", "case", "catch", "const", "continue", "debugger", "default", "delete", "do", "else",
   "enum", "export", "extends", "finally", "for", "function", "if", "in", "instanceof", "new",
   "return", "switch", "throw", "try", "typeof", "var", "void", "while", "with", "class",
   "import", "super", "this", "null", "true", "false"].contains w

/-- An identifier that is no reserved word. -/
def identifier : Scan Tree := do
  if isReserved (← wordAhead) then failure
  name .identifier

/-! ## Literals -/

/-- The number of characters of an escape after its backslash. -/
def escapeLength : List Char → Nat
  | 'x' :: _ :: _ :: _ => 3
  | 'u' :: '\x7b' :: cs => (cs.takeWhile (· != '\x7d')).length + 3
  | 'u' :: _ :: _ :: _ :: _ :: _ => 5
  | '\r' :: '\n' :: _ => 2
  | c :: cs =>
    if '0' ≤ c && c ≤ '7' then
      ((c :: cs).take 3).takeWhile (fun d => '0' ≤ d && d ≤ '7') |>.length
    else 1
  | [] => 0

/-- The number of characters of template text up to a substitution, an escape or the end. -/
def fragmentLength : List Char → Nat
  | [] => 0
  | '$' :: '\x7b' :: _ => 0
  | c :: cs => if c == '\x60' || c == '\\' then 0 else fragmentLength cs + 1

/-- A piece of a template: a substitution, an escape or text. -/
def templatePiece (self : Reader) : Scan Tree := do
  let a ← get
  match a.rest with
  | '$' :: '\x7b' :: _ => do
    take 2
    let inner ← self (.sequence .inner)
    symbol "\x7d"
    close a .templateSubstitution [inner]
  | '\\' :: cs => do
    take (escapeLength cs + 1)
    close a .escapeSequence []
  | cs =>
    match fragmentLength cs with
    | 0 => failure
    | n => do
      take n
      close a .stringFragment []

/-- A template literal. -/
def template (self : Reader) : Scan Tree := do
  let a ← start
  symbol "\x60"
  let pieces ← many (templatePiece self)
  let c ← get
  match c.rest with
  | '\x60' :: _ => do
    take 1
    close a .templateString pieces
  | _ => failure

/-- The name of a property. -/
def propertyName (self : Reader) : Scan Tree := do
  let a ← start
  match a.rest with
  | '"' :: _ | '\'' :: _ => lexeme .string stringLength
  | '#' :: _ => do
    take 1
    let _ ← name .identifier
    close a .privateIdentifier []
  | '[' :: _ => do
    take 1
    let inner ← self (.expression .inner)
    symbol "]"
    close a .computedName [inner]
  | _ => lexeme .number numberLength <|> name .propertyIdentifier

/-- A spread element. -/
def spread (self : Reader) : Scan Tree := do
  let a ← start
  symbol "..."
  let inner ← self (.expression .inner)
  close a .spreadElement [inner]

/-- An array literal or pattern; elements may be missing. -/
def arrayLiteral (self : Reader) : Scan Tree := do
  let a ← start
  symbol "["
  let items ← many do
    (do
      symbol ","
      pure none) <|> some <$> (spread self <|> self (.expression .inner))
  symbol "]"
  close a .array (items.filterMap id)

/-! ## Functions -/

/-- A decorator. -/
def decorator (self : Reader) : Scan Tree := do
  let a ← start
  symbol "@"
  let inner ← self (.operand .inner)
  close a .decorator [inner]

/-- A word out of a list that stands in front of a property name. -/
def modifier (self : Reader) (words : List String) : Scan Unit := do
  if words.contains (← wordAhead) then
    let _ ← name .identifier
    lookahead (void (propertyName self) <|> symbol "*")
  else failure

/-- The modifiers of a parameter. -/
def parameterModifiers : List String :=
  ["public", "private", "protected", "readonly", "override"]

/-- A binding pattern: a name, or an object or array pattern. -/
def pattern (self : Reader) : Scan Tree := do
  let cs ← ahead
  match cs with
  | '\x7b' :: _ => return (← self .object).withKind .objectPattern
  | '[' :: _ => return (← arrayLiteral self).withKind .arrayPattern
  | _ => identifier

/-- A parameter: a pattern with an optional mark, type and default. -/
def parameter (self : Reader) : Scan Tree := do
  let a ← start
  let decorators ← many (decorator self)
  let _ ← many do
    if parameterModifiers.contains (← wordAhead) then
      let _ ← name .identifier
      lookahead (void (pattern self))
    else failure
  let b ← start
  let bound ←
    if ← symbol? "..." then do
      let inner ← pattern self
      close b .restPattern [inner]
    else if (← wordAhead) == "this" then name .this
    else pattern self
  let isOptional ← symbol? "?"
  let _ ← attempt (annotatedType self)
  let initial ← attempt do
    symbol "="
    if ← sees ">" then failure
    self (.expression .inner)
  let kind := if isOptional then Kind.optionalParameter else .requiredParameter
  close a kind (decorators ++ bound.withRole .pattern :: initial.toList)

/-- A parameter list; comments between parameters are kept. -/
def parameters (self : Reader) : Scan Tree := do
  let a ← start
  symbol "("
  let items ← many do
    some <$> comment <|> (do
      symbol ","
      pure none) <|> some <$> parameter self
  symbol ")"
  return (← close a .formalParameters (items.filterMap id)).withRole .parameters

/-- Type parameters, parameters and the result type of a function. -/
def signature (self : Reader) : Scan (Tree × Bool) := do
  let _ ← attempt (typeParameters self)
  let list ← parameters self
  let result ← attempt (annotatedType self)
  return (list, result.isSome)

/-- The body of a function in braces. -/
def functionBody (self : Reader) : Scan Tree := do
  return (← self .block).withRole .body

/-- A method of an object or a class after its name. -/
def methodTail (self : Reader) (a : Cursor) (name : Tree) : Scan Tree := do
  let (list, _) ← signature self
  let body ← attempt (functionBody self)
  close a .methodDefinition (name :: list :: body.toList)

/-- A member of an object. -/
def objectMember (self : Reader) : Scan Tree := do
  let a ← start
  spread self <|> do
    let modifiers ← many (modifier self ["async", "get", "set", "static"])
    let isGenerator ← symbol? "*"
    let key ← propertyName self
    if (← sees "(") || (← sees "<") then
      methodTail self a key
    else if !modifiers.isEmpty || isGenerator then failure
    else if ← symbol? ":" then
      let value ← self (.expression .inner)
      close a .pair [key, value]
    else if ← symbol? "=" then
      let value ← self (.expression .inner)
      close a .shorthand [key, value]
    else close a .shorthand [key]

/-- An object literal or pattern. -/
def objectLiteral (self : Reader) : Scan Tree := do
  let a ← start
  symbol "\x7b"
  let items ← many do
    (do
      symbol ","
      pure none) <|> some <$> objectMember self
  symbol "\x7d"
  close a .object (items.filterMap id)

/-- A function expression. -/
def functionExpression (self : Reader) : Scan Tree := do
  let a ← start
  let _ ← keyword? "async"
  keyword "function"
  let isGenerator ← symbol? "*"
  let title ← attempt identifier
  let (list, _) ← signature self
  let body ← functionBody self
  close a (if isGenerator then .generatorFunction else .functionExpression)
    (title.toList ++ [list, body])

/-- The body of an arrow function: a block or an expression. -/
def arrowBody (self : Reader) (mode : Mode) : Scan Tree := do
  if ← sees "\x7b" then functionBody self
  else return (← self (.expression mode)).withRole .body

/-- An arrow function. With a result type between a question mark and a colon, the colon must
follow it. -/
def arrowFunction (self : Reader) (mode : Mode) : Scan Tree := do
  let a ← start
  let _ ← attempt do
    keyword "async"
    if ← breaksLine then failure
    lookahead (void identifier <|> symbol "(" <|> symbol "<")
  let single : Scan (Tree × Bool) := do
    return ((← identifier).withRole .parameter, false)
  let (head, hasResult) ← (do
    let head ← single
    symbol "=>"
    pure head) <|> (do
    let head ← signature self
    symbol "=>"
    pure head)
  let body ← arrowBody self mode
  if hasResult && mode.consequent then
    if !(← sees ":") then failure
  close a .arrowFunction [head, body]

/-! ## Classes -/

/-- The modifiers of a class member. -/
def memberModifiers : List String :=
  ["declare", "public", "private", "protected", "static", "override", "abstract", "readonly",
   "accessor", "async", "get", "set"]

/-- A static block of a class. -/
def staticBlock (self : Reader) : Scan Tree := do
  let a ← start
  keyword "static"
  if !(← sees "\x7b") then failure
  let body ← self .block
  close a .classStaticBlock [body]

/-- The end of a class member. -/
def memberEnd (afterExpression : Bool) : Scan Unit := do
  if ← symbol? "," then return
  semicolon afterExpression

/-- An index signature of a class. -/
def indexSignature (self : Reader) : Scan Tree := do
  let a ← start
  balanced "["
  let _ ← attempt (symbol "?" <|> symbol "-?" <|> symbol "+?")
  annotatedType self
  memberEnd false
  close a .fieldDefinition []

/-- A method or a field of a class. -/
def classMember (self : Reader) : Scan Tree := do
  let a ← start
  let decorators ← many (decorator self)
  staticBlock self <|> do
    let _ ← many (modifier self memberModifiers)
    indexSignature self <|> do
      let _ ← symbol? "*"
      let key ← propertyName self
      let _ ← attempt (symbol "?" <|> symbol "!")
      if (← sees "(") || (← sees "<") then
        let method ← methodTail self a key
        if method.child? .body |>.isNone then memberEnd false
        return method
      else
        let _ ← attempt (annotatedType self)
        let value ← attempt do
          symbol "="
          self (.expression .outer)
        memberEnd value.isSome
        close a .fieldDefinition (decorators ++ key :: value.toList)

/-- The part of a class after its name: heritage and members. -/
def classTail (self : Reader) : Scan (List Tree) := do
  let _ ← attempt (typeParameters self)
  let parent ← attempt do
    keyword "extends"
    let value ← self (.operand .inner)
    let _ ← attempt (typeArguments self)
    pure value
  let _ ← attempt do
    keyword "implements"
    commaList (self .type)
  let a ← start
  symbol "\x7b"
  let members ← many do
    (do
      symbol ";"
      pure none) <|> some <$> classMember self
  symbol "\x7d"
  let body ← close a .classBody (members.filterMap id)
  return parent.toList ++ [body]

/-- A class expression. -/
def classExpression (self : Reader) : Scan Tree := do
  let a ← start
  let decorators ← many (decorator self)
  keyword "class"
  let title ← attempt do
    let w ← wordAhead
    if w == "extends" || w == "implements" then failure
    identifier
  let parts ← classTail self
  close a .classExpression (decorators ++ title.toList ++ parts)

/-! ## Primaries and suffixes -/

/-- An argument list; comments between arguments are kept. -/
def argumentList (self : Reader) : Scan Tree := do
  let a ← start
  symbol "("
  let items ← many do
    some <$> comment <|> (do
      symbol ","
      pure none) <|> some <$> (spread self <|> self (.expression .inner))
  symbol ")"
  return (← close a .arguments (items.filterMap id)).withRole .arguments

/-- An expression in parentheses. -/
def parenthesized (self : Reader) : Scan Tree := do
  let a ← start
  symbol "("
  let inner ← self (.sequence .inner)
  let _ ← attempt (annotatedType self)
  symbol ")"
  close a .parenthesizedExpression [inner]

/-- The property after a dot. -/
def propertyAccess : Scan Tree := do
  let a ← start
  if ← symbol? "#" then
    let _ ← name .identifier
    return (← close a .privateIdentifier []).withRole .property
  else return (← name .propertyIdentifier).withRole .property

/-- A member or subscript of a constructor. -/
def constructorSuffix (self : Reader) (a : Cursor) (value : Tree) : Scan Tree := do
  if ← sees ".." then failure
  if ← symbol? "." then
    let property ← propertyAccess
    close a .memberExpression [value.withRole .object, property]
  else
    symbol "["
    let index ← self (.sequence .inner)
    symbol "]"
    close a .subscriptExpression [value.withRole .object, index]

/-- The word `import` as a function or with its meta property. -/
def importExpression : Scan Tree := do
  let a ← start
  keyword "import"
  if ← symbol? "." then
    let _ ← name .identifier
    close a .metaProperty []
  else close a .importKeyword []

/-- The kind of a word that stands for itself. -/
def wordKind (w : String) : Kind :=
  match [("this", Kind.this), ("super", .super), ("null", .null), ("undefined", .undefined),
    ("true", .true), ("false", .false)].lookup w with
  | some kind => kind
  | none => .identifier

/-- A word as an expression. -/
def wordExpression : Scan Tree := do
  let kind := wordKind (← wordAhead)
  if kind == .identifier then identifier else name kind

/-- A primary other than an object creation. -/
def plainPrimary (self : Reader) : Scan Tree := do
  let cs ← ahead
  match cs with
  | '(' :: _ => parenthesized self
  | '[' :: _ => arrayLiteral self
  | '\x7b' :: _ => self .object
  | '"' :: _ | '\'' :: _ => lexeme .string stringLength
  | '\x60' :: _ => template self
  | '/' :: _ => lexeme .regex regexLength
  | '@' :: _ => classExpression self
  | '#' :: _ => propertyName self
  | _ =>
    match ← wordAhead with
    | "function" => functionExpression self
    | "async" => functionExpression self <|> identifier
    | "class" => classExpression self
    | "import" => importExpression
    | _ => lexeme .number numberLength <|> wordExpression

/-- An object creation; the arguments belong to the innermost one that has none yet. -/
def creation (self : Reader) : Scan Tree := do
  let a ← start
  keyword "new"
  if ← symbol? "." then
    let _ ← name .identifier
    close a .metaProperty []
  else
    let b ← start
    let first ← if (← wordAhead) == "new" then self .creation else plainPrimary self
    let constructed ← iterate (constructorSuffix self b) first
    let _ ← attempt (typeArguments self)
    let list ← attempt (argumentList self)
    close a .newExpression (constructed :: list.toList)

/-- A primary. -/
def primary (self : Reader) : Scan Tree := do
  if (← wordAhead) == "new" then self .creation else plainPrimary self

/-- A call of a function on arguments. -/
def callWith (a : Cursor) (function : Tree) (list : Tree) : Scan Tree :=
  close a .callExpression [function.withRole .function, list.withRole .arguments]

/-- An access after the mark of an optional chain. -/
def optionalSuffix (self : Reader) (a : Cursor) (value : Tree) : Scan Tree := do
  symbol "?."
  if ← sees "(" then callWith a value (← argumentList self)
  else if ← sees "<" then
    let _ ← typeArguments self
    callWith a value (← argumentList self)
  else if ← symbol? "[" then
    let index ← self (.sequence .inner)
    symbol "]"
    close a .subscriptExpression [value.withRole .object, index]
  else
    let property ← propertyAccess
    close a .memberExpression [value.withRole .object, property]

/-- One suffix of a primary: a call, a member, a subscript, a template or a non-null mark. -/
def suffix (self : Reader) (mode : Mode) (a : Cursor) (value : Tree) : Scan Tree := do
  let broken ← breaksLine
  let cs ← ahead
  match cs with
  | '?' :: '.' :: c :: _ => if Text.isAsciiDigit c then failure else optionalSuffix self a value
  | '.' :: _ => constructorSuffix self a value
  | '[' :: _ => constructorSuffix self a value
  | '(' :: _ => callWith a value (← argumentList self)
  | '\x60' :: _ => callWith a value (← template self)
  | '!' :: '=' :: _ => failure
  | '!' :: _ =>
    if broken && mode.statement then failure
    else do
      symbol "!"
      close a .nonNullExpression [value]
  | '<' :: _ => do
    let _ ← typeArguments self
    if ← sees "\x60" then callWith a value (← template self)
    else callWith a value (← argumentList self)
  | _ => failure

/-- A primary with its suffixes and a postfix operator. -/
def postfixed (self : Reader) (mode : Mode) : Scan Tree := do
  let a ← start
  let first ← primary self
  let value ← iterate (suffix self mode a) first
  if (← breaksLine) && mode.statement then return value
  if (← sees "++") || (← sees "--") then
    let _ ← start
    take 2
    close a .updateExpression [value]
  else return value

/-- A unary operator made of symbols: how many characters it has and what kind it makes. -/
def prefixSymbol? : List Char → Option (Nat × Kind)
  | '+' :: '+' :: _ => some (2, .updateExpression)
  | '-' :: '-' :: _ => some (2, .updateExpression)
  | '!' :: _ => some (1, .unaryExpression)
  | '~' :: _ => some (1, .unaryExpression)
  | '+' :: _ => some (1, .unaryExpression)
  | '-' :: _ => some (1, .unaryExpression)
  | _ => none

/-- A unary operator made of letters. -/
def prefixWord? (w : String) : Option Kind :=
  [("typeof", Kind.unaryExpression), ("void", .unaryExpression), ("delete", .unaryExpression),
   ("await", .awaitExpression)].lookup w

/-- A unary expression, an arrow function, or a primary with its suffixes. -/
def operand (self : Reader) (mode : Mode) : Scan Tree := do
  let a ← start
  match prefixSymbol? a.rest with
  | some (n, kind) => do
    take n
    let inner ← self (.operand mode)
    close a kind [inner]
  | none =>
    let w ← wordAhead
    let unary : Scan Tree :=
      match prefixWord? w with
      | some kind => do
        keyword w
        let inner ← self (.operand mode)
        close a kind [inner]
      | none => failure
    let assertion : Scan Tree := do
      let _ ← typeArguments self
      let inner ← self (.operand mode)
      close a .typeAssertion [inner]
    unary <|> arrowFunction self mode <|>
      (if a.rest.head? == some '<' then assertion else postfixed self mode)

/-! ## Operators -/

/-- Binary operators made of symbols with their levels, longer ones first. A symbol that is
followed by an equals sign is an assignment instead. -/
def symbolOperators : List (String × Nat) :=
  [("===", 6), ("!==", 6), ("==", 6), ("!=", 6), (">>>", 8), ("<<", 8), (">>", 8), ("<=", 7),
   (">=", 7), ("**", 11), ("??", 1), ("||", 1), ("&&", 2), ("|", 3), ("^", 4), ("&", 5),
   ("<", 7), (">", 7), ("+", 9), ("-", 9), ("*", 10), ("/", 10), ("%", 10)]

/-- The symbols that also compare, so that an equals sign after them ends them. -/
def isComparison (operator : String) : Bool :=
  ["===", "!==", "==", "!=", "<=", ">="].contains operator

/-- The binary operator ahead, with its level. -/
def symbolOperator? (cs : List Char) : Option (String × Nat) :=
  match symbolOperators.find? fun (operator, _) => Text.startsWith operator.toList cs with
  | some (operator, level) =>
    let after := (cs.drop operator.length).head?
    if !isComparison operator && after == some '=' then none
    else if (operator == "+" || operator == "-") && after == operator.toList.head? then none
    else some (operator, level)
  | none => none

/-- One operator of at least a level and its right operand. -/
def binaryStep (self : Reader) (mode : Mode) (level : Nat) (a : Cursor) (left : Tree) :
    Scan Tree := do
  match symbolOperator? (← ahead) with
  | some (operator, own) =>
    if own < level then failure
    symbol operator
    let right ← self (.binary mode (if operator == "**" then own else own + 1))
    close a .binaryExpression [left, right]
  | none =>
    if 7 < level then failure
    let w ← wordAhead
    if w == "instanceof" || (w == "in" && mode.allowIn) then
      keyword w
      let right ← self (.binary mode 8)
      close a .binaryExpression [left, right]
    else if w == "as" || w == "satisfies" then
      if (← breaksLine) && mode.statement then failure
      keyword w
      if (← wordAhead) == "const" then
        keyword "const"
      else
        let _ ← self .type
      close a (if w == "as" then .asExpression else .satisfiesExpression) [left]
    else failure

/-- Operands with operators of at least a level. -/
def binary (self : Reader) (mode : Mode) (level : Nat) : Scan Tree := do
  let a ← start
  let first ← self (.operand mode)
  iterate (binaryStep self mode level a) first

/-- Assignment operators, longer ones first. -/
def assignmentOperators : List String :=
  [">>>=", "**=", "<<=", ">>=", "&&=", "||=", "??=", "+=", "-=", "*=", "/=", "%=", "&=", "|=",
   "^=", "="]

/-- The assignment operator ahead. -/
def assignmentOperator? (cs : List Char) : Option String :=
  match assignmentOperators.find? fun operator => Text.startsWith operator.toList cs with
  | some operator =>
    let after := (cs.drop operator.length).head?
    if operator == "=" && (after == some '=' || after == some '>') then none else some operator
  | none => none

/-- A question mark that starts a choice. -/
def isChoice : List Char → Bool
  | '?' :: '?' :: _ => false
  | '?' :: '.' :: c :: _ => Text.isAsciiDigit c
  | '?' :: _ => true
  | _ => false

/-- A value that a generator hands out. -/
def yieldExpression (self : Reader) (mode : Mode) : Scan Tree := do
  let a ← start
  keyword "yield"
  let _ ← symbol? "*"
  let value ← attempt do
    if ← breaksLine then failure
    self (.expression mode)
  close a .yieldExpression value.toList

/-- A conditional, an assignment, or what they are made of. -/
def expression (self : Reader) (mode : Mode) : Scan Tree := do
  let a ← start
  if (← wordAhead) == "yield" then yieldExpression self mode
  else
    let left ← self (.binary mode 1)
    let cs ← ahead
    if isChoice cs then
      symbol "?"
      let yes ← self (.expression { mode with statement := false, consequent := true })
      symbol ":"
      let no ← self (.expression mode)
      close a .ternaryExpression [left, yes, no]
    else
      match assignmentOperator? cs with
      | some operator => do
        symbol operator
        let right ← self (.expression mode)
        close a .assignmentExpression [left, right]
      | none => return left

/-- Expressions with commas between them. -/
def sequence (self : Reader) (mode : Mode) : Scan Tree := do
  let a ← start
  let items ← commaList (self (.expression mode))
  match items with
  | [only] => return only
  | _ => close a .sequenceExpression items

end Script
end SuiteShift
