import SuiteShift.Script.Scan

/-!
# Types

Types are read for their extent alone: a type is a node without children. Object types, tuples
and parameter lists of function types are passed as balanced brackets.
-/

namespace SuiteShift
namespace Script

open Scan

/-- Type arguments in angle brackets. -/
def typeArguments (self : Reader) : Scan Tree := do
  let a ← start
  symbol "<"
  let _ ← commaList (self .type)
  symbol ">"
  close a .typeArguments []

/-- One type parameter with its bound and its default. -/
def typeParameter (self : Reader) : Scan Unit := do
  let _ ← attempt do
    keyword "const" <|> keyword "in" <|> keyword "out"
    lookahead (void (name .identifier))
  let _ ← name .identifier
  if ← keyword? "extends" then
    let _ ← self .type
  if ← symbol? "=" then
    let _ ← self .type

/-- Type parameters in angle brackets. -/
def typeParameters (self : Reader) : Scan Tree := do
  let a ← start
  symbol "<"
  let _ ← commaList (typeParameter self)
  let _ ← symbol? ","
  symbol ">"
  close a .typeParameters []

/-- A dotted name with type arguments. -/
def typeName (self : Reader) : Scan Unit := do
  let _ ← name .identifier
  let _ ← many do
    symbol "."
    name .identifier
  if !(← breaksLine) then
    let _ ← attempt (typeArguments self)

/-- A type without operators around it. -/
def typePrimary (self : Reader) : Scan Unit := do
  let cs ← ahead
  match cs with
  | '(' :: _ => balanced "("
  | '[' :: _ => balanced "["
  | '\x7b' :: _ => balanced "\x7b"
  | '"' :: _ | '\'' :: _ => do
    let _ ← lexeme .string stringLength
  | '\x60' :: _ => do
    let _ ← lexeme .templateString fun cs => quotedLength '\x60' false (cs.drop 1) + 1
  | '-' :: _ => do
    symbol "-"
    let _ ← lexeme .number numberLength
  | _ =>
    if (← wordAhead) == "import" then
      keyword "import"
      balanced "("
      let _ ← many do
        symbol "."
        name .identifier
      let _ ← attempt (typeArguments self)
    else
      (do let _ ← lexeme .number numberLength) <|> typeName self

/-- Index brackets after a type, on the same line. -/
def typePostfix (self : Reader) : Scan Unit := do
  typePrimary self
  let _ ← many do
    if ← breaksLine then failure
    balanced "["

/-- Operators in front of a type. -/
def isTypeOperator (w : String) : Bool :=
  ["keyof", "typeof", "unique", "readonly", "infer", "asserts"].contains w

/-- A type with operators in front of it. -/
def typeUnary (self : Reader) : Scan Unit := do
  let _ ← many do
    if isTypeOperator (← wordAhead) then
      let _ ← name .identifier
      lookahead (typePrimary self)
    else failure
  typePostfix self

/-- Types with an operator between them and possibly before the first. -/
def typeOperands (operator : String) (p : Scan Unit) : Scan Unit := do
  let one : Scan Unit := do
    symbol operator
    if ← sees operator then failure
  let _ ← attempt one
  p
  let _ ← many do
    one
    p

/-- A function type after its type parameters: parameters, an arrow and a result. -/
def functionTypeTail (self : Reader) : Scan Unit := do
  balanced "("
  symbol "=>"
  let _ ← self .type

/-- A function or constructor type. -/
def functionType (self : Reader) : Scan Unit := do
  let _ ← attempt do
    let _ ← keyword? "abstract"
    keyword "new"
  let _ ← attempt (typeParameters self)
  functionTypeTail self

/-- The tail of a conditional type. -/
def conditionalTail (self : Reader) : Scan Unit := do
  keyword "extends"
  let _ ← self .type
  symbol "?"
  let _ ← self .type
  symbol ":"
  let _ ← self .type

/-- The tail of a type predicate. -/
def predicateTail (self : Reader) : Scan Unit := do
  if ← breaksLine then failure
  keyword "is"
  let _ ← self .type

/-- A type. -/
def typeNode (self : Reader) : Scan Tree := do
  let a ← start
  functionType self <|> do
    typeOperands "|" (typeOperands "&" (functionType self <|> typeUnary self))
    let _ ← attempt (conditionalTail self <|> predicateTail self)
  close a .type []

/-- A type after a colon. -/
def annotatedType (self : Reader) : Scan Unit := do
  symbol ":"
  let _ ← self .type

end Script
end SuiteShift
