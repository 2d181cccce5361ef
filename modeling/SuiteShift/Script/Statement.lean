import SuiteShift.Script.Expression

/-!
# Statements

The productions for statements and declarations. A statement extends from its first lexeme to
its semicolon; where it has none, comments on its last line belong to it.
-/

namespace SuiteShift
namespace Script

open Scan

/-- The items of a block: comments and statements. -/
def blockItems (self : Reader) : Scan (List Tree) :=
  many (comment <|> self .statement)

/-- Statements in braces. -/
def block (self : Reader) : Scan Tree := do
  let a ← start
  symbol "\x7b"
  let items ← blockItems self
  symbol "\x7d"
  lineEnd
  close a .statementBlock items

/-- A condition in parentheses. -/
def condition (self : Reader) : Scan Tree :=
  parenthesized self

/-! ## Declarations -/

/-- A name with an optional type and initial value. -/
def declarator (self : Reader) (mode : Mode) : Scan Tree := do
  let a ← start
  let bound ← pattern self
  let _ ← symbol? "!"
  let _ ← attempt (annotatedType self)
  let value ← attempt do
    symbol "="
    self (.expression mode)
  close a .variableDeclarator (bound :: value.toList)

/-- The last declarator has an initial value. -/
def endsInValue (declarators : List Tree) : Bool :=
  match declarators.getLast? with
  | some last => last.children.length == 2
  | none => false

/-- Declarators after their keyword, with the keyword's kind of node. -/
def declarators (self : Reader) (mode : Mode) : Scan (Kind × List Tree) := do
  let w ← wordAhead
  if !(["const", "let", "var"].contains w) then failure
  keyword w
  let items ← commaList (declarator self mode)
  return (if w == "var" then .variableDeclaration else .lexicalDeclaration, items)

/-- A declaration of variables. -/
def variableStatement (self : Reader) : Scan Tree := do
  let a ← start
  let (kind, items) ← declarators self .outer
  semicolon (endsInValue items)
  close a kind items

/-- A declaration of a function, or its signature alone. -/
def functionDeclaration (self : Reader) : Scan Tree := do
  let a ← start
  let _ ← keyword? "async"
  keyword "function"
  let isGenerator ← symbol? "*"
  let title ← identifier
  let (list, _) ← signature self
  if ← sees "\x7b" then
    let body ← functionBody self
    lineEnd
    close a (if isGenerator then .generatorFunctionDeclaration else .functionDeclaration)
      [title, list, body]
  else
    semicolon false
    close a .functionSignature [title, list]

/-- A declaration of a class. -/
def classDeclaration (self : Reader) : Scan Tree := do
  let a ← start
  let decorators ← many (decorator self)
  let isAbstract ← keyword? "abstract"
  keyword "class"
  let title ← identifier
  let parts ← classTail self
  if !isAbstract then lineEnd
  close a (if isAbstract then .abstractClassDeclaration else .classDeclaration)
    (decorators ++ title :: parts)

/-- A declaration of an interface. -/
def interfaceDeclaration (self : Reader) : Scan Tree := do
  let a ← start
  keyword "interface"
  let title ← identifier
  let _ ← attempt (typeParameters self)
  let _ ← attempt do
    keyword "extends"
    commaList (self .type)
  balanced "\x7b"
  close a .interfaceDeclaration [title]

/-- A member of an enumeration with an optional value. -/
def enumMember (self : Reader) : Scan (List Tree) := do
  let key ← propertyName self
  let value ← attempt do
    symbol "="
    self (.expression .inner)
  return key :: value.toList

/-- A declaration of an enumeration. -/
def enumDeclaration (self : Reader) : Scan Tree := do
  let a ← start
  let _ ← keyword? "const"
  keyword "enum"
  let title ← identifier
  symbol "\x7b"
  let members ← many do
    (do
      symbol ","
      pure []) <|> enumMember self
  symbol "\x7d"
  close a .enumDeclaration (title :: members.flatten)

/-- A declaration of a type. -/
def typeAlias (self : Reader) : Scan Tree := do
  let a ← start
  keyword "type"
  if ← breaksLine then failure
  let title ← identifier
  let _ ← attempt (typeParameters self)
  symbol "="
  let value ← self .type
  semicolon false
  close a .typeAliasDeclaration [title, value]

/-- A namespace with its statements; a module may be named by a string and have no body. -/
def namespaceBody (self : Reader) : Scan Tree := do
  let a ← start
  let w ← wordAhead
  if w != "namespace" && w != "module" then failure
  keyword w
  if ← breaksLine then failure
  let _ ← lexeme .string stringLength <|> do
    let first ← identifier
    let _ ← many do
      symbol "."
      name .identifier
    pure first
  let body ← attempt (self .block)
  close a .namespaceDeclaration body.toList

/-- A namespace as a statement. -/
def namespaceStatement (self : Reader) : Scan Tree := do
  let a ← start
  let inner ← namespaceBody self
  if inner.children.isEmpty then semicolon false else lineEnd
  close a .expressionStatement [inner]

/-- A declaration of any kind. -/
def declaration (self : Reader) : Scan Tree := do
  match ← wordAhead with
  | "function" => functionDeclaration self
  | "async" => functionDeclaration self
  | "class" => classDeclaration self
  | "abstract" => classDeclaration self
  | "interface" => interfaceDeclaration self
  | "enum" => enumDeclaration self
  | "const" => enumDeclaration self <|> variableStatement self
  | "let" => variableStatement self
  | "var" => variableStatement self
  | "type" => typeAlias self
  | "namespace" => namespaceStatement self
  | "module" => namespaceStatement self
  | _ => if ← sees "@" then classDeclaration self else failure

/-- A declaration of what exists elsewhere. -/
def ambientDeclaration (self : Reader) : Scan Tree := do
  let a ← start
  keyword "declare"
  if ← breaksLine then failure
  let inner ← declaration self <|> do
    keyword "global"
    self .block
  close a .ambientDeclaration [inner]

/-! ## Modules -/

/-- The string that names a module. -/
def moduleSource : Scan Tree := do
  return (← lexeme .string stringLength).withRole .source

/-- Attributes after the name of a module. -/
def moduleAttributes : Scan Unit := do
  keyword "with" <|> keyword "assert"
  balanced "\x7b"

/-- What an import binds: a default name, a namespace, or names in braces. -/
def importClause : Scan Unit := do
  let item : Scan Unit := balanced "\x7b" <|> (do
    symbol "*"
    keyword "as"
    void (name .identifier)) <|> void (name .identifier)
  void (commaList item)

/-- An import of a module. -/
def importStatement (self : Reader) : Scan Tree := do
  let a ← start
  keyword "import"
  let typed : Scan Unit := do
    keyword "type" <|> keyword "typeof"
    lookahead importClause
    if (← wordAhead) == "from" then failure
  let plain : Scan (List Tree) := do
    let source ← moduleSource
    pure [source]
  let binding : Scan (List Tree) := do
    importClause
    keyword "from"
    let source ← moduleSource
    pure [source]
  let required : Scan (List Tree) := do
    let title ← name .identifier
    symbol "="
    let value ← self (.expression .outer)
    pure [title, value]
  let parts ← plain <|> (attempt typed *> (binding <|> required)) <|> binding <|> required
  let _ ← attempt moduleAttributes
  semicolon false
  close a .importStatement parts

/-- What an export takes from a module: all of it or names in braces. -/
def exportClause : Scan (List Tree) := do
  let _ ← keyword? "type"
  let needsSource ← (do
    symbol "*"
    let _ ← attempt do
      keyword "as"
      name .identifier <|> lexeme .string stringLength
    pure true) <|> (do
    balanced "\x7b"
    pure false)
  let source ← attempt do
    keyword "from"
    moduleSource
  let _ ← attempt moduleAttributes
  if needsSource && source.isNone then failure
  return source.toList

/-- What a default export gives: a named declaration or an expression. -/
def defaultExport (self : Reader) : Scan (List Tree) := do
  keyword "default"
  let declared ← attempt do
    let w ← wordAhead
    if ["function", "async", "class", "abstract", "interface"].contains w || (← sees "@") then
      declaration self
    else failure
  match declared with
  | some inner => return [inner]
  | none => do
    let value ← self (.sequence .outer)
    semicolon true
    return [value]

/-- An export. -/
def exportStatement (self : Reader) : Scan Tree := do
  let a ← start
  let decorators ← many (decorator self)
  keyword "export"
  let clause : Scan (List Tree) := do
    let parts ← exportClause
    semicolon false
    pure parts
  let declared : Scan (List Tree) := do
    let inner ← declaration self <|> ambientDeclaration self <|> importStatement self
    pure [inner]
  let assigned : Scan (List Tree) := do
    symbol "="
    let value ← self (.expression .outer)
    semicolon true
    pure [value]
  let globally : Scan (List Tree) := do
    keyword "as"
    keyword "namespace"
    let title ← identifier
    semicolon false
    pure [title]
  let parts ← clause <|> defaultExport self <|> declared <|> assigned <|> globally
  close a .exportStatement (decorators ++ parts)

/-! ## Control -/

/-- A choice with an optional alternative. -/
def ifStatement (self : Reader) : Scan Tree := do
  let a ← start
  keyword "if"
  let test ← condition self
  let yes ← self .statement
  let alternative ← attempt do
    let b ← start
    keyword "else"
    let no ← self .statement
    close b .elseClause [no]
  close a .ifStatement (test :: yes :: alternative.toList)

/-- One case of a switch with its statements. -/
def switchCase (self : Reader) : Scan Tree := do
  let a ← start
  let test ← (do
    keyword "case"
    let value ← self (.sequence .inner)
    pure (some value)) <|> (do
    keyword "default"
    pure none)
  symbol ":"
  let items ← blockItems self
  close a .switchCase (test.toList ++ items)

/-- A choice among cases. -/
def switchStatement (self : Reader) : Scan Tree := do
  let a ← start
  keyword "switch"
  let value ← condition self
  symbol "\x7b"
  let cases ← many (comment <|> switchCase self)
  symbol "\x7d"
  close a .switchStatement (value :: cases)

/-- The head of a loop over the parts of a value. -/
def forInHead (self : Reader) : Scan (List Tree) := do
  symbol "("
  let bound ← (do
    let w ← wordAhead
    if !(["const", "let", "var"].contains w) then failure
    keyword w
    pattern self) <|> self (.operand { allowIn := false })
  keyword "of" <|> keyword "in"
  let value ← self (.sequence .inner)
  symbol ")"
  return [bound, value]

/-- The head of a counting loop. -/
def forHead (self : Reader) : Scan (List Tree) := do
  symbol "("
  let initial ← (do
    let (_, items) ← declarators self { allowIn := false }
    pure items) <|> (do
    let value ← self (.sequence { allowIn := false })
    pure [value]) <|> pure []
  symbol ";"
  let test ← attempt (self (.sequence .inner))
  symbol ";"
  let update ← attempt (self (.sequence .inner))
  symbol ")"
  return initial ++ test.toList ++ update.toList

/-- A loop with a head. -/
def forStatement (self : Reader) : Scan Tree := do
  let a ← start
  keyword "for"
  let _ ← keyword? "await"
  let (kind, head) ← (do
    let head ← forInHead self
    pure (Kind.forInStatement, head)) <|> (do
    let head ← forHead self
    pure (Kind.forStatement, head))
  let body ← self .statement
  close a kind (head ++ [body.withRole .body])

/-- A loop with its test first. -/
def whileStatement (self : Reader) : Scan Tree := do
  let a ← start
  keyword "while"
  let test ← condition self
  let body ← self .statement
  close a .whileStatement [test, body.withRole .body]

/-- A loop with its test last; its semicolon may be missing. -/
def doStatement (self : Reader) : Scan Tree := do
  let a ← start
  keyword "do"
  let body ← self .statement
  keyword "while"
  let test ← condition self
  let _ ← attempt (semicolon false)
  close a .doStatement [body.withRole .body, test]

/-- A block with handlers. -/
def tryStatement (self : Reader) : Scan Tree := do
  let a ← start
  keyword "try"
  let body ← self .block
  let handler ← attempt do
    let b ← start
    keyword "catch"
    let bound ← attempt do
      symbol "("
      let bound ← pattern self
      let _ ← attempt (annotatedType self)
      symbol ")"
      pure bound
    let inner ← self .block
    close b .catchClause (bound.toList ++ [inner])
  let finalizer ← attempt do
    let b ← start
    keyword "finally"
    let inner ← self .block
    close b .finallyClause [inner]
  close a .tryStatement (body :: handler.toList ++ finalizer.toList)

/-- A statement with an object in scope. -/
def withStatement (self : Reader) : Scan Tree := do
  let a ← start
  keyword "with"
  let value ← condition self
  let body ← self .statement
  close a .withStatement [value, body]

/-- A statement with a label. -/
def labeledStatement (self : Reader) : Scan Tree := do
  let a ← start
  let label ← identifier
  symbol ":"
  let body ← self .statement
  close a .labeledStatement [label, body]

/-- A jump: a keyword with an optional value on the same line. -/
def returnStatement (self : Reader) : Scan Tree := do
  let a ← start
  keyword "return"
  let bare : Scan Tree := do
    semicolon false
    close a .returnStatement []
  bare <|> do
    let value ← self (.sequence .outer)
    semicolon true
    close a .returnStatement [value]

/-- A statement that raises a value. -/
def throwStatement (self : Reader) : Scan Tree := do
  let a ← start
  keyword "throw"
  let value ← self (.sequence .outer)
  semicolon true
  close a .throwStatement [value]

/-- A jump out of a loop or to its next round, with an optional label. -/
def jumpStatement (w : String) (kind : Kind) : Scan Tree := do
  let a ← start
  keyword w
  let bare : Scan Tree := do
    semicolon false
    close a kind []
  bare <|> do
    let label ← identifier
    semicolon false
    close a kind [label]

/-- A stop for a debugger. -/
def debuggerStatement : Scan Tree := do
  let a ← start
  keyword "debugger"
  semicolon false
  close a .debuggerStatement []

/-- A semicolon alone. -/
def emptyStatement : Scan Tree := do
  let a ← start
  symbol ";"
  close a .emptyStatement []

/-- An expression as a statement. -/
def expressionStatement (self : Reader) : Scan Tree := do
  let a ← start
  let value ← self (.sequence .outer)
  semicolon true
  close a .expressionStatement [value]

/-- A statement that a keyword announces. -/
def keywordStatement (self : Reader) (w : String) : Scan Tree :=
  match w with
  | "if" => ifStatement self
  | "for" => forStatement self
  | "while" => whileStatement self
  | "do" => doStatement self
  | "switch" => switchStatement self
  | "try" => tryStatement self
  | "with" => withStatement self
  | "return" => returnStatement self
  | "throw" => throwStatement self
  | "break" => jumpStatement "break" .breakStatement
  | "continue" => jumpStatement "continue" .continueStatement
  | "debugger" => debuggerStatement
  | "import" => importStatement self
  | "export" => exportStatement self
  | "declare" => ambientDeclaration self
  | _ => failure

/-- A statement. -/
def statement (self : Reader) : Scan Tree := do
  let cs ← ahead
  match cs with
  | '\x7b' :: _ => self .block
  | ';' :: _ => emptyStatement
  | '@' :: _ => exportStatement self <|> classDeclaration self
  | _ => do
    let w ← wordAhead
    keywordStatement self w <|> declaration self <|> labeledStatement self <|>
      expressionStatement self

end Script
end SuiteShift
