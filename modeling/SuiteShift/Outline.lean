import SuiteShift.Spec.Source
import SuiteShift.Lowering.Basic
import SuiteShift.Json.Printer

/-!
# Outline of a test file

`ofSpec` lists the parts of a test file with the code for each command, for a look at what
was read. `sample` is the outline of a small file.
-/

namespace SuiteShift
namespace Outline

/-- A line at a level of nesting. -/
def line (depth : Nat) (text : String) : String :=
  Json.indentation depth ++ text ++ "\n"

/-- A value with its kind. -/
def describe : Value → String
  | .bool value => "Bool(" ++ (if value then "true" else "false") ++ ")"
  | .number value => "Number(" ++ value.text ++ ")"
  | .string value => "String(" ++ Json.quoteText value ++ ")"
  | .raw source => "Raw(" ++ Json.quoteText source ++ ")"

/-- The name of a hook with a capital letter. -/
def hookName : HookKind → String
  | .before => "Before"
  | .beforeEach => "BeforeEach"
  | .after => "After"
  | .afterEach => "AfterEach"

/-- A command with its code, or other text. -/
def statement (depth : Nat) : Statement → String
  | .command command span =>
    let result := command.lower
    line depth ("[" ++ toString span.line ++ "] " ++ command.source) ++
    String.join ((Text.linesOf result.code).map fun code => line (depth + 1) ("=> " ++ code)) ++
    String.join (result.diagnostics.map fun message => line (depth + 1) ("!! " ++ message))
  | .raw text _ => line depth ("raw: " ++ text)

/-- The statements of a body. -/
def body (depth : Nat) (statements : List Statement) : String :=
  String.join (statements.map (statement depth))

mutual

/-- A part of a test file. -/
def node (depth : Nat) : TestNode → String
  | .suite title _ children _ => line depth ("suite " ++ describe title) ++ nodes (depth + 1) children
  | .test title _ statements _ => line depth ("test " ++ describe title) ++ body (depth + 1) statements
  | .hook kind statements _ => line depth ("hook " ++ hookName kind) ++ body (depth + 1) statements
  | .statement loose => statement depth loose

/-- Parts of a test file. -/
def nodes (depth : Nat) : List TestNode → String
  | [] => ""
  | first :: rest => node depth first ++ nodes depth rest

end

/-- The custom commands and the parts of a test file. -/
def ofSpec (spec : SpecFile) : String :=
  "Parsed file: " ++ Json.quoteText spec.path ++ "\n\nCustom commands:\n" ++
  String.join (spec.definitions.map fun definition =>
    line 1 (definition.name ++ "(" ++ ", ".intercalate definition.parameters ++ ")")) ++
  "\nNodes:\n" ++ nodes 1 spec.nodes

/-- A small test file. -/
def sampleSource : String :=
  "
Cypress.Commands.add('login', (email, password) => \x7b
  cy.visit('/login');
  cy.get('[data-testid=\"email\"]').type(email);
  cy.get('[data-testid=\"password\"]').type(password);
  cy.get('button[type=\"submit\"]').click();
\x7d);

describe('Dashboard', () => \x7b
  beforeEach(() => \x7b
    cy.login('user@example.com', 'secret');
  \x7d);

  it('shows the greeting', () => \x7b
    cy.contains('Welcome back').should('be.visible');
    cy.get('.card').first().find('a').click();
    cy.url().should('include', '/dashboard');
  \x7d);
\x7d);
"

/-- The outline of the small test file. -/
def sample : Except SourceError String :=
  (SpecFile.ofSource "dashboard.cy.js" sampleSource).map ofSpec

end Outline
end SuiteShift
