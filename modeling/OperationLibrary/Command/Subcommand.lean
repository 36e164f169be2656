import OperationLibrary.Command.Arguments

/-!
The subcommands: the options that they take, and what they say about themselves.
-/

namespace OperationLibrary.Command

inductive Subcommand where
  | generate
  | handler
  | order
  | normalize
  deriving DecidableEq

namespace Subcommand

def all : List Subcommand :=
  [.generate, .handler, .order, .normalize]

def word : Subcommand → String
  | .generate => "generate"
  | .handler => "handler"
  | .order => "order"
  | .normalize => "normalize"

def ofWord? (word : String) : Option Subcommand :=
  all.find? (·.word == word)

/-! ### Options -/

def schemaRule : OptionRule where
  names := ["--schema", "-s"]
  value := .path true none
  isRequired := true
  about := "Path to GraphQL schema (SDL file, directory, introspection JSON or archive)."

def operationsRule : OptionRule where
  names := ["--operations", "-o"]
  value := .path true (some .file)
  isRequired := true
  about := "Path to the GraphQL operations document."

def settingsRule : OptionRule where
  names := ["--config", "-c"]
  value := .path false (some .file)
  about := "Path to a JSON codegen config."

/-- The option for a directory that files are written below. -/
def outputRule (preset : Option String) (about : String) : OptionRule where
  names := ["--output"]
  value := .path false (some .directory)
  preset := preset
  about := about

def schemaIdRule : OptionRule where
  names := ["--schema-id"]
  value := .text
  about := "Schema id baked into the runtime and lockfile."

def operationIdRule : OptionRule where
  names := ["--operation-id"]
  value := .text
  isRequired := true
  about := "Id of the @netlify annotated operation."

def frameworkRule : OptionRule where
  names := ["--framework"]
  value := .choice ["custom", "Next.js", "Remix"]
  about := "Override the framework from the config."

def postRule : OptionRule :=
  .flag ["--post"] "Read variables from a POST body instead of the query string."

def clientAuthRule : OptionRule :=
  .flag ["--client-auth"] "Forward the user's auth headers in client helpers."

def writeRule : OptionRule :=
  .flag ["--write"] "Rewrite the operations file in place."

def verboseRule : OptionRule :=
  .flag ["--verbose", "-v"] "Enable verbose output."

def helpRule : OptionRule :=
  .flag ["--help"] "Show this message and exit."

/-- The options of a subcommand, in the order in which it explains them. -/
def rules : Subcommand → List OptionRule
  | .generate =>
    [schemaRule, operationsRule, settingsRule,
      outputRule (some ".") "Root directory the configured file paths are resolved against.",
      schemaIdRule, verboseRule, helpRule]
  | .handler =>
    [schemaRule, operationsRule, settingsRule, operationIdRule, frameworkRule, postRule,
      clientAuthRule,
      outputRule none "Directory to write the handler to (prints to stdout when omitted).",
      verboseRule, helpRule]
  | .order => [operationsRule, verboseRule, helpRule]
  | .normalize => [operationsRule, writeRule, helpRule]

/-! ### Purposes -/

/-- What a subcommand does, in one sentence. -/
def purpose : Subcommand → String
  | .generate => "Generate the runtime library and its type declarations."
  | .handler => "Generate a handler snippet for one operation."
  | .order => "Print definitions in dependency order."
  | .normalize => "Print the operations document in canonical form."

/-- What else there is to say, in paragraphs. -/
def remarks : Subcommand → List String
  | .order => ["Fragments are listed before the definitions that spread them."]
  | .generate | .handler | .normalize => []

/-- Command lines that show how a subcommand is used. -/
def examples : Subcommand → List String
  | .generate =>
    ["gql-netgraph generate -s ./schema.graphql -o ./operations.graphql",
      "gql-netgraph generate -s ./schema -o ./ops.graphql -c netlifyGraph.json --output ./site"]
  | .handler =>
    ["gql-netgraph handler -s ./schema.graphql -o ./ops.graphql --operation-id 1234",
      "gql-netgraph handler -s ./schema.graphql -o ./ops.graphql --operation-id 1234 " ++
        "--framework Next.js --post"]
  | .order | .normalize => []

end Subcommand

def versionRule : OptionRule :=
  .flag ["--version"] "Show the version and exit."

/-- The options in front of the subcommand. -/
def mainRules : List OptionRule :=
  [versionRule, Subcommand.helpRule]

end OperationLibrary.Command
