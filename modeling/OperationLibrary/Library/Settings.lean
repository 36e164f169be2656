import OperationLibrary.Json.Check
import OperationLibrary.Json.Parser
import OperationLibrary.Text.Lines

/-!
Settings of a library: where its files go, what they are written for, and the id of the schema.
Settings are read from a JSON object in which every key is optional; a key may be written in camel
case or in the long form with low lines.
-/

namespace OperationLibrary

/-! ### Choices -/

/-- The frameworks that handlers are written for. An override may name any other one. -/
inductive Framework where
  | custom
  | nextJs
  | remix
  | other (name : String)
  deriving DecidableEq

inductive ModuleStyle where
  | commonJs
  | esm
  deriving DecidableEq

inductive HandlerLanguage where
  | javaScript
  | typeScript
  deriving DecidableEq

/-- Where the runtime runs. -/
inductive RuntimeTarget where
  | node
  | browser
  deriving DecidableEq

def Framework.word : Framework → String
  | .custom => "custom"
  | .nextJs => "Next.js"
  | .remix => "Remix"
  | .other name => name

/-- The framework of a name. -/
def Framework.ofWord : String → Framework
  | "custom" => .custom
  | "Next.js" => .nextJs
  | "Remix" => .remix
  | name => .other name

def ModuleStyle.word : ModuleStyle → String
  | .commonJs => "commonjs"
  | .esm => "esm"

def HandlerLanguage.word : HandlerLanguage → String
  | .javaScript => "javascript"
  | .typeScript => "typescript"

def RuntimeTarget.word : RuntimeTarget → String
  | .node => "node"
  | .browser => "browser"

/-! ### Settings -/

/-- Paths are lists of segments. -/
structure Settings where
  extension : String
  functionsPath : List String
  libraryPath : List String
  webhookBasePath : String
  runtimeFilename : List String
  declarationsFilename : List String
  operationsDirectory : List String
  schemaFilename : List String
  requireSegments : List String
  framework : Framework
  moduleStyle : ModuleStyle
  language : HandlerLanguage
  target : RuntimeTarget
  schemaId : String
  deriving DecidableEq

namespace Settings

def standard : Settings where
  extension := "js"
  functionsPath := ["netlify", "functions"]
  libraryPath := ["netlify", "functions", "netlifyGraph"]
  webhookBasePath := "/.netlify/functions"
  runtimeFilename := ["netlify", "functions", "netlifyGraph", "index.js"]
  declarationsFilename := ["netlify", "functions", "netlifyGraph", "index.d.ts"]
  operationsDirectory := ["netlify", "functions", "netlifyGraph", "operations"]
  schemaFilename := ["netlify", "functions", "netlifyGraph", "netlifyGraphSchema.graphql"]
  requireSegments := ["./netlifyGraph"]
  framework := .custom
  moduleStyle := .commonJs
  language := .javaScript
  target := .node
  schemaId := ""

/-- The path that handlers require the library by. -/
def requirePath (settings : Settings) : String :=
  "/".intercalate settings.requireSegments

/-- A type mark of handlers, where their language has them. -/
def typeMark (settings : Settings) (mark : String) : String :=
  if settings.language == .typeScript then mark else ""

/-- The settings with another framework or schema id, where these say something. -/
def override (settings : Settings) (framework schemaId : Option String) : Settings :=
  let given := fun (text : Option String) => text.filter fun t => !t.isEmpty
  { settings with
    framework := ((given framework).map Framework.ofWord).getD settings.framework
    schemaId := (given schemaId).getD settings.schemaId }

/-! ### Reading -/

/-- The settings in the members of an object. -/
def ofMembers (members : List (String × Json)) : Checked Settings :=
  let text := fun short long default => Json.checkKey members short long default Json.checkText
  let path := fun short long default =>
    Json.checkKey members short long default (Json.checkList Json.checkText)
  let paths :=
    (path "functionsPath" "functions_path" standard.functionsPath).both
    ((path "netlifyGraphPath" "netlify_graph_path" standard.libraryPath).both
    ((text "webhookBasePath" "webhook_base_path" standard.webhookBasePath).both
    ((path "netlifyGraphImplementationFilename" "netlify_graph_implementation_filename"
      standard.runtimeFilename).both
    ((path "netlifyGraphTypeDefinitionsFilename" "netlify_graph_type_definitions_filename"
      standard.declarationsFilename).both
    ((path "graphQLOperationsSourceDirectory" "graphql_operations_source_directory"
      standard.operationsDirectory).both
    ((path "graphQLSchemaFilename" "graphql_schema_filename" standard.schemaFilename).both
    (path "netlifyGraphRequirePath" "netlify_graph_require_path"
      standard.requireSegments)))))))
  let choices :=
    (Json.checkKey members "framework" "framework" standard.framework (Json.checkChoice
      [("custom", .custom), ("Next.js", .nextJs), ("Remix", .remix)])).both
    ((Json.checkKey members "moduleType" "module_type" standard.moduleStyle (Json.checkChoice
      [("commonjs", .commonJs), ("esm", .esm)])).both
    ((Json.checkKey members "language" "language" standard.language (Json.checkChoice
      [("javascript", .javaScript), ("typescript", .typeScript)])).both
    (Json.checkKey members "runtimeTargetEnv" "runtime_target_env" standard.target (Json.checkChoice
      [("node", .node), ("browser", .browser)]))))
  ((text "extension" "extension" standard.extension).both (paths.both (choices.both
    (text "schemaId" "schema_id" standard.schemaId)))).map
    fun (extension,
      (functionsPath, libraryPath, webhookBasePath, runtimeFilename, declarationsFilename,
        operationsDirectory, schemaFilename, requireSegments),
      (framework, moduleStyle, language, target), schemaId) =>
      { extension, functionsPath, libraryPath, webhookBasePath, runtimeFilename,
        declarationsFilename, operationsDirectory, schemaFilename, requireSegments, framework,
        moduleStyle, language, target, schemaId }

/-- The settings that a JSON value holds. -/
def ofJson : Json → Checked Settings :=
  Json.checkModel ofMembers

end Settings

/-! ### Settings files -/

/-- Why a text holds no settings. -/
inductive SettingsFault where
  | notJson (error : Json.SyntaxError)
  | tooManyDigits
  | notAnObject
  | invalid (problems : List ValueProblem)
  deriving DecidableEq

/-- The first line of the wording of a fault in the file `name` with these contents. -/
def SettingsFault.message (name contents : String) : SettingsFault → String
  | .notJson error => name ++ " is not valid JSON: " ++ error.message (Text.ofFile contents)
  | .tooManyDigits => name ++ " holds a number with too many digits"
  | .notAnObject => name ++ " must contain a JSON object"
  | .invalid _ => "Invalid config in " ++ name ++ ":"

/-- The settings in the contents of a file. -/
def Settings.parse (contents : String) : Except SettingsFault Settings :=
  match Json.parse (Text.ofFile contents) with
  | .error ⟨.tooManyDigits, _⟩ => .error .tooManyDigits
  | .error error => .error (.notJson error)
  | .ok value =>
    match value with
    | .object _ => (Settings.ofJson value).mapError .invalid
    | _ => .error .notAnObject

end OperationLibrary
