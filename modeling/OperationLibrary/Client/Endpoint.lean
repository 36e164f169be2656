import OperationLibrary.Text.Blank
import OperationLibrary.Text.Percent

/-!
Where the graph service is. The parameters of its address say who asks, for which operation, and
which schema the operation was written for.
-/

namespace OperationLibrary

/-- Where requests go, and on whose behalf. -/
structure Endpoint where
  host : String
  siteId : String
  schemaId : String
  deriving DecidableEq

namespace Endpoint

def standardHost : String := "https://graph.netlify.com"

/-- The host without slashes at its end. -/
def base (endpoint : Endpoint) : String :=
  String.ofList (Text.dropEndWhile (· == '/') endpoint.host.toList)

/-- The address for an operation. -/
def address (endpoint : Endpoint) (operationName : String) : String :=
  endpoint.base ++ "/graphql?app_id=" ++ Text.Percent.encode endpoint.siteId ++
    "&operationName=" ++ Text.Percent.encode operationName ++
    "&schema_id=" ++ Text.Percent.encode endpoint.schemaId

end Endpoint

end OperationLibrary
