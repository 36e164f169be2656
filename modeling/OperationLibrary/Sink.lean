/-!
Sinks take notices and are known by name. A registered sink takes everything until it is taken
back; otherwise notices go to the sink that is asked for, or to the one of the whole library.
-/

namespace OperationLibrary

structure Sinks where
  registered : Option String
  deriving DecidableEq

namespace Sinks

def initial : Sinks := ⟨none⟩

/-- The sink of the whole library. -/
def libraryName : String := "gql_netgraph"

/-- The name of a sink; the one without a name is the root of all. -/
def named (name : String) : String :=
  if name.isEmpty then "root" else name

def register (_sinks : Sinks) (name : Option String) : Sinks :=
  ⟨name.map named⟩

/-- The sink that takes notices meant for `requested`. -/
def get (sinks : Sinks) (requested : Option String) : String :=
  sinks.registered.getD ((requested.map named).getD libraryName)

end Sinks

end OperationLibrary
