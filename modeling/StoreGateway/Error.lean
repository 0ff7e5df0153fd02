/-!
# What can go wrong with a request

* `Error`: the kinds of failure that reach a caller;
* `Error.kind`: the word for the kind;
* `Error.message`: the text that tells the caller.
-/

namespace StoreGateway

inductive Error where
  /-- A tool could not be started or spoken to, or a file not be read. -/
  | io (cause : String)
  /-- A tool's output or an ingested record is not JSON. -/
  | parse (cause : String)
  /-- A tool's output is JSON of the wrong shape. -/
  | protocol (cause : String)
  | outputLimit (limit : Nat)
  | missingTable
  | missingQuerySpec (field : String)
  /-- A request does not decode. -/
  | serialization (cause : String)
  | config (cause : String)
  /-- The columns of a table could not be loaded. -/
  | metadata (cause : String)
  | internal (cause : String)
deriving DecidableEq, Repr

namespace Error

def kind : Error → String
  | io _ => "io"
  | parse _ => "parse"
  | protocol _ => "protocol"
  | outputLimit _ => "output_limit"
  | missingTable => "missing_table"
  | missingQuerySpec _ => "missing_query_spec"
  | serialization _ => "serialization"
  | config _ => "config"
  | metadata _ => "metadata"
  | internal _ => "internal"

def message : Error → String
  | io cause => "IO error: " ++ cause
  | parse cause => "Error parsing JSON: " ++ cause
  | protocol cause => "Unexpected tool output: " ++ cause
  | outputLimit limit => "Tool output exceeded the " ++ toString limit ++ " byte limit"
  | missingTable => "No table supplied"
  | missingQuerySpec field => "Query spec is missing " ++ field
  | serialization cause => "Serialization error: " ++ cause
  | config cause => "Configuration error: " ++ cause
  | metadata cause => "Metadata error: " ++ cause
  | internal cause => "Internal error: " ++ cause

/-- The text of the failure underneath, which only a failed input or output has. -/
def source? : Error → Option String
  | io cause => some cause
  | _ => none

end Error

end StoreGateway
