import DeclOrder.FileTree
import DeclOrder.Options
import DeclOrder.Toml.Reader

/-!
# Configuration

Options come from the `declaration-order` table of a configuration file, overlaid with the options
of a request.  A file that is missing or malformed counts as empty; any other fault of a file is a
failure.
-/

namespace DeclOrder

/-- Why no options could be resolved: reading failed, or options are refused. -/
inductive ConfigError where
  | failed (failure : Failure)
  | refused (error : OptionsError)

namespace Config

def fileName : String := "setup_order.toml"

def tableName : String := "declaration-order"

/-- The path of the configuration file: the one that is given, or else the one in the root. -/
def filePath (root config : Option Path) : Path :=
  config.getD ((root.getD { names := [] }).child [fileName])

def load (tree : FileTree) (path : Path) : Except ConfigError Table :=
  match tree.readText path with
  | .error failure => .error (.failed failure)
  | .ok (.error _) => .ok []
  | .ok (.ok text) =>
    match Toml.read text with
    | .ok values => .ok values
    | .error .malformed => .ok []
    | .error (.failed failure) => .error (.failed failure)

def optionsOf (values : Table) : Table :=
  match values.get? tableName with
  | some (.table entries) => entries
  | _ => []

def canonicalKey (key : String) : String :=
  if key = "sectionOrder" then "section_order"
  else if key = "lifecycleOrder" then "lifecycle_order"
  else key

/-- A table under the chief spellings of its keys.  Of two spellings of one option the later one
counts. -/
def canonical (table : Table) : Table :=
  Table.overlay [] (table.map fun (key, value) => (canonicalKey key, value))

/-- The options of a configuration file, overlaid with those of a request. -/
def resolve (tree : FileTree) (root config : Option Path) (payload : Table) :
    Except ConfigError Options := do
  let values ← load tree (filePath root config)
  let merged := Table.merge (canonical payload) (canonical (optionsOf values))
  match Options.ofTable merged with
  | .ok options => .ok options
  | .error error => .error (.refused error)

end Config

end DeclOrder
