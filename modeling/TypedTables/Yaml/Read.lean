import TypedTables.Units.Overrides
import TypedTables.Yaml.Document
/-!
# A reader of overrides

The reader with which the command line runs. It knows block and flow collections, plain and quoted
scalars and their YAML 1.1 values, which is all that files of sizes are made of. A full reader knows
more: anchors, aliases, tags, directives, block scalars and merged mappings are refused here.
-/
namespace TypedTables.Yaml

open TypedTables.Units (Symbol SizeEntry YamlReader)

/-- A key of a mapping. -/
def Scalar.symbol (s : Scalar) : Symbol := ⟨s.name, s.shown⟩

/-- A value of a mapping. -/
def Node.sizeEntry : Node → SizeEntry
  | .scalar (.int i) => .int i
  | .scalar (.float x) => .float x
  | .scalar (.text s) => .text s
  | value => .other value.shown

/-- A document, as far as overrides look at it. -/
def Node.document : Node → Units.Document
  | .mapping entries => .mapping (entries.map fun e => (e.1.symbol, e.2.sizeEntry))
  | value => .other value.isTruthy

def read : YamlReader := fun text =>
  match Node.ofText? text with
  | none => .error .malformed
  | some value =>
    match value.fault? with
    | some why => .error (.noValue why)
    | none => .ok value.document

end TypedTables.Yaml
