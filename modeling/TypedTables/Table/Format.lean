/-!
# Table formats

The layouts that a table source can have, the directives that a source may carry, and
the keywords of header rows, each with its written form.
-/
namespace TypedTables

/-- The layout of a table. mirrors `TableFormat` -/
inductive TableFormat where
  /-- a table of entities: named rows, or rows without names -/
  | entities
  /-- fields and rows added to another table -/
  | entitiesMod
  /-- rows that must not be named -/
  | anonymousRows
  /-- row names only -/
  | enumeration
  /-- titles by name -/
  | wikiLookup
  /-- a grid whose rows and columns are both named by entities -/
  | grid
  deriving DecidableEq, Repr

namespace TableFormat

def all : List TableFormat :=
  [.entities, .entitiesMod, .anonymousRows, .enumeration, .wikiLookup, .grid]

def keyword : TableFormat → String
  | .entities => "DB_ENTITIES"
  | .entitiesMod => "DB_ENTITIES_MOD"
  | .anonymousRows => "DB_ANONYMOUS_ROWS"
  | .enumeration => "ENUMERATION"
  | .wikiLookup => "WIKI_LOOKUP"
  | .grid => "ENUM_X_ENUM"

def ofKeyword? (s : String) : Option TableFormat := all.find? (·.keyword == s)

/-- Whether the table consists of rows with fields. mirrors `TableFormat.is_db_style` -/
def isRecords : TableFormat → Bool
  | .grid => false
  | _ => true

/-- Whether every row must have a name. -/
def needsRowNames : TableFormat → Bool
  | .entitiesMod => true
  | .enumeration => true
  | .wikiLookup => true
  | _ => false

/-- Whether fields without a declared type are texts. -/
def defaultsToText : TableFormat → Bool
  | .enumeration => true
  | .wikiLookup => true
  | _ => false

theorem ofKeyword_keyword (f : TableFormat) : ofKeyword? f.keyword = some f := by
  cases f <;> decide

end TableFormat

/-- A line that says something about the whole table. mirrors `TableDirective` -/
inductive Directive where
  | modifies
  | dataType
  | tableType
  | dataDefault
  | dataUnit
  | transpose
  | dontParse
  deriving DecidableEq, Repr

namespace Directive

def all : List Directive :=
  [.modifies, .dataType, .tableType, .dataDefault, .dataUnit, .transpose, .dontParse]

def keyword : Directive → String
  | .modifies => "MODIFIES"
  | .dataType => "DATA_TYPE"
  | .tableType => "TABLE_TYPE"
  | .dataDefault => "DATA_DEFAULT"
  | .dataUnit => "DATA_UNIT"
  | .transpose => "TRANSPOSE"
  | .dontParse => "DONT_PARSE"

def ofKeyword? (s : String) : Option Directive := all.find? (·.keyword == s)

/-- Whether the directive is meaningless without an argument. mirrors `DIRECTIVES_WITH_ARGUMENT` -/
def needsArgument : Directive → Bool
  | .modifies => true
  | .dataType => true
  | .tableType => true
  | .dataDefault => true
  | .dataUnit => true
  | .transpose => false
  | .dontParse => false

theorem ofKeyword_keyword (d : Directive) : ofKeyword? d.keyword = some d := by
  cases d <;> decide

end Directive

/-- The directives that a table of a format may carry, in alphabetical order; that a
source is not to be parsed may be said in any. mirrors `LEGAL_DIRECTIVES` -/
def TableFormat.directives : TableFormat → List Directive
  | .entitiesMod => [.modifies]
  | .grid => [.dataDefault, .dataType, .dataUnit, .tableType, .transpose]
  | _ => []

/-- The rows between the field names and the content. mirrors `HeaderKeyword` -/
inductive HeaderRow where
  | type
  | unit
  | default
  /-- field prefixes -/
  | affix
  deriving DecidableEq, Repr

namespace HeaderRow

def all : List HeaderRow := [.type, .unit, .default, .affix]

def keyword : HeaderRow → String
  | .type => "Type"
  | .unit => "Unit"
  | .default => "Default"
  | .affix => "Prefix"

def ofKeyword? (s : String) : Option HeaderRow := all.find? (·.keyword == s)

theorem ofKeyword_keyword (h : HeaderRow) : ofKeyword? h.keyword = some h := by
  cases h <;> decide

end HeaderRow

end TypedTables
