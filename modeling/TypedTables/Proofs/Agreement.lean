import TypedTables.Proofs.LastWriter
/-!
# Linkings that agree

What a run does with a table depends on the names of the dataset and on the units only through the
answers that they give: where an entity is, and what a number is in base units. The order in which
names were registered and the compound units that were worked out before make no difference.

Results:
* `convert_afterConversion`: what is learned about units changes no conversion.
* `Agrees.addTable`: linkings that agree do the same with every table.
-/
namespace TypedTables

namespace Units.Converter

/-- Learning a text changes no conversion. -/
theorem convert_learn (c : Converter) (unit : String) (x : Float) (u : String)
    (direction : Direction) (allowCompound : Bool) :
    (c.learn unit).convert x u direction allowCompound =
      c.convert x u direction allowCompound := by
  simp only [convert, learn_sizes, learn_nonlinear, multiplier_learn]

theorem convert_afterConversion (c : Converter) (unit : String) (x : Float) (u : String) :
    (c.afterConversion unit).convert x u = c.convert x u := by
  unfold afterConversion
  split
  · exact convert_learn c unit x u _ _
  · rfl

end Units.Converter

namespace Linking

/-- Titles are texts of the table and need neither names nor units. -/
theorem addTitle_eq (l l' : Linking) (d : Draft) : l.addTitle d = l'.addTitle d := rfl

theorem addTitles_eq (l l' : Linking) (d : Draft) : l.addTitles d = l'.addTitles d := by
  funext wiki rows
  induction rows generalizing wiki with
  | nil => rfl
  | cons p rows ih => simp only [addTitles, addTitle_eq l l', ih]

/-- Two linkings give the same answers. -/
structure Agrees (l l' : Linking) : Prop where
  options : l.options = l'.options
  entities : ∀ name, l.entities.get? name = l'.entities.get? name
  convert : ∀ x unit, l.units.convert x unit = l'.units.convert x unit

namespace Agrees

variable {l l' : Linking} (h : l.Agrees l') (d : Draft)
include h

/-! ## Cells -/

theorem scalar : (l.resolver d).scalar = (l'.resolver d).scalar := by
  have text : (l.resolver d).text = (l'.resolver d).text := rfl
  have entityRow : (l.resolver d).entityRow = (l'.resolver d).entityRow := by
    funext name
    simp only [resolver, h.entities]
  have integer : (l.resolver d).integer = (l'.resolver d).integer := by
    funext raw
    simp only [Resolver.integer, text, entityRow]
    rfl
  have number : (l.resolver d).number = (l'.resolver d).number := by
    funext raw unit
    have convert : ∀ x, (l.resolver d).units.convert x unit =
        (l'.resolver d).units.convert x unit := fun x => h.convert x unit
    simp only [Resolver.number, convert]
  funext raw base unit
  simp only [Resolver.scalar, text, integer, number]
  rfl

theorem cell : l.cell d = l'.cell d := by
  funext raw type unit
  simp only [Linking.cell, Resolver.resolve, h.scalar d]

theorem checkUnit : l.checkUnit d = l'.checkUnit d := by
  funext unit field
  simp only [Linking.checkUnit, Units.Converter.isValid, Units.Converter.convertOrNaN, h.convert]

theorem wikiColumn? : l.wikiColumn? d = l'.wikiColumn? d := by
  simp only [Linking.wikiColumn?, h.options]

/-! ## Tables of records -/

omit d in
theorem tracks : l.tracks = l'.tracks := by
  funext type
  simp only [Linking.tracks, h.options]

theorem sheet : l.sheet d = l'.sheet d := by
  simp only [Linking.sheet, Linking.field, h.tracks, h.cell d, h.checkUnit d]

theorem addField : l.addField d = l'.addField d := by
  funext t s c
  simp only [Linking.addField, h.tracks, h.cell d, h.checkUnit d]

theorem writeCell : l.writeCell d = l'.writeCell d := by
  funext row s c raw
  simp only [Linking.writeCell, h.cell d]

theorem writeRow : l.writeRow d = l'.writeRow d := by
  funext title name row state cells
  induction cells generalizing state with
  | nil => rfl
  | cons p cells ih => simp only [Linking.writeRow, h.writeCell d, addTitle_eq l l', ih]

theorem writeRows : l.writeRows d = l'.writeRows d := by
  funext t title state rows
  induction rows generalizing state with
  | nil => rfl
  | cons p rows ih => simp only [Linking.writeRows, h.writeRow d, ih]

theorem modify : l.modify d = l'.modify d := by
  funext t s wiki
  simp only [Linking.modify, h.addField d, h.wikiColumn? d, h.writeRows d]

/-! ## Grids -/

theorem owner (axis : Axis) (names : List String) :
    axisOwner l.entities d axis names = axisOwner l'.entities d axis names := by
  simp only [axisOwner, h.entities]

theorem fillRow (g : Grid) (columns : Enumeration) (row : Nat) :
    l.fillRow d g columns row = l'.fillRow d g columns row := by
  funext cells named
  induction named generalizing cells with
  | nil => rfl
  | cons p named ih => simp only [Linking.fillRow, h.cell d, ih]

theorem fillGrid (g : Grid) (rows columns : Enumeration) :
    l.fillGrid d g rows columns = l'.fillGrid d g rows columns := by
  funext cells named
  induction named generalizing cells with
  | nil => rfl
  | cons p named ih => simp only [Linking.fillGrid, h.fillRow d, ih]

section Enumerations

variable {enumerations enumerations' : OrderedMap String Enumeration}
  (same : ∀ o, enumerations.get? o = enumerations'.get? o)
include same

theorem grid (g : Grid) : l.grid enumerations d g = l'.grid enumerations' d g := by
  simp only [Linking.grid, h.cell d, h.checkUnit d, h.owner d, h.fillGrid d, same]

/-! ## Drafts -/

/-- **Agreement.** Linkings that agree do the same with every table. -/
theorem addTable (a : Assembly) :
    l.addTable enumerations a d = l'.addTable enumerations' a d := by
  have addSheet : l.addSheet a d = l'.addSheet a d := by
    simp only [Linking.addSheet, h.sheet d, h.wikiColumn? d, addTitles_eq l l']
  have addWikiLookup : l.addWikiLookup a d = l'.addWikiLookup a d := by
    simp only [Linking.addWikiLookup, h.wikiColumn? d, addTitles_eq l l', h.options]
  have addMod : ∀ t, l.addMod enumerations a d t = l'.addMod enumerations' a d t := by
    intro t
    simp only [Linking.addMod, h.modify d, same]
  have addGrid : ∀ g, l.addGrid enumerations a d g = l'.addGrid enumerations' a d g := by
    intro g
    simp only [Linking.addGrid, h.grid d same]
  simp only [Linking.addTable, addSheet, addWikiLookup, addMod, addGrid, h.options, same]

theorem addTables (a : Assembly) (tables : List Draft) :
    l.addTables enumerations a tables = l'.addTables enumerations' a tables := by
  induction tables generalizing a with
  | nil => rfl
  | cons d tables ih => simp only [Linking.addTables, h.addTable d same, ih]

end Enumerations

end Agrees

end Linking

end TypedTables
