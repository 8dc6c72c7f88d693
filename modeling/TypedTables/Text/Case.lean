/-!
# Letter case

Case conversion as far as ASCII letters come out of it: of ASCII letters, of the few other
letters whose capitals are ASCII, among them the sharp s and the ligatures with several
capitals, and of the kelvin sign. All other characters stay as they are.
-/
namespace TypedTables.Text

/-- The letters outside ASCII whose capitals are ASCII. -/
def capitalsOutsideAscii : List (Char × List Char) :=
  [('ß', ['S', 'S']), ('ı', ['I']), ('ſ', ['S']), ('\ufb00', ['F', 'F']), ('\ufb01', ['F', 'I']),
   ('\ufb02', ['F', 'L']), ('\ufb03', ['F', 'F', 'I']), ('\ufb04', ['F', 'F', 'L']),
   ('\ufb05', ['S', 'T']), ('\ufb06', ['S', 'T'])]

/-- The capitals of a letter. -/
def capitals (c : Char) : List Char := (capitalsOutsideAscii.lookup c).getD [c.toUpper]

/-- The small letter of a letter. -/
def small (c : Char) : Char := if c = '\u212a' then 'k' else c.toLower

/-- A text in capitals. -/
def inCapitals (s : String) : String := String.ofList (s.toList.flatMap capitals)

/-- A text in small letters. -/
def inSmall (s : String) : String := String.ofList (s.toList.map small)

end TypedTables.Text
