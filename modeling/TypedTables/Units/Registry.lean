import TypedTables.OrderedMap
import TypedTables.Units.Quantity
/-!
# The built-in units

The size of each unit in the base units metre, kilogram, second, ampere, kelvin, mole
and candela, and the temperature scales, which are no multiple of the kelvin.
-/
namespace TypedTables.Units

/-- A conversion that is not a multiplication. -/
structure Nonlinear where
  toBase : Float → Except ArithmeticFault Float
  fromBase : Float → Except ArithmeticFault Float

/-- The conversion `x * scale + offset` and its inverse. -/
def Nonlinear.affine (scale offset : Float) : Nonlinear where
  toBase x := .ok (x * scale + offset)
  fromBase x := if scale == 0.0 then .error .divisionByZero else .ok ((x - offset) / scale)

/-- mirrors `_celsius` -/
def celsius : Nonlinear where
  toBase x := .ok (x + 273.15)
  fromBase x := .ok (x - 273.15)

/-- mirrors `_fahrenheit` -/
def fahrenheit : Nonlinear where
  toBase x := .ok ((x + 459.67) * (5.0 / 9.0))
  fromBase x := .ok (x * (9.0 / 5.0) - 459.67)

/-! ## Sizes -/

def pi : Float := 3.141592653589793

def minute : Float := 60.0
def hour : Float := 3600.0
def day : Float := 86400.0
/-- A Julian year. -/
def year : Float := 365.25 * day
def century : Float := 36525.0 * day

def kilometre : Float := 1000.0
def astronomicalUnit : Float := 149597870700.0
def lightYear : Float := 9460730472580800.0
def parsec : Float := 648000.0 / pi * astronomicalUnit

def gram : Float := 0.001
def tonne : Float := 1000.0

def degree : Float := pi / 180.0

def bar : Float := 1e5
def atmosphere : Float := 101325.0
def electronvolt : Float := 1.602176634e-19
def litre : Float := 0.001

def gauss : Float := 1e-4

def standardGravity : Float := 9.80665
def speedOfLight : Float := 299792458.0
def solarMass : Float := 1.98847e30
def earthMass : Float := 5.9722e24
def jupiterMass : Float := 1.89813e27

def timeUnits : List (String × Float) :=
  [("s", 1.0), ("min", minute), ("h", hour), ("d", day), ("a", year), ("y", year), ("yr", year),
   ("Cy", century), ("ms", 1e-3), ("us", 1e-6), ("ns", 1e-9)]

def lengthUnits : List (String × Float) :=
  [("m", 1.0), ("mm", 1e-3), ("cm", 1e-2), ("um", 1e-6), ("nm", 1e-9), ("km", kilometre),
   ("au", astronomicalUnit), ("AU", astronomicalUnit), ("ly", lightYear), ("pc", parsec),
   ("kpc", 1e3 * parsec), ("Mpc", 1e6 * parsec)]

def massUnits : List (String × Float) :=
  [("g", gram), ("kg", 1.0), ("t", tonne), ("Mt", 1e6 * tonne), ("Gt", 1e9 * tonne),
   ("M_sun", solarMass), ("M_earth", earthMass), ("M_jup", jupiterMass)]

def angleUnits : List (String × Float) :=
  [("rad", 1.0), ("deg", degree), ("arcmin", degree / 60.0), ("arcsec", degree / 3600.0),
   ("sr", 1.0)]

def rateUnits : List (String × Float) :=
  [("Hz", 1.0), ("kHz", 1e3), ("MHz", 1e6), ("GHz", 1e9), ("rpm", 2.0 * pi / minute)]

def extentUnits : List (String × Float) :=
  [("ha", 1e4), ("L", litre), ("l", litre)]

def motionUnits : List (String × Float) :=
  [("km/s", kilometre), ("km/h", kilometre / hour), ("c", speedOfLight), ("_g", standardGravity)]

def energyUnits : List (String × Float) :=
  [("N", 1.0), ("kN", 1e3), ("Pa", 1.0), ("kPa", 1e3), ("MPa", 1e6), ("GPa", 1e9), ("bar", bar),
   ("atm", atmosphere), ("J", 1.0), ("kJ", 1e3), ("MJ", 1e6), ("GJ", 1e9), ("Wh", hour),
   ("kWh", 1e3 * hour), ("eV", electronvolt), ("keV", 1e3 * electronvolt),
   ("MeV", 1e6 * electronvolt), ("W", 1.0), ("kW", 1e3), ("MW", 1e6), ("GW", 1e9)]

def electricUnits : List (String × Float) :=
  [("A", 1.0), ("C", 1.0), ("V", 1.0), ("kV", 1e3), ("Ohm", 1.0), ("T", 1.0), ("G", gauss)]

def otherUnits : List (String × Float) :=
  [("K", 1.0), ("mol", 1.0), ("cd", 1.0), ("km^3/s^2", 1e9), ("m^3/s^2", 1.0)]

def builtinUnits : List (String × Float) :=
  timeUnits ++ lengthUnits ++ massUnits ++ angleUnits ++ rateUnits ++ extentUnits ++
    motionUnits ++ energyUnits ++ electricUnits ++ otherUnits

/-- The sizes of all built-in units, which are real numbers. mirrors `UNIT_MULTIPLIERS` -/
def builtinSizes : OrderedMap String Quantity :=
  .ofList <| builtinUnits.map fun p => (p.1, .real p.2)

/-- The built-in temperature scales. mirrors `UNIT_LAMBDAS` -/
def builtinNonlinear : OrderedMap String Nonlinear :=
  .ofList [("degC", celsius), ("degF", fahrenheit)]

end TypedTables.Units
