/-!
# Decimal digits

The characters that stand for a digit from 0 to 9 in some script. Each script's ten
digits follow its zero without a gap, so the zeros alone give the whole class.
-/
namespace TypedTables.Text

/-- The code points of the zeros. -/
def digitZeros : List Nat :=
  [0x0030, 0x0660, 0x06F0, 0x07C0, 0x0966, 0x09E6, 0x0A66, 0x0AE6, 0x0B66, 0x0BE6, 0x0C66, 0x0CE6,
   0x0D66, 0x0DE6, 0x0E50, 0x0ED0, 0x0F20, 0x1040, 0x1090, 0x17E0, 0x1810, 0x1946, 0x19D0, 0x1A80,
   0x1A90, 0x1B50, 0x1BB0, 0x1C40, 0x1C50, 0xA620, 0xA8D0, 0xA900, 0xA9D0, 0xA9F0, 0xAA50, 0xABF0,
   0xFF10, 0x104A0, 0x10D30, 0x11066, 0x110F0, 0x11136, 0x111D0, 0x112F0, 0x11450, 0x114D0, 0x11650,
   0x116C0, 0x11730, 0x118E0, 0x11950, 0x11C50, 0x11D50, 0x11DA0, 0x16A60, 0x16AC0, 0x16B50,
   0x1D7CE, 0x1D7D8, 0x1D7E2, 0x1D7EC, 0x1D7F6, 0x1E140, 0x1E2F0, 0x1E950, 0x1FBF0]

/-- The digit that a character stands for. -/
def digitValue? (c : Char) : Option Nat :=
  (digitZeros.find? fun z => z ≤ c.toNat && c.toNat ≤ z + 9).map (c.toNat - ·)

def isDigit (c : Char) : Bool := (digitValue? c).isSome

/-- The number that digits write, the most significant first. -/
def ofDigits (ds : List Nat) : Nat := ds.foldl (fun n d => 10 * n + d) 0

/-- The values of the digits at the front of a text, and the rest of it. -/
def takeDigits : List Char → List Nat × List Char
  | [] => ([], [])
  | c :: cs =>
    match digitValue? c with
    | none => ([], c :: cs)
    | some d => (d :: (takeDigits cs).1, (takeDigits cs).2)

/-- The number that a text of at least one digit writes. -/
def readDigits? (s : List Char) : Option Nat :=
  match takeDigits s with
  | ([], _) => none
  | (ds, []) => some (ofDigits ds)
  | (_, _ :: _) => none

/-- The integer that a text of an optional sign and at least one digit writes. -/
def readInteger? (s : List Char) : Option Int :=
  match s with
  | '-' :: r => (readDigits? r).map fun n : Nat => -(n : Int)
  | '+' :: r => (readDigits? r).map fun n : Nat => (n : Int)
  | r => (readDigits? r).map fun n : Nat => (n : Int)

/-- Core's digits are digits here too. -/
theorem isDigit_of_isDigit {c : Char} (h : c.isDigit = true) : isDigit c = true := by
  simp only [Char.isDigit, Bool.and_eq_true, decide_eq_true_eq] at h
  have h₁ : 48 ≤ c.toNat := h.1
  have h₂ : c.toNat ≤ 57 := h.2
  simp [isDigit, digitValue?, digitZeros, h₁, h₂]

theorem length_takeDigits_le (s : List Char) : (takeDigits s).2.length ≤ s.length := by
  induction s with
  | nil => simp [takeDigits]
  | cons c cs ih =>
    unfold takeDigits
    split
    · simp
    · simp only [List.length_cons]; omega

end TypedTables.Text
