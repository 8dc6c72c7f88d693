import TypedTables.Proofs.EnclosedOperands
/-!
# Compound units

Four built-in names are expressions over others: `km/s`, `km/h`, `km^3/s^2` and `m^3/s^2`. A
converter whose sizes are replaced keeps the built-in sizes of these, so a speed in `km/s` and one
in `(km)/s` are converted alike only if the size of `km` leaves them equal.

Results:
* `eq_of_part`: no compound unit is an operand of another.
* `openNames_withUnits`: the names of a converter with replaced sizes.
* `multiplier_enclose`: for such a converter, when parentheses make no difference.
-/
namespace TypedTables.Units

open TypedTables.Decimal

/-- The built-in names that are expressions themselves. -/
def compoundUnits : List String := builtinSizes.keys.filter fun k => ¬ PlainText k.toList

theorem compoundUnits_eq : compoundUnits = ["km/s", "km/h", "km^3/s^2", "m^3/s^2"] := by
  decide +kernel

theorem exists_not_isPlain {k : String} (hk : k ∈ compoundUnits) : ∃ x ∈ k.toList, ¬ isPlain x := by
  have all : ∀ k ∈ compoundUnits, k.toList.any fun x => !isPlain x := by
    rw [compoundUnits_eq]
    decide
  simpa using all k hk

/-- No compound unit is an operand of another: in `km^3/s^2` the text `m^3/s^2` begins inside a
name. -/
theorem eq_of_part {n : Symbols} {rule : Rule} {k k' : String} {pre post : List Char}
    (hk' : k' ∈ compoundUnits) (hk : k ∈ compoundUnits) (part : Part n rule pre k'.toList post)
    (whole : pre ++ k'.toList ++ post = k.toList) : k' = k := by
  have inside : ∀ k ∈ compoundUnits, ∀ k' ∈ compoundUnits, ∀ i ≤ k.toList.length,
      k'.toList <+: k.toList.drop i → k' = k ∨ (k.toList.take i).getLast?.any isPlain := by
    rw [compoundUnits_eq]
    decide +kernel
  have cut : k.toList.take pre.length = pre ∧ k'.toList <+: k.toList.drop pre.length := by
    rw [← whole, List.append_assoc]
    simp
  have short : pre.length ≤ k.toList.length := by
    rw [← whole, List.append_assoc, List.length_append]
    omega
  rcases inside k hk k' hk' pre.length short cut.2 with same | name
  · exact same
  · rw [cut.1, Option.any_eq_true] at name
    obtain ⟨x, hx, text⟩ := name
    exact absurd text (part.not_isPlain_before x hx)

namespace Converter

/-- Two texts whose trees have the same value, and no fault. -/
theorem evaluate_congr {c : Converter} {u v : String}
    (clean : (UnitExpr.parse c.symbols (normalize u.toList)).Clean)
    (same : (UnitExpr.parse c.symbols (normalize v.toList)).eval =
      (UnitExpr.parse c.symbols (normalize u.toList)).eval) : c.evaluate v = c.evaluate u := by
  unfold evaluate
  rw [same]
  split
  · rfl
  · next f hf => exact absurd hf (clean.eval_ne f)
  · rfl

section Overrides

variable {overrides : List (String × Quantity)}
  (plain : ∀ p ∈ overrides, ∀ x ∈ p.1.toList, isPlain x)
include plain

/-- A compound unit keeps its size, since the replaced sizes are those of plain names. -/
theorem get?_withUnits {k : String} {q : Quantity}
    (h : (withUnits overrides []).sizes.get? k = some q) :
    (∀ x ∈ k.toList, isPlain x) ∨ k ∈ compoundUnits := by
  by_cases hk : k ∈ overrides.map Prod.fst
  · obtain ⟨p, hp, rfl⟩ := List.mem_map.1 hk
    exact .inl (plain p hp)
  · have builtin : builtinSizes.get? k = some q := by
      rw [← OrderedMap.get?_insertAll_of_not_mem builtinSizes hk]
      exact h
    have mem : k ∈ builtinSizes.keys := (builtinSizes.mem_keys_iff k).2 ⟨q, builtin⟩
    by_cases text : PlainText k.toList
    · exact .inl text.plain
    · exact .inr (List.mem_filter.2 ⟨mem, by simpa using text⟩)

theorem openNames_withUnits : OpenNames (withUnits overrides []).symbols where
  size s q h hs := by
    rcases get?_withUnits plain h with hk | hk
    · rw [String.toList_ofList] at hk
      exact absurd (hk '(' hs) (by decide)
    · have none : ∀ k ∈ compoundUnits, '(' ∉ k.toList := by
        rw [compoundUnits_eq]
        decide
      refine none _ hk ?_
      rwa [String.toList_ofList]
  nonlinear s h := by
    have mem : String.ofList s ∈ builtinNonlinear.keys := (builtinNonlinear.contains_iff _).1 h
    have names : ∀ k ∈ builtinNonlinear.keys,
        PlainText k.toList ∧ Numeral.parse? k.toList = none := by decide +kernel
    obtain ⟨text, number⟩ := names _ mem
    rw [String.toList_ofList] at text number
    refine ⟨text, fun x hx => ?_⟩
    rw [Numeral.parse?_eq_some_iff.2 hx] at number
    cases number

theorem normalize_of_mem_keys {unit : String} (h : unit ∈ (withUnits overrides []).sizes.keys)
    (ne : normalize unit.toList ≠ []) :
    unit.toList ≠ [] ∧ normalize unit.toList = unit.toList := by
  have ne' : unit.toList ≠ [] := fun none => ne (by rw [none]; rfl)
  refine ⟨ne', ?_⟩
  obtain ⟨q, hq⟩ := (OrderedMap.mem_keys_iff _ _).1 h
  rcases get?_withUnits plain hq with text | compound
  · exact PlainText.normalize_eq ⟨ne', text⟩
  · have normal : ∀ k ∈ compoundUnits, normalize k.toList = k.toList := by
      rw [compoundUnits_eq]
      decide
    exact normal unit compound

/-- A symbol has the value that it has as an expression. -/
theorem multiplier_withUnits {unit : String} {s : List Char} (hu : normalize unit.toList = s)
    (hs : s ≠ []) :
    (withUnits overrides []).multiplier unit = (withUnits overrides []).evaluate unit :=
  multiplier_eq_evaluate rfl fun h => normalize_of_mem_keys plain h (hu.trans_ne hs)

/-- Of the registered texts only the compound units may differ from their parts. -/
theorem allSumUp_withUnits {rule : Rule} {s : List Char}
    (sums : ∀ k ∈ compoundUnits, ∀ pre post,
      Part (withUnits overrides []).symbols.plain rule pre k.toList post →
      pre ++ k.toList ++ post = s → (withUnits overrides []).symbols.SumsUp k.toList) :
    (withUnits overrides []).symbols.AllSumUp rule s := by
  intro pre k post part whole q t hq ht
  have names := openNames_withUnits plain
  rcases get?_withUnits plain hq with text | compound
  · rw [String.toList_ofList] at text
    exact names.sumsUp_of_plainText ⟨(ht.reads names.plain).1.ne_nil, text⟩ q t hq ht
  · have sum := sums _ compound pre post
    rw [String.toList_ofList] at sum
    exact sum part whole q t hq ht

omit plain in
/-- A replaced size leaves every name known. -/
theorem exists_size?_plain {k : String} (hk : k ∈ builtinSizes.keys) (text : PlainText k.toList) :
    ∃ q, (withUnits overrides []).symbols.plain.size? k.toList = some q := by
  have known : ∃ q, (withUnits overrides []).sizes.get? k = some q := by
    rw [← OrderedMap.mem_keys_iff]
    exact OrderedMap.mem_keys_insertAll builtinSizes overrides hk
  obtain ⟨q, hq⟩ := known
  refine ⟨q, (if_pos text).trans ?_⟩
  show (withUnits overrides []).sizes.get? (String.ofList k.toList) = some q
  rwa [String.ofList_toList]

omit plain in
/-- The compound units are expressions over the plain names. -/
theorem derives_compound {k : String} (hk : k ∈ compoundUnits) :
    ∃ t, Derives (withUnits overrides []).symbols.plain .expr k.toList t := by
  have named : ∀ u ∈ ["km", "m", "s", "h"],
      ∃ q, (withUnits overrides []).symbols.plain.size? u.toList = some q := by
    have builtin : ∀ u ∈ ["km", "m", "s", "h"], u ∈ builtinSizes.keys ∧ PlainText u.toList := by
      decide +kernel
    exact fun u hu => exists_size?_plain (builtin u hu).1 (builtin u hu).2
  obtain ⟨_, km⟩ := named "km" (by simp)
  obtain ⟨_, m⟩ := named "m" (by simp)
  obtain ⟨_, s⟩ := named "s" (by simp)
  obtain ⟨_, h⟩ := named "h" (by simp)
  have number : ∀ d ∈ ["2", "3"], ∃ x, NumberText d.toList x := by
    have read : ∀ d ∈ ["2", "3"], (Numeral.parse? d.toList).isSome := by decide +kernel
    intro d hd
    obtain ⟨x, hx⟩ := Option.isSome_iff_exists.1 (read d hd)
    exact ⟨x, Numeral.parse?_eq_some_iff.1 hx⟩
  obtain ⟨_, two⟩ := number "2" (by simp)
  obtain ⟨_, three⟩ := number "3" (by simp)
  rw [compoundUnits_eq] at hk
  simp only [List.mem_cons, List.not_mem_nil, or_false] at hk
  rcases hk with rfl | rfl | rfl | rfl
  · exact ⟨_, .quotient (.ofTerm (.ofFactor (.symbol km))) (.ofFactor (.symbol s))⟩
  · exact ⟨_, .quotient (.ofTerm (.ofFactor (.symbol km))) (.ofFactor (.symbol h))⟩
  · exact ⟨_, .quotient (.ofTerm (.power (.symbol km) (.exponentNumber three)))
      (.power (.symbol s) (.exponentNumber two))⟩
  · exact ⟨_, .quotient (.ofTerm (.power (.symbol m) (.exponentNumber three)))
      (.power (.symbol s) (.exponentNumber two))⟩

theorem multiplier_compound {k : String} (hk : k ∈ compoundUnits) :
    ∃ q, builtinSizes.get? k = some q ∧ (withUnits overrides []).multiplier k = .ok q := by
  obtain ⟨mem, text⟩ := List.mem_filter.1 hk
  obtain ⟨q, hq⟩ := (builtinSizes.mem_keys_iff k).1 mem
  have ne : ∀ k ∈ compoundUnits, k.toList ≠ [] := by
    rw [compoundUnits_eq]
    decide
  have kept : k ∉ overrides.map Prod.fst := by
    intro hk'
    obtain ⟨p, hp, rfl⟩ := List.mem_map.1 hk'
    have other : ¬ PlainText p.1.toList := by simpa using text
    exact other ⟨ne _ hk, plain p hp⟩
  refine ⟨q, hq, ?_⟩
  have size : (withUnits overrides []).sizes.get? k = some q := by
    rw [← hq]
    exact OrderedMap.get?_insertAll_of_not_mem builtinSizes kept
  unfold multiplier
  rw [size]

/-- Of the texts around an operand only the compound units may differ from their parts. -/
theorem sumUpAround_withUnits {pre mid post : List Char}
    (sums : ∀ k ∈ compoundUnits,
      StandsAround (withUnits overrides []).symbols.plain .expr pre mid post k.toList →
      (withUnits overrides []).symbols.SumsUp k.toList) :
    (withUnits overrides []).symbols.SumUpAround .expr pre mid post := by
  intro k around registered
  obtain ⟨q, hq⟩ := Option.ne_none_iff_exists'.1 registered
  refine allSumUp_withUnits plain fun k' hk' pre' post' part whole => ?_
  rcases get?_withUnits plain hq with text | compound
  · obtain ⟨x, hx, notPlain⟩ := exists_not_isPlain hk'
    rw [String.toList_ofList, ← whole] at text
    exact absurd (text x (by simp [hx])) notPlain
  · have same : k' = String.ofList k := eq_of_part hk' compound part (by rw [whole]; simp)
    refine sums k' hk' ?_
    rwa [same, String.toList_ofList]

/-- A text has the same multiplier with an operand in parentheses if the compound units around the
operand sum up. -/
theorem multiplier_enclose_of_around {unit enclosed : String} {pre mid post : List Char}
    (part : Part (withUnits overrides []).symbols.plain .expr pre mid post)
    (hu : normalize unit.toList = pre ++ mid ++ post)
    (he : normalize enclosed.toList = enclose pre mid post)
    (sums : ∀ k ∈ compoundUnits,
      StandsAround (withUnits overrides []).symbols.plain .expr pre mid post k.toList →
      (withUnits overrides []).symbols.SumsUp k.toList) :
    (withUnits overrides []).multiplier enclosed = (withUnits overrides []).multiplier unit := by
  have names := openNames_withUnits plain
  obtain ⟨t, ht, ht'⟩ := part.derives_enclose
  have same := part.eval_enclose names (sumUpAround_withUnits plain sums) (by simp)
  have clean := names.clean ht (by simp)
  rw [← hu] at same clean
  rw [← he] at same
  rw [multiplier_withUnits plain hu (ht.operand names.plain).ne_nil,
    multiplier_withUnits plain he (ht'.operand names.plain).ne_nil]
  exact evaluate_congr clean same

/-- If parentheses make no difference to any multiplier, all registered texts sum up. -/
theorem sumsUp_of_multiplier_enclose
    (same : ∀ (unit enclosed : String) (pre mid post : List Char),
      Part (withUnits overrides []).symbols.plain .expr pre mid post →
      normalize unit.toList = pre ++ mid ++ post →
      normalize enclosed.toList = enclose pre mid post →
      (withUnits overrides []).multiplier enclosed = (withUnits overrides []).multiplier unit)
    (s : List Char) : (withUnits overrides []).symbols.SumsUp s := by
  have names := openNames_withUnits plain
  refine names.sumsUp (fun pre mid post q part value => ?_) s
  obtain ⟨t, ht, ht'⟩ := part.derives_enclose
  have normal : ∀ {s : List Char}, Operand s → normalize (String.ofList s).toList = s := by
    intro s hs
    rw [String.toList_ofList, normalize_eq_self hs.tidy hs.trimmed]
  have unit := normal (ht.reads names.plain).1
  have unit' := normal (ht'.reads names.plain).1
  have answers := same _ _ pre mid post part unit unit'
  rw [multiplier_withUnits plain unit' (ht'.reads names.plain).1.ne_nil,
    multiplier_withUnits plain unit (ht.reads names.plain).1.ne_nil] at answers
  rw [← unit', ← evaluate_eq_ok_iff, answers, evaluate_eq_ok_iff, unit]
  exact value

end Overrides

/-- **Parentheses and registered compounds.** With replaced or added sizes of plain names, an
operand in parentheses makes no difference to a text as long as every compound unit that stands
around the operand has, in the registry, the size that its parts give. A compound unit is an
expression over the plain names, but has its built-in size whatever the sizes of its parts; so
parentheses make no difference to any text just if all compound units have the size that their
parts give. -/
theorem multiplier_enclose {overrides : List (String × Quantity)}
    (plain : ∀ p ∈ overrides, ∀ x ∈ p.1.toList, isPlain x) (asked : List String) :
    let c := asked.foldl learn (withUnits overrides [])
    (∀ (unit enclosed : String) (pre mid post : List Char),
      Part c.symbols.plain .expr pre mid post → normalize unit.toList = pre ++ mid ++ post →
      normalize enclosed.toList = enclose pre mid post →
      (∀ k ∈ compoundUnits, StandsAround c.symbols.plain .expr pre mid post k.toList →
        c.symbols.SumsUp k.toList) →
      c.multiplier enclosed = c.multiplier unit) ∧
    (∀ k ∈ compoundUnits, (∃ t, Derives c.symbols.plain .expr k.toList t) ∧
      ∃ q, builtinSizes.get? k = some q ∧ c.multiplier k = .ok q) ∧
    ((∀ (unit enclosed : String) (pre mid post : List Char),
      Part c.symbols.plain .expr pre mid post → normalize unit.toList = pre ++ mid ++ post →
      normalize enclosed.toList = enclose pre mid post →
      c.multiplier enclosed = c.multiplier unit) ↔
      ∀ k ∈ compoundUnits, c.symbols.SumsUp k.toList) := by
  intro c
  obtain ⟨hs, hm⟩ := foldl_learn (withUnits overrides []) asked
  rw [show c.symbols = _ from hs, show c.multiplier = _ from hm]
  refine ⟨fun unit enclosed pre mid post part hu he sums => ?_,
    fun k hk => ⟨derives_compound hk, multiplier_compound plain hk⟩, fun same k _ => ?_,
    fun sums unit enclosed pre mid post part hu he => ?_⟩
  · exact multiplier_enclose_of_around plain part hu he sums
  · exact sumsUp_of_multiplier_enclose plain same k.toList
  · exact multiplier_enclose_of_around plain part hu he fun k hk _ => sums k hk

/-- A kilometre of two metres. -/
def twoMetres : List (String × Quantity) := [("km", .real 2)]

theorem twoMetres_plain : ∀ p ∈ twoMetres, ∀ x ∈ p.1.toList, isPlain x := by
  intro p hp
  obtain rfl := List.mem_singleton.1 hp
  exact List.all_eq_true.1 (by decide)

/-- With its size replaced, a kilometre in parentheses makes a difference to the speed. -/
theorem speed_parted :
    let c := withUnits twoMetres []
    (∀ p ∈ twoMetres, ∀ x ∈ p.1.toList, isPlain x) ∧
    Part c.symbols.plain .expr [] ['k', 'm'] ['/', 's'] ∧
    normalize "km/s".toList = [] ++ ['k', 'm'] ++ ['/', 's'] ∧
    normalize "(km)/s".toList = enclose [] ['k', 'm'] ['/', 's'] ∧
    c.multiplier "km/s" = .ok (.real 1000) ∧ c.multiplier "(km)/s" = .ok (.real 2) ∧
    c.multiplier "(km)/s" ≠ c.multiplier "km/s" := by
  intro c
  have sizes : c.symbols.plain.size? ['k', 'm'] = some (.real 2) ∧
      c.symbols.plain.size? ['s'] = some (.real 1) := by decide +kernel
  have values : c.multiplier "km/s" = .ok (.real 1000) ∧ c.multiplier "(km)/s" = .ok (.real 2) := by
    decide +kernel
  have part := Part.left (.inl rfl) (.whole (.ofTerm (.ofFactor (.symbol sizes.1))))
    (.ofFactor (.symbol sizes.2))
  refine ⟨twoMetres_plain, part, by decide +kernel, by decide +kernel, values.1, values.2, ?_⟩
  rw [values.1, values.2]
  decide +kernel

/-- A metre in parentheses makes none, also next to the speed: no compound unit stands around it. -/
theorem speed_metre :
    (∀ p ∈ twoMetres, ∀ x ∈ p.1.toList, isPlain x) ∧
    let c := ["km/s"].foldl learn (withUnits twoMetres [])
    c.multiplier " km / s  m" = .ok (.real 1000) ∧
    c.multiplier "km/s (m)" = c.multiplier " km / s  m" := by
  refine ⟨twoMetres_plain, ?_⟩
  intro c
  obtain ⟨enclosed, -, -⟩ := multiplier_enclose twoMetres_plain ["km/s"]
  have sizes : c.symbols.plain.size? ['k', 'm'] = some (.real 2) ∧
      c.symbols.plain.size? ['m'] = some (.real 1) ∧
      c.symbols.plain.size? ['s'] = some (.real 1) := by decide +kernel
  have part := Part.right (.inr rfl)
    (.quotient (.ofTerm (.ofFactor (.symbol sizes.1))) (.ofFactor (.symbol sizes.2.2)))
    (.whole (.ofFactor (.symbol sizes.2.1)))
  refine ⟨by decide +kernel,
    enclosed " km / s  m" "km/s (m)" _ _ _ part (by decide +kernel) (by decide +kernel) ?_⟩
  have noMetre : ∀ k ∈ compoundUnits, k.toList.getLast? ≠ some 'm' := by
    rw [compoundUnits_eq]
    decide +kernel
  rintro k hk ⟨a, l, r, b, -, hr, whole, -, -⟩
  obtain ⟨rfl, rfl⟩ := List.append_eq_nil_iff.1 hr.symm
  exact absurd (by rw [whole]; simp) (noMetre k hk)

end Converter

end TypedTables.Units
