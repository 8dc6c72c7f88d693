import TypedTables.Text.Escape
/-!
# Escaped texts

A text can be written in many ways: a character with a mark of its own by that mark behind a
backslash, every character of the first plane by its code point, and every character but the
backslash as itself. A reader has to take the backslashes from left to right, each with what
belongs to it, for the second of two backslashes begins no escape, and four digits after `\u`
that are read as digits are not read again.

What follows a backslash and is neither a mark nor a code point is no escape. It stays, and reading
goes on behind it.

Results:
* `hexValue?_eq_some_iff`: the digits of either case.
* `decodeEscapes_append`: what is written is read back, whatever comes after it.
* `decodeEscapes_unknown`: what is no escape stays.
* `unescaped_written`: both for whole texts.
-/
namespace TypedTables.Text

/-! ## Ways of writing -/

/-- The letter or mark that stands for a character behind a backslash. -/
inductive EscapeMark : Char → Char → Prop
  | newline : EscapeMark '\n' 'n'
  | tab : EscapeMark '\t' 't'
  | carriageReturn : EscapeMark '\r' 'r'
  | bell : EscapeMark '\x07' 'a'
  | backspace : EscapeMark '\x08' 'b'
  | formFeed : EscapeMark '\x0c' 'f'
  | verticalTab : EscapeMark '\x0b' 'v'
  | backslash : EscapeMark '\\' '\\'
  | doubleQuote : EscapeMark '"' '"'
  | singleQuote : EscapeMark '\'' '\''

/-- A hexadecimal digit, of either case. -/
def HexDigit (n : Nat) (x : Char) : Prop := n < 16 ∧ (x = n.digitChar ∨ x = n.digitChar.toUpper)

/-- A number as four hexadecimal digits. -/
inductive CodeText : Nat → List Char → Prop
  | digits {i j k l : Nat} {a b c d : Char} : HexDigit i a → HexDigit j b → HexDigit k c →
    HexDigit l d → CodeText (((i * 16 + j) * 16 + k) * 16 + l) [a, b, c, d]

/-- The ways of writing one character. -/
inductive Written : Char → List Char → Prop
  | self {c : Char} : c ≠ '\\' → Written c [c]
  | mark {c x : Char} : EscapeMark c x → Written c ['\\', x]
  | code {c : Char} {digits : List Char} : CodeText c.toNat digits →
    Written c ('\\' :: 'u' :: digits)

/-- The text `t` is written as `s`, one character after the other and each in any way. -/
inductive Encodes : List Char → List Char → Prop
  | nil : Encodes [] []
  | cons {c : Char} {w t s : List Char} : Written c w → Encodes t s → Encodes (c :: t) (w ++ s)

/-- A backslash before `x` and `rest` begins an escape. -/
def IsEscape (x : Char) (rest : List Char) : Prop :=
  (∃ c, EscapeMark c x) ∨ x = 'u' ∧ ∃ n digits more, CodeText n digits ∧ rest = digits ++ more

/-- The text `s` is read to its end as `t`: characters as they may be written, and between them
backslashes that begin no escape, which stay with the character after them. -/
inductive Reads : List Char → List Char → Prop
  | nil : Reads [] []
  | char {c : Char} {w s t : List Char} : Written c w → Reads s t → Reads (w ++ s) (c :: t)
  | unknown {x : Char} {s t : List Char} : ¬ IsEscape x s → Reads s t →
    Reads ('\\' :: x :: s) ('\\' :: x :: t)

/-! ## Digits -/

theorem hexValue?_digit : ∀ n < 16, hexValue? n.digitChar = some n ∧
    hexValue? n.digitChar.toUpper = some n := by
  decide

/-- The digits among the first characters, which are all that can be digits. -/
theorem hexValue?_ofNat : ∀ m < 103, ∀ n ∈ hexValue? (Char.ofNat m), n < 16 ∧
    (Char.ofNat m = n.digitChar ∨ Char.ofNat m = n.digitChar.toUpper) := by
  decide

theorem toNat_lt_of_hexValue? {x : Char} {n : Nat} (h : hexValue? x = some n) :
    x.toNat < 103 := by
  unfold hexValue? at h
  simp only [Char.le_def, UInt32.le_iff_toNat_le] at h
  have value : ∀ c : Char, c.val.toNat = c.toNat := fun _ => rfl
  simp only [value] at h
  split at h
  · next range => exact Nat.lt_of_le_of_lt range.2 (by decide)
  split at h
  · next range => exact Nat.lt_of_le_of_lt range.2 (by decide)
  split at h
  · next range => exact Nat.lt_of_le_of_lt range.2 (by decide)
  · cases h

/-- **Digits.** -/
theorem hexValue?_eq_some_iff {x : Char} {n : Nat} : hexValue? x = some n ↔ HexDigit n x := by
  constructor
  · intro h
    have digit := hexValue?_ofNat x.toNat (toNat_lt_of_hexValue? h) n
    rw [Char.ofNat_toNat] at digit
    exact digit h
  · rintro ⟨lt, rfl | rfl⟩
    · exact (hexValue?_digit n lt).1
    · exact (hexValue?_digit n lt).2

theorem CodeText.exists_digits {n : Nat} {digits : List Char} (h : CodeText n digits) :
    ∃ a b c d, digits = [a, b, c, d] := by
  cases h
  exact ⟨_, _, _, _, rfl⟩

theorem CodeText.not_mem_backslash {n : Nat} {digits : List Char} (h : CodeText n digits) :
    '\\' ∉ digits := by
  have digit : ∀ {n x}, HexDigit n x → '\\' ≠ x := by
    rintro n _ h rfl
    cases hexValue?_eq_some_iff.2 h
  obtain ⟨ha, hb, hc, hd⟩ := h
  simp [digit ha, digit hb, digit hc, digit hd]

theorem charOfHex?_code {x a b c d : Char} (h : CodeText x.toNat [a, b, c, d]) :
    charOfHex? a b c d = some x := by
  generalize hn : x.toNat = n at h
  obtain ⟨ha, hb, hc, hd⟩ := h
  rw [← hexValue?_eq_some_iff] at ha hb hc hd
  have valid : (x.toNat).isValidChar := x.valid
  simp only [charOfHex?, ha, hb, hc, hd, Option.bind_eq_bind, Option.bind_some]
  rw [← hn, if_pos valid, Char.ofNat_toNat]

/-- Only digits make a code point. -/
theorem exists_codeText {x a b c d : Char} (h : charOfHex? a b c d = some x) :
    ∃ n, CodeText n [a, b, c, d] := by
  simp only [charOfHex?, Option.bind_eq_bind, Option.bind_eq_some_iff, hexValue?_eq_some_iff] at h
  obtain ⟨_, ha, _, hb, _, hc, _, hd, -⟩ := h
  exact ⟨_, .digits ha hb hc hd⟩

/-! ## One step of the reader -/

theorem mark_of_simpleEscape? {c x : Char} (h : simpleEscape? x = some c) : EscapeMark c x := by
  obtain ⟨before, after, table, -⟩ := List.lookup_eq_some_iff.1 h
  have mem : (x, c) ∈ simpleEscapes := table ▸ List.mem_append_right before List.mem_cons_self
  simp only [simpleEscapes, List.mem_cons, List.not_mem_nil, or_false, Prod.mk.injEq] at mem
  rcases mem with ⟨rfl, rfl⟩ | ⟨rfl, rfl⟩ | ⟨rfl, rfl⟩ | ⟨rfl, rfl⟩ | ⟨rfl, rfl⟩ | ⟨rfl, rfl⟩ |
    ⟨rfl, rfl⟩ | ⟨rfl, rfl⟩ | ⟨rfl, rfl⟩ | ⟨rfl, rfl⟩ <;> constructor

theorem decodeEscapes_self {c : Char} (h : c ≠ '\\') (rest : List Char) :
    decodeEscapes (c :: rest) = c :: decodeEscapes rest := by
  rw [decodeEscapes]
  · rintro _ _ _ _ _ rfl
    exact absurd rfl h
  · rintro _ _ rfl
    exact absurd rfl h

theorem decodeEscapes_mark {c x : Char} (h : EscapeMark c x) (rest : List Char) :
    decodeEscapes ('\\' :: x :: rest) = c :: decodeEscapes rest := by
  cases h <;> rfl

theorem decodeEscapes_code {c : Char} {digits : List Char} (h : CodeText c.toNat digits)
    (rest : List Char) :
    decodeEscapes ('\\' :: 'u' :: (digits ++ rest)) = c :: decodeEscapes rest := by
  obtain ⟨a, b, c', d, rfl⟩ := h.exists_digits
  simp only [List.cons_append, List.nil_append, decodeEscapes, charOfHex?_code h]

/-- What begins no escape stays. -/
theorem decodeEscapes_unknown {x : Char} {rest : List Char} (h : ¬ IsEscape x rest) :
    decodeEscapes ('\\' :: x :: rest) = '\\' :: x :: decodeEscapes rest := by
  rw [IsEscape, not_or, not_exists] at h
  obtain ⟨noMark, noCode⟩ := h
  rw [decodeEscapes.eq_def ('\\' :: x :: rest)]
  split
  · next a b c d more same =>
    cases same
    cases found : charOfHex? a b c d with
    | none => rfl
    | some y =>
      obtain ⟨n, code⟩ := exists_codeText found
      exact absurd ⟨rfl, n, _, more, code, rfl⟩ noCode
  · next y more _ same =>
    cases same
    cases found : simpleEscape? x with
    | none => rfl
    | some c => exact absurd (mark_of_simpleEscape? found) (noMark c)
  · next c more _ other same =>
    cases same
    exact absurd rfl (other x rest rfl)
  · next same => cases same

/-! ## Texts -/

theorem decodeEscapes_written {c : Char} {w : List Char} (h : Written c w) (rest : List Char) :
    decodeEscapes (w ++ rest) = c :: decodeEscapes rest := by
  cases h with
  | self ne => exact decodeEscapes_self ne rest
  | mark mark => exact decodeEscapes_mark mark rest
  | code code => exact decodeEscapes_code code rest

theorem Encodes.reads {t s : List Char} (h : Encodes t s) : Reads s t := by
  induction h with
  | nil => exact .nil
  | cons written _ ih => exact .char written ih

/-- A backslash is no digit, so what begins no escape at the end of a text begins none when a
backslash follows. -/
theorem not_isEscape_append {x : Char} {s rest : List Char} (h : ¬ IsEscape x s)
    (stop : ∀ c ∈ rest.head?, c = '\\') : ¬ IsEscape x (s ++ rest) := by
  rintro (mark | ⟨rfl, n, digits, more, code, same⟩)
  · exact h (.inl mark)
  have found : ∀ after, s ≠ digits ++ after := fun after same =>
    h (.inr ⟨rfl, n, digits, after, code, same⟩)
  rcases List.append_eq_append_iff.1 same with ⟨extra, hdigits, hrest⟩ | ⟨after, hs, -⟩
  · cases extra with
    | nil => exact found [] (by rw [hdigits, List.append_nil, List.append_nil])
    | cons c extra =>
      have backslash : c = '\\' := stop c (by rw [hrest]; rfl)
      refine code.not_mem_backslash ?_
      rw [hdigits, backslash]
      exact List.mem_append_right s List.mem_cons_self
  · exact found after hs

/-- **Reading.** What has been read stays so when nothing or a backslash follows. -/
theorem decodeEscapes_append {s t : List Char} (h : Reads s t) {rest : List Char}
    (stop : ∀ c ∈ rest.head?, c = '\\') : decodeEscapes (s ++ rest) = t ++ decodeEscapes rest := by
  induction h with
  | nil => rfl
  | char written _ ih =>
    rw [List.append_assoc, decodeEscapes_written written, ih, List.cons_append]
  | unknown no _ ih =>
    rw [List.cons_append, List.cons_append, decodeEscapes_unknown (not_isEscape_append no stop), ih]
    rfl

theorem decodeEscapes_reads {s t : List Char} (h : Reads s t) : decodeEscapes s = t := by
  have all : decodeEscapes (s ++ []) = t ++ decodeEscapes [] := decodeEscapes_append h nofun
  rwa [List.append_nil, show decodeEscapes [] = [] from rfl, List.append_nil] at all

theorem toList_unescaped (s : String) : (unescaped s).toList = decodeEscapes s.toList :=
  String.toList_ofList

/-- **Escapes.** However a text is written, it is read back. Behind whatever has been read, a
backslash that begins no escape stays with the character after it, and reading goes on behind that;
a backslash at the end stays as well. -/
theorem unescaped_written :
    (∀ t s : String, Encodes t.toList s.toList → unescaped s = t) ∧
    ∀ t s : String, Reads s.toList t.toList →
      (∀ (x : Char) (rest : String), ¬ IsEscape x rest.toList →
        unescaped (s ++ "\\" ++ String.singleton x ++ rest) =
          t ++ "\\" ++ String.singleton x ++ unescaped rest) ∧
      unescaped (s ++ "\\") = t ++ "\\" := by
  refine ⟨fun t s encodes => ?_, fun t s reads => ⟨fun x rest unknown => ?_, ?_⟩⟩
  · rw [← String.toList_inj, toList_unescaped, decodeEscapes_reads encodes.reads]
  · have escape : decodeEscapes ('\\' :: x :: rest.toList) =
        '\\' :: x :: (unescaped rest).toList := by
      rw [decodeEscapes_unknown unknown, toList_unescaped]
    rw [← String.toList_inj, toList_unescaped]
    simp only [String.toList_append, String.toList_singleton, List.append_assoc]
    exact (decodeEscapes_append reads (by simp)).trans (congrArg _ escape)
  · rw [← String.toList_inj, toList_unescaped, String.toList_append, String.toList_append]
    exact decodeEscapes_append reads (by simp)

/-- A backslash before a letter, and a tab by its code point; then three digits only after the
letter for code points, and a mark behind them. -/
theorem tabbed_written :
    Encodes "\\n\t!".toList "\\\\n\\u0009!".toList ∧ ¬ IsEscape 'u' "00e\\t".toList ∧
    unescaped "\\\\n\\u0009!" = "\\n\t!" ∧
    unescaped "\\\\n\\u0009!\\u00e\\t" = "\\n\t!\\u00e\t" ∧
    unescaped "\\\\n\\u0009!\\" = "\\n\t!\\" := by
  have encodes : Encodes "\\n\t!".toList "\\\\n\\u0009!".toList := by
    have zero : HexDigit 0 '0' := ⟨by decide, .inl rfl⟩
    have nine : HexDigit 9 '9' := ⟨by decide, .inl rfl⟩
    have tab : Written '\t' ['\\', 'u', '0', '0', '0', '9'] := .code (.digits zero zero zero nine)
    have letter : Written 'n' ['n'] := .self (by decide)
    have mark : Written '!' ['!'] := .self (by decide)
    exact .cons (.mark .backslash) (.cons letter (.cons tab (.cons mark .nil)))
  have unknown : ¬ IsEscape 'u' "00e\\t".toList := by
    rintro (⟨_, mark⟩ | ⟨-, n, digits, more, code, same⟩)
    · cases mark
    · obtain ⟨a, b, c, d, rfl⟩ := code.exists_digits
      cases same
      exact code.not_mem_backslash (by decide)
  obtain ⟨written, stays⟩ := unescaped_written
  obtain ⟨inside, atEnd⟩ := stays _ _ encodes.reads
  refine ⟨encodes, unknown, written _ _ encodes, ?_, atEnd⟩
  exact (inside 'u' "00e\\t" unknown).trans (by decide +kernel)

end TypedTables.Text
