import Mathlib.Data.Rat.Defs
import Mathlib.Tactic.Linarith
import SensorNode.DecimalText

/-!
JSON documents as byte texts: an executable parser for the JSON grammar, with
string escapes decoded to UTF-8 and numbers to exact rationals, and the UTF-8
condition every document must meet. The fuel of `parseValue` bounds nesting and
list length together; each level and each element uses at most two units and at
least one byte, so `parse` never runs out.
-/

namespace SensorNode.JsonText

open LineStream DecimalText

inductive Json where
  | null
  | bool (value : Bool)
  | number (value : ℚ)
  | string (bytes : Bytes)
  | array (items : List Json)
  | object (members : List (Bytes × Json))

abbrev quote : UInt8 := 34
abbrev backslash : UInt8 := 92
abbrev comma : UInt8 := 44
abbrev colon : UInt8 := 58
abbrev openBrace : UInt8 := 123
abbrev closeBrace : UInt8 := 125
abbrev openBracket : UInt8 := 91
abbrev closeBracket : UInt8 := 93

def isSpace (byte : UInt8) : Bool := byte == 32 || byte == 9 || byte == 10 || byte == 13

def skipSpace (text : Bytes) : Bytes := text.dropWhile isSpace

/-! ## Strings -/

/-- One element of a string literal: a byte, or a `\u` UTF-16 code unit. -/
inductive Piece where
  | byte (value : UInt8)
  | unit (value : Nat)
  deriving DecidableEq

def simpleEscape (byte : UInt8) : Option UInt8 :=
  if byte = quote then some quote
  else if byte = backslash then some backslash
  else if byte = 47 then some 47
  else if byte = 98 then some 8
  else if byte = 102 then some 12
  else if byte = 110 then some 10
  else if byte = 114 then some 13
  else if byte = 116 then some 9
  else none

def codeUnit (first second third fourth : UInt8) : Option Nat := do
  let a ← hexValue first
  let b ← hexValue second
  let c ← hexValue third
  let d ← hexValue fourth
  some (4096 * a + 256 * b + 16 * c + d)

/-- The body of a string literal, from after its opening quote. -/
def stringPieces : Bytes → Option (List Piece × Bytes)
  | [] => none
  | byte :: rest =>
      if byte = quote then some ([], rest)
      else if byte < 32 then none
      else if byte = backslash then
        match rest with
        | 117 :: first :: second :: third :: fourth :: tail =>
            match codeUnit first second third fourth with
            | none => none
            | some unit =>
                (stringPieces tail).map fun read => (.unit unit :: read.1, read.2)
        | escape :: tail =>
            match simpleEscape escape with
            | none => none
            | some value =>
                (stringPieces tail).map fun read => (.byte value :: read.1, read.2)
        | [] => none
      else (stringPieces rest).map fun read => (.byte byte :: read.1, read.2)

def utf8 (code : Nat) : Bytes := String.utf8EncodeChar (Char.ofNat code)

/-- Surrogate pairs combine; a lone surrogate decodes to U+FFFD. -/
def assemble : List Piece → Bytes
  | [] => []
  | .byte value :: rest => value :: assemble rest
  | .unit high :: .unit low :: rest =>
      if 0xD800 ≤ high ∧ high < 0xDC00 ∧ 0xDC00 ≤ low ∧ low < 0xE000 then
        utf8 (0x10000 + 1024 * (high - 0xD800) + (low - 0xDC00)) ++ assemble rest
      else (if 0xD800 ≤ high ∧ high < 0xE000 then utf8 0xFFFD else utf8 high) ++
        assemble (.unit low :: rest)
  | .unit code :: rest =>
      (if 0xD800 ≤ code ∧ code < 0xE000 then utf8 0xFFFD else utf8 code) ++ assemble rest

def parseString (body : Bytes) : Option (Bytes × Bytes) :=
  (stringPieces body).map fun read => (assemble read.1, read.2)

/-! ## Numbers -/

def parseFraction : Bytes → Option (Bytes × Bytes)
  | 46 :: tail =>
      if (spanDigits tail).1 = [] then none else some (spanDigits tail)
  | text => some ([], text)

def parseExponent : Bytes → Option (Int × Bytes)
  | byte :: tail =>
      if byte = 101 ∨ byte = 69 then
        match tail with
        | 45 :: digits =>
            if (spanDigits digits).1 = [] then none
            else some (-(digitsValue (spanDigits digits).1 : Int), (spanDigits digits).2)
        | 43 :: digits =>
            if (spanDigits digits).1 = [] then none
            else some ((digitsValue (spanDigits digits).1 : Int), (spanDigits digits).2)
        | digits =>
            if (spanDigits digits).1 = [] then none
            else some ((digitsValue (spanDigits digits).1 : Int), (spanDigits digits).2)
      else some (0, byte :: tail)
  | [] => some (0, [])

def parseMagnitude (text : Bytes) : Option (ℚ × Bytes) :=
  let whole := (spanDigits text).1
  if whole = [] ∨ (1 < whole.length ∧ whole.head? = some (digitByte 0)) then none
  else do
    let (fraction, tail) ← parseFraction (spanDigits text).2
    let (exponent, rest) ← parseExponent tail
    some ((digitsValue (whole ++ fraction) : ℚ) / 10 ^ fraction.length * (10 : ℚ) ^ exponent, rest)

def parseNumber : Bytes → Option (ℚ × Bytes)
  | 45 :: rest => (parseMagnitude rest).map fun read => (-read.1, read.2)
  | text => parseMagnitude text

/-! ## Values -/

def literal (word : Bytes) (value : Json) (text : Bytes) : Option (Json × Bytes) :=
  if text.take word.length = word then some (value, text.drop word.length) else none

mutual

def parseValue : Nat → Bytes → Option (Json × Bytes)
  | 0, _ => none
  | fuel + 1, text =>
      match skipSpace text with
      | [] => none
      | byte :: rest =>
          if byte = quote then (parseString rest).map fun read => (.string read.1, read.2)
          else if byte = openBrace then
            if (skipSpace rest).head? = some closeBrace then
              some (.object [], (skipSpace rest).tail)
            else (parseMembers fuel rest).map fun read => (.object read.1, read.2)
          else if byte = openBracket then
            if (skipSpace rest).head? = some closeBracket then
              some (.array [], (skipSpace rest).tail)
            else (parseItems fuel rest).map fun read => (.array read.1, read.2)
          else if byte = 116 then literal (ascii "true") (.bool true) (byte :: rest)
          else if byte = 102 then literal (ascii "false") (.bool false) (byte :: rest)
          else if byte = 110 then literal (ascii "null") .null (byte :: rest)
          else (parseNumber (byte :: rest)).map fun read => (.number read.1, read.2)

def parseItems : Nat → Bytes → Option (List Json × Bytes)
  | 0, _ => none
  | fuel + 1, text =>
      match parseValue fuel text with
      | none => none
      | some (item, rest) =>
          match skipSpace rest with
          | [] => none
          | byte :: tail =>
              if byte = closeBracket then some ([item], tail)
              else if byte = comma then
                (parseItems fuel tail).map fun read => (item :: read.1, read.2)
              else none

def parseMembers : Nat → Bytes → Option (List (Bytes × Json) × Bytes)
  | 0, _ => none
  | fuel + 1, text =>
      match skipSpace text with
      | [] => none
      | opening :: body =>
          if opening = quote then
            match parseString body with
            | none => none
            | some (key, after) =>
                match skipSpace after with
                | [] => none
                | separator :: text =>
                    if separator = colon then
                      match parseValue fuel text with
                      | none => none
                      | some (value, rest) =>
                          match skipSpace rest with
                          | [] => none
                          | byte :: tail =>
                              if byte = closeBrace then some ([(key, value)], tail)
                              else if byte = comma then
                                (parseMembers fuel tail).map fun read =>
                                  ((key, value) :: read.1, read.2)
                              else none
                    else none
          else none

end

def parse (text : Bytes) : Option Json :=
  match parseValue (2 * text.length + 2) text with
  | none => none
  | some (doc, rest) => if skipSpace rest = [] then some doc else none

/-- The bytes are the UTF-8 encoding of a sequence of characters. -/
def Utf8 (text : Bytes) : Prop := ∃ chars : List Char, text = chars.flatMap String.utf8EncodeChar

/-- The text is a JSON document with this content. -/
def Document (text : Bytes) (doc : Json) : Prop := Utf8 text ∧ parse text = some doc

/-! ## Decoding a string that was never escaped -/

/-- Bytes that stand for themselves in a string literal. -/
def PlainByte (byte : UInt8) : Prop := byte ≠ quote ∧ byte ≠ backslash ∧ 32 ≤ byte

instance (byte : UInt8) : Decidable (PlainByte byte) :=
  inferInstanceAs (Decidable (byte ≠ quote ∧ byte ≠ backslash ∧ 32 ≤ byte))

def Plain (text : Bytes) : Prop := ∀ byte ∈ text, PlainByte byte

instance (text : Bytes) : Decidable (Plain text) :=
  List.decidableBAll _ text

def weight : Piece → Nat
  | .byte _ => 1
  | .unit _ => 4

def totalWeight (pieces : List Piece) : Nat := (pieces.map weight).sum

@[simp] theorem totalWeight_nil : totalWeight [] = 0 := rfl

@[simp] theorem totalWeight_cons (piece : Piece) (pieces : List Piece) :
    totalWeight (piece :: pieces) = weight piece + totalWeight pieces := rfl

theorem utf8_length (code : Nat) : (utf8 code).length ≤ 4 := by
  rw [utf8, String.length_utf8EncodeChar]
  exact Char.utf8Size_le_four _

theorem assemble_length (pieces : List Piece) : (assemble pieces).length ≤ totalWeight pieces := by
  fun_induction assemble pieces with
  | case1 => simp
  | case2 value rest ih =>
      simp only [List.length_cons, totalWeight_cons, weight]
      omega
  | case3 high low rest pair ih =>
      have encoded := utf8_length (0x10000 + 1024 * (high - 0xD800) + (low - 0xDC00))
      simp only [List.length_append, totalWeight_cons, weight]
      omega
  | case4 high low rest single ih =>
      have lone := utf8_length 0xFFFD
      have encoded := utf8_length high
      simp only [List.length_append, totalWeight_cons, weight] at ih ⊢
      split <;> omega
  | case5 code rest single ih =>
      have lone := utf8_length 0xFFFD
      have encoded := utf8_length code
      simp only [List.length_append, totalWeight_cons, weight]
      split <;> omega

@[simp] theorem assemble_bytes (bytes : Bytes) : assemble (bytes.map Piece.byte) = bytes := by
  induction bytes with
  | nil => rfl
  | cons byte bytes ih => simpa [assemble] using ih

theorem assemble_last (pieces : List Piece) (value : UInt8) :
    assemble (pieces ++ [.byte value]) = assemble pieces ++ [value] := by
  fun_induction assemble pieces with
  | case1 => rfl
  | case2 head rest ih => simp [assemble, ih]
  | case3 high low rest pair ih => simp [assemble, pair, ih]
  | case4 high low rest single ih =>
      rw [List.cons_append, List.cons_append, assemble, if_neg single]
      rw [List.cons_append] at ih
      simp [ih]
  | case5 code rest single ih =>
      cases rest with
      | nil => simp [assemble]
      | cons piece rest =>
          cases piece with
          | byte head => simpa [assemble] using ih
          | unit low => exact absurd rfl (single low rest)

theorem hexValue_quote : hexValue quote = none := by decide

theorem codeUnit_quote (first second third fourth : UInt8)
    (present : quote ∈ [first, second, third, fourth]) :
    codeUnit first second third fourth = none := by
  simp only [List.mem_cons, List.not_mem_nil, or_false] at present
  unfold codeUnit
  rcases present with same | same | same | same <;> subst same <;> rw [hexValue_quote] <;>
    simp

theorem stringPieces_cases (byte : UInt8) (text rest : Bytes) (pieces : List Piece)
    (scanned : stringPieces (byte :: text) = some (pieces, rest)) :
    (byte = quote ∧ pieces = [] ∧ rest = text) ∨
    (PlainByte byte ∧ ∃ more, stringPieces text = some (more, rest) ∧
      pieces = .byte byte :: more) ∨
    (byte = backslash ∧ ∃ escape tail value more, text = escape :: tail ∧
      simpleEscape escape = some value ∧ stringPieces tail = some (more, rest) ∧
      pieces = .byte value :: more) ∨
    (byte = backslash ∧ ∃ first second third fourth tail unit more,
      text = 117 :: first :: second :: third :: fourth :: tail ∧
      codeUnit first second third fourth = some unit ∧
      stringPieces tail = some (more, rest) ∧ pieces = .unit unit :: more) := by
  unfold stringPieces at scanned
  split at scanned
  · next closing =>
    cases scanned
    exact Or.inl ⟨closing, rfl, rfl⟩
  · next inside =>
    split at scanned
    · cases scanned
    · next printable =>
      split at scanned
      · next escaped =>
        split at scanned
        · next first second third fourth tail =>
          split at scanned
          · cases scanned
          · next unit decoded =>
            obtain ⟨⟨more, after⟩, read, same⟩ := Option.map_eq_some_iff.mp scanned
            cases same
            exact Or.inr (Or.inr (Or.inr
              ⟨escaped, first, second, third, fourth, tail, unit, more, rfl, decoded, read, rfl⟩))
        · next escape tail _ =>
          split at scanned
          · cases scanned
          · next value decoded =>
            obtain ⟨⟨more, after⟩, read, same⟩ := Option.map_eq_some_iff.mp scanned
            cases same
            exact Or.inr (Or.inr (Or.inl
              ⟨escaped, escape, tail, value, more, rfl, decoded, read, rfl⟩))
        · cases scanned
      · next unescaped =>
        obtain ⟨⟨more, after⟩, read, same⟩ := Option.map_eq_some_iff.mp scanned
        cases same
        exact Or.inr (Or.inl ⟨⟨inside, unescaped, UInt8.not_lt.mp printable⟩, more, read, rfl⟩)

theorem stringPieces_quote (rest : Bytes) : stringPieces (quote :: rest) = some ([], rest) := by
  unfold stringPieces
  exact if_pos rfl

theorem stringPieces_plain (byte : UInt8) (rest : Bytes) (plain : PlainByte byte) :
    stringPieces (byte :: rest) =
      (stringPieces rest).map fun read => (.byte byte :: read.1, read.2) := by
  conv_lhs => unfold stringPieces
  rw [if_neg plain.1, if_neg (UInt8.not_lt.mpr plain.2.2), if_neg plain.2.1]

theorem stringPieces_text (text rest : Bytes) (plain : Plain text) :
    stringPieces (text ++ quote :: rest) = some (text.map Piece.byte, rest) := by
  induction text with
  | nil => exact stringPieces_quote rest
  | cons byte text ih =>
      obtain ⟨head, tail⟩ := List.forall_mem_cons.mp plain
      rw [List.cons_append, stringPieces_plain byte _ head, ih tail]
      rfl

/-- How a text that stands unescaped before a quote, a plain byte and a quote is
scanned: at most its length is read, all of it only if it needs no escaping, or
a final backslash makes the scanner run on to the second quote. -/
def Delimited (text : Bytes) (next : UInt8) (tail rest : Bytes) (pieces : List Piece) : Prop :=
  (totalWeight pieces ≤ text.length ∧
    (totalWeight pieces = text.length →
      Plain text ∧ pieces = text.map Piece.byte ∧ rest = next :: quote :: tail)) ∨
  (text.getLast? = some backslash ∧ ∃ front, pieces = front ++ [.byte next])

section
variable (text : Bytes) (next : UInt8) (tail rest : Bytes) (pieces : List Piece)

theorem delimited_plain (byte : UInt8) (plain : PlainByte byte)
    (inner : Delimited text next tail rest pieces) :
    Delimited (byte :: text) next tail rest (.byte byte :: pieces) := by
  rcases inner with ⟨short, whole⟩ | ⟨last, front, ends⟩
  · left
    simp only [totalWeight_cons, weight, List.length_cons]
    refine ⟨by omega, fun full => ?_⟩
    obtain ⟨plainRest, samePieces, sameRest⟩ := whole (by omega)
    exact ⟨List.forall_mem_cons.mpr ⟨plain, plainRest⟩, by simp [samePieces], sameRest⟩
  · right
    exact ⟨by simp [last, List.getLast?_cons], .byte byte :: front, by simp [ends]⟩

theorem delimited_escape (escape : Bytes) (piece : Piece) (longer : weight piece < escape.length)
    (inner : Delimited text next tail rest pieces) :
    Delimited (escape ++ text) next tail rest (piece :: pieces) := by
  rcases inner with ⟨short, _⟩ | ⟨last, front, ends⟩
  · left
    simp only [totalWeight_cons, List.length_append]
    exact ⟨by omega, fun full => by omega⟩
  · right
    exact ⟨by simp [last, List.getLast?_append], piece :: front, by simp [ends]⟩

theorem unit_inside (first second third fourth : UInt8) (unit : Nat) (after : Bytes)
    (decoded : codeUnit first second third fourth = some unit)
    (split : text ++ quote :: tail = 117 :: first :: second :: third :: fourth :: after) :
    ∃ more, text = 117 :: first :: second :: third :: fourth :: more ∧
      after = more ++ quote :: tail := by
  have inside : quote ∉ [first, second, third, fourth] := fun present => by
    simp [codeUnit_quote first second third fourth present] at decoded
  match text, split with
  | [], split => exact absurd (List.cons.inj split).1 (by decide)
  | [_], split =>
    have hit : quote = first := Option.some.inj (congrArg (·[1]?) split)
    exact absurd (by simp [hit]) inside
  | [_, _], split =>
    have hit : quote = second := Option.some.inj (congrArg (·[2]?) split)
    exact absurd (by simp [hit]) inside
  | [_, _, _], split =>
    have hit : quote = third := Option.some.inj (congrArg (·[3]?) split)
    exact absurd (by simp [hit]) inside
  | [_, _, _, _], split =>
    have hit : quote = fourth := Option.some.inj (congrArg (·[4]?) split)
    exact absurd (by simp [hit]) inside
  | _ :: _ :: _ :: _ :: _ :: more, split =>
    simp only [List.cons_append, List.cons.injEq] at split
    obtain ⟨rfl, rfl, rfl, rfl, rfl, same⟩ := split
    exact ⟨more, rfl, same.symm⟩

end

theorem stringPieces_delimited (text : Bytes) (next : UInt8) (tail rest : Bytes)
    (pieces : List Piece) (ordinary : PlainByte next)
    (scanned : stringPieces (text ++ quote :: next :: quote :: tail) = some (pieces, rest)) :
    Delimited text next tail rest pieces := by
  induction measured : text.length using Nat.strong_induction_on generalizing text pieces with
  | _ size ih =>
    cases text with
    | nil =>
        rw [List.nil_append, stringPieces_quote] at scanned
        cases scanned
        exact Or.inl ⟨Nat.zero_le _, fun _ => ⟨by simp [Plain], rfl, rfl⟩⟩
    | cons byte text =>
        simp only [List.length_cons] at measured
        rw [List.cons_append] at scanned
        rcases stringPieces_cases byte _ rest pieces scanned with
          ⟨_, stopped, _⟩ | ⟨plain, more, read, same⟩ |
          ⟨escaped, escape, after, value, more, split, decoded, read, same⟩ |
          ⟨escaped, first, second, third, fourth, after, unit, more, split, decoded, read, same⟩
        · subst pieces
          left
          rw [totalWeight_nil]
          exact ⟨Nat.zero_le _, fun full => by simp at full⟩
        · subst pieces
          have inner := ih text.length (by omega) text more read rfl
          exact delimited_plain text next tail rest more byte plain inner
        · subst pieces
          cases text with
          | nil =>
              -- The final backslash escapes the first quote, so `next` is read too.
              rw [List.nil_append] at split
              cases split
              rw [stringPieces_plain next _ ordinary, stringPieces_quote] at read
              cases read
              exact Or.inr ⟨by simp [escaped], [.byte value], rfl⟩
          | cons head text =>
              rw [List.cons_append] at split
              cases split
              simp only [List.length_cons] at measured
              have inner := ih text.length (by omega) text more read rfl
              exact delimited_escape text next tail rest more [byte, escape] (.byte value)
                (by simp [weight]) inner
        · subst pieces
          obtain ⟨text, rfl, rfl⟩ :=
            unit_inside text (next :: quote :: tail) first second third fourth unit after decoded
              split
          simp only [List.length_cons] at measured
          have inner := ih text.length (by omega) text more read rfl
          exact delimited_escape text next tail rest more
            [byte, 117, first, second, third, fourth] (.unit unit) (by simp [weight]) inner

/-- A name spliced unescaped before a quote decodes to itself exactly when it
needed no escaping. -/
theorem parseString_unescaped (text : Bytes) (next : UInt8) (tail : Bytes)
    (ordinary : PlainByte next) (rest : Bytes) :
    parseString (text ++ quote :: next :: quote :: tail) = some (text, rest) ↔
      Plain text ∧ rest = next :: quote :: tail := by
  constructor
  · intro decoded
    obtain ⟨⟨pieces, after⟩, scanned, same⟩ := Option.map_eq_some_iff.mp decoded
    obtain ⟨sameText, sameRest⟩ := Prod.mk.inj same
    simp only at sameText sameRest
    subst after
    rcases stringPieces_delimited text next tail rest pieces ordinary scanned with
      ⟨short, whole⟩ | ⟨last, front, ends⟩
    · have bound := assemble_length pieces
      rw [sameText] at bound
      obtain ⟨plain, _, delimiter⟩ := whole (by omega)
      exact ⟨plain, delimiter⟩
    · rw [ends, assemble_last] at sameText
      rw [← sameText, List.getLast?_concat, Option.some.injEq] at last
      exact absurd last ordinary.2.1
  · rintro ⟨plain, same⟩
    rw [parseString, stringPieces_text text _ plain, Option.map_some, assemble_bytes, same]

/-! ## Reading back printed numerals -/

/-- A byte after which no numeral goes on. -/
def Stops (byte : UInt8) : Prop :=
  isDigit byte = false ∧ byte ≠ 46 ∧ byte ≠ 101 ∧ byte ≠ 69

theorem comma_stops : Stops comma := ⟨by decide, by decide, by decide, by decide⟩

theorem closeBrace_stops : Stops closeBrace := ⟨by decide, by decide, by decide, by decide⟩

theorem spanDigits_append (digits rest : Bytes) (byte : UInt8)
    (all : ∀ digit ∈ digits, isDigit digit = true) (stop : isDigit byte = false) :
    spanDigits (digits ++ byte :: rest) = (digits, byte :: rest) := by
  rw [spanDigits, List.takeWhile_append_of_pos all, List.dropWhile_append_of_pos all]
  simp [stop]

theorem digitsValue_append (digits : Bytes) (digit : UInt8) :
    digitsValue (digits ++ [digit]) = 10 * digitsValue digits + digitValue digit := by
  simp [digitsValue, List.foldl_append]

theorem decimal_canonical (number : Nat) :
    ¬ (decimal number = [] ∨
      (1 < (decimal number).length ∧ (decimal number).head? = some (digitByte 0))) := by
  rintro (empty | ⟨long, leading⟩)
  · exact decimal_nonempty number empty
  · by_cases zero : number = 0
    · simp [decimal, zero] at long
    · obtain ⟨digit, rest, same, nonzero, _⟩ := decimal_leading number zero
      rw [same, List.head?_cons, Option.some.injEq] at leading
      exact nonzero leading

theorem parseFraction_stop (byte : UInt8) (rest : Bytes) (other : byte ≠ 46) :
    parseFraction (byte :: rest) = some ([], byte :: rest) := by
  unfold parseFraction
  split
  · next same => exact absurd (List.cons.inj same).1 other
  · rfl

theorem parseExponent_stop (byte : UInt8) (rest : Bytes) (upper : byte ≠ 101)
    (lower : byte ≠ 69) : parseExponent (byte :: rest) = some (0, byte :: rest) := by
  unfold parseExponent
  simp [upper, lower]

theorem parseMagnitude_decimal (number : Nat) (byte : UInt8) (rest : Bytes)
    (stops : Stops byte) :
    parseMagnitude (decimal number ++ byte :: rest) = some ((number : ℚ), byte :: rest) := by
  rw [parseMagnitude, spanDigits_append _ _ _ (decimal_digits number) stops.1,
    if_neg (decimal_canonical number), parseFraction_stop byte rest stops.2.1]
  simp only [Option.bind_eq_bind, Option.bind_some,
    parseExponent_stop byte rest stops.2.2.1 stops.2.2.2]
  simp [decimal_value]

theorem fixed2_value (hundredths : Nat) :
    digitsValue (decimal (hundredths / 100) ++
      [digitByte (hundredths / 10 % 10), digitByte (hundredths % 10)]) = hundredths := by
  have tens := digitByte_value (hundredths / 10 % 10) (Nat.mod_lt _ (by decide))
  have units := digitByte_value (hundredths % 10) (Nat.mod_lt _ (by decide))
  rw [List.append_cons, digitsValue_append, digitsValue_append, decimal_value, tens, units]
  omega

theorem parseMagnitude_fixed2 (hundredths : Nat) (byte : UInt8) (rest : Bytes)
    (stops : Stops byte) :
    parseMagnitude (fixed2 hundredths ++ byte :: rest) =
      some ((hundredths : ℚ) / 100, byte :: rest) := by
  have tens := digitByte_isDigit (hundredths / 10 % 10) (Nat.mod_lt _ (by decide))
  have units := digitByte_isDigit (hundredths % 10) (Nat.mod_lt _ (by decide))
  have decimals : spanDigits ([digitByte (hundredths / 10 % 10), digitByte (hundredths % 10)] ++
      byte :: rest) = ([digitByte (hundredths / 10 % 10), digitByte (hundredths % 10)],
        byte :: rest) := by
    apply spanDigits_append _ _ _ _ stops.1
    simp [tens, units]
  have text : fixed2 hundredths ++ byte :: rest = decimal (hundredths / 100) ++ (46 :: ([
      digitByte (hundredths / 10 % 10), digitByte (hundredths % 10)] ++ byte :: rest)) := by
    simp [fixed2, show ascii "." = [46] from rfl]
  rw [text, parseMagnitude, spanDigits_append _ _ _ (decimal_digits _) (by decide),
    if_neg (decimal_canonical _)]
  simp only [parseFraction, decimals, List.cons_ne_nil, ↓reduceIte, Option.bind_eq_bind,
    Option.bind_some, parseExponent_stop byte rest stops.2.2.1 stops.2.2.2, fixed2_value]
  norm_num

theorem parseNumber_digit (byte : UInt8) (rest : Bytes) (digit : isDigit byte = true) :
    parseNumber (byte :: rest) = parseMagnitude (byte :: rest) := by
  unfold parseNumber
  split
  · next same =>
    have minus := (List.cons.inj same).1
    subst minus
    exact absurd digit (by decide)
  · rfl

theorem parseNumber_sign (rest : Bytes) :
    parseNumber (45 :: rest) = (parseMagnitude rest).map fun read => (-read.1, read.2) := rfl

theorem parseNumber_decimal (number : Nat) (byte : UInt8) (rest : Bytes)
    (stops : Stops byte) :
    parseNumber (decimal number ++ byte :: rest) = some ((number : ℚ), byte :: rest) := by
  rw [← parseMagnitude_decimal number byte rest stops]
  cases text : decimal number with
  | nil => exact absurd text (decimal_nonempty number)
  | cons digit digits =>
      exact parseNumber_digit digit _ (decimal_digits number digit (by simp [text]))

theorem parseNumber_decimalInt (number : Int) (byte : UInt8) (rest : Bytes)
    (stops : Stops byte) :
    parseNumber (decimalInt number ++ byte :: rest) = some ((number : ℚ), byte :: rest) := by
  by_cases negative : number < 0
  · have magnitude : ((number.natAbs : ℕ) : ℚ) = -(number : ℚ) := by
      rw [Nat.cast_natAbs, abs_of_neg negative, Int.cast_neg]
    rw [decimalInt, if_pos negative, List.append_assoc, show ascii "-" = [45] from rfl,
      List.singleton_append, parseNumber_sign, parseMagnitude_decimal _ byte rest stops]
    simp [magnitude]
  · have magnitude : ((number.natAbs : ℕ) : ℚ) = (number : ℚ) := by
      rw [Nat.cast_natAbs, abs_of_nonneg (not_lt.mp negative)]
    rw [decimalInt, if_neg negative, parseNumber_decimal _ byte rest stops, magnitude]

open Float.Model.UnpackedFloat (Sign)

theorem parseNumber_signed (sign : Sign) (hundredths : Nat) (byte : UInt8) (rest : Bytes)
    (stops : Stops byte) :
    parseNumber (signText sign ++ fixed2 hundredths ++ byte :: rest) =
      some (((sign.apply hundredths : ℤ) : ℚ) / 100, byte :: rest) := by
  have read := parseMagnitude_fixed2 hundredths byte rest stops
  cases sign with
  | negative =>
      rw [signText, show ascii "-" = [45] from rfl, List.append_assoc, List.singleton_append,
        parseNumber_sign, read]
      simp only [Option.map_some, Sign.apply, Int.cast_neg, Int.cast_natCast, neg_div]
  | positive =>
      rw [signText, List.nil_append, Sign.apply, Int.cast_natCast, ← read]
      cases text : decimal (hundredths / 100) with
      | nil => exact absurd text (decimal_nonempty _)
      | cons digit digits =>
          rw [fixed2, text]
          exact parseNumber_digit digit _ (decimal_digits (hundredths / 100) digit (by simp [text]))

theorem parseNumber_printFloat2 (value : Float32) (hundredths : Int) (byte : UInt8)
    (rest : Bytes) (stops : Stops byte) (finite : floatHundredths value = some hundredths) :
    parseNumber (printFloat2 value ++ byte :: rest) =
      some ((hundredths : ℚ) / 100, byte :: rest) := by
  unfold floatHundredths at finite
  unfold printFloat2
  split at finite
  · next sign mantissa exponent positive _ =>
    cases finite
    exact parseNumber_signed sign _ byte rest stops
  · next sign _ =>
    cases finite
    have zero : sign.apply (0 : ℕ) = 0 := by cases sign <;> rfl
    rw [parseNumber_signed sign 0 byte rest stops, zero]
  · cases finite
  · cases finite

/-! ## The value parser on known first bytes -/

theorem skipSpace_cons (byte : UInt8) (rest : Bytes) (visible : isSpace byte = false) :
    skipSpace (byte :: rest) = byte :: rest := by
  simp [skipSpace, visible]

theorem parseValue_string (fuel : Nat) (body : Bytes) :
    parseValue (fuel + 1) (quote :: body) =
      (parseString body).map fun read => (.string read.1, read.2) := by
  rw [parseValue, skipSpace_cons quote body (by decide)]
  exact if_pos rfl

theorem parseValue_object (fuel : Nat) (body : Bytes) :
    parseValue (fuel + 1) (openBrace :: quote :: body) =
      (parseMembers fuel (quote :: body)).map fun read => (.object read.1, read.2) := by
  rw [parseValue, skipSpace_cons openBrace _ (by decide)]
  simp only
  rw [if_neg (by decide), if_pos trivial, skipSpace_cons quote body (by decide),
    List.head?_cons, if_neg (by decide)]

theorem parseValue_array (fuel : Nat) (byte : UInt8) (body : Bytes)
    (visible : isSpace byte = false) (item : byte ≠ closeBracket) :
    parseValue (fuel + 1) (openBracket :: byte :: body) =
      (parseItems fuel (byte :: body)).map fun read => (.array read.1, read.2) := by
  rw [parseValue, skipSpace_cons openBracket _ (by decide)]
  simp only
  rw [if_neg (by decide), if_neg (by decide), if_pos trivial, skipSpace_cons byte body visible,
    if_neg (by simpa using item)]

theorem parseValue_emptyArray (fuel : Nat) (rest : Bytes) :
    parseValue (fuel + 1) (openBracket :: closeBracket :: rest) = some (.array [], rest) := by
  rw [parseValue, skipSpace_cons openBracket _ (by decide)]
  simp only
  rw [if_neg (by decide), if_neg (by decide), if_pos trivial,
    skipSpace_cons closeBracket rest (by decide), List.head?_cons, if_pos rfl]
  rfl

theorem parseValue_other (fuel : Nat) (byte : UInt8) (rest : Bytes)
    (visible : isSpace byte = false)
    (other : byte ∉ [quote, openBrace, openBracket, 116, 102, 110]) :
    parseValue (fuel + 1) (byte :: rest) =
      (parseNumber (byte :: rest)).map fun read => (.number read.1, read.2) := by
  simp only [List.mem_cons, List.not_mem_nil, or_false, not_or] at other
  obtain ⟨string, object, array, yes, no, null⟩ := other
  rw [parseValue, skipSpace_cons byte rest visible]
  simp only
  rw [if_neg string, if_neg object, if_neg array, if_neg yes, if_neg no, if_neg null]

theorem digit_visible (byte : UInt8) (digit : isDigit byte = true) :
    isSpace byte = false ∧ byte ∉ [quote, openBrace, openBracket, 116, 102, 110] := by
  have differs : ∀ other, isDigit other = false → byte ≠ other := fun other no same => by
    rw [same, no] at digit
    cases digit
  constructor
  · simp [isSpace, differs 32 (by decide), differs 9 (by decide), differs 10 (by decide),
      differs 13 (by decide)]
  · simp [differs 34 (by decide), differs 123 (by decide), differs 91 (by decide),
      differs 116 (by decide), differs 102 (by decide), differs 110 (by decide)]

theorem parseValue_digit (fuel : Nat) (byte : UInt8) (rest : Bytes)
    (digit : isDigit byte = true) :
    parseValue (fuel + 1) (byte :: rest) =
      (parseNumber (byte :: rest)).map fun read => (.number read.1, read.2) :=
  parseValue_other fuel byte rest (digit_visible byte digit).1 (digit_visible byte digit).2

theorem parseValue_sign (fuel : Nat) (rest : Bytes) :
    parseValue (fuel + 1) (45 :: rest) =
      (parseNumber (45 :: rest)).map fun read => (.number read.1, read.2) :=
  parseValue_other fuel 45 rest (by decide) (by decide)

/-! ## Members and items -/

theorem parseString_plain (text rest : Bytes) (plain : Plain text) :
    parseString (text ++ quote :: rest) = some (text, rest) := by
  rw [parseString, stringPieces_text text rest plain, Option.map_some, assemble_bytes]

section
variable (fuel : Nat) (key text : Bytes) (plain : Plain key)
include plain

/-- The key of a member is read before its value is looked at. -/
theorem parseMembers_key :
    parseMembers (fuel + 1) (quote :: (key ++ quote :: colon :: text)) =
      match parseValue fuel text with
      | none => none
      | some (value, rest) =>
          match skipSpace rest with
          | [] => none
          | byte :: tail =>
              if byte = closeBrace then some ([(key, value)], tail)
              else if byte = comma then
                (parseMembers fuel tail).map fun read => ((key, value) :: read.1, read.2)
              else none := by
  rw [parseMembers, skipSpace_cons quote _ (by decide)]
  simp only [↓reduceIte]
  rw [parseString_plain key _ plain]
  simp only
  rw [skipSpace_cons colon _ (by decide)]
  simp only [↓reduceIte]

theorem parseMembers_first (members : List (Bytes × Json)) (rest : Bytes)
    (parsed : parseMembers (fuel + 1) (quote :: (key ++ quote :: colon :: text)) =
      some (members, rest)) :
    ∃ value after more, parseValue fuel text = some (value, after) ∧
      members = (key, value) :: more := by
  rw [parseMembers_key fuel key text plain] at parsed
  split at parsed
  · cases parsed
  · next value after found =>
    split at parsed
    · cases parsed
    · split at parsed
      · cases parsed
        exact ⟨value, after, [], found, rfl⟩
      · split at parsed
        · obtain ⟨read, _, same⟩ := Option.map_eq_some_iff.mp parsed
          cases same
          exact ⟨value, after, read.1, found, rfl⟩
        · cases parsed

theorem parseMembers_more (value : Json) (tail : Bytes)
    (found : parseValue fuel text = some (value, comma :: tail)) :
    parseMembers (fuel + 1) (quote :: (key ++ quote :: colon :: text)) =
      (parseMembers fuel tail).map fun read => ((key, value) :: read.1, read.2) := by
  rw [parseMembers_key fuel key text plain, found]
  simp only
  rw [skipSpace_cons comma _ (by decide)]
  exact if_neg (by decide)

theorem parseMembers_last (value : Json) (tail : Bytes)
    (found : parseValue fuel text = some (value, closeBrace :: tail)) :
    parseMembers (fuel + 1) (quote :: (key ++ quote :: colon :: text)) =
      some ([(key, value)], tail) := by
  rw [parseMembers_key fuel key text plain, found]
  simp only
  rw [skipSpace_cons closeBrace _ (by decide)]
  exact if_pos rfl

end

theorem parseItems_first (fuel : Nat) (text rest : Bytes) (items : List Json)
    (parsed : parseItems (fuel + 1) text = some (items, rest)) :
    ∃ item after more, parseValue fuel text = some (item, after) ∧ items = item :: more := by
  rw [parseItems] at parsed
  split at parsed
  · cases parsed
  · next item after found =>
    split at parsed
    · cases parsed
    · split at parsed
      · cases parsed
        exact ⟨item, after, [], found, rfl⟩
      · split at parsed
        · obtain ⟨read, _, same⟩ := Option.map_eq_some_iff.mp parsed
          cases same
          exact ⟨item, after, read.1, found, rfl⟩
        · cases parsed

theorem parseItems_more (fuel : Nat) (text tail : Bytes) (item : Json)
    (found : parseValue fuel text = some (item, comma :: tail)) :
    parseItems (fuel + 1) text =
      (parseItems fuel tail).map fun read => (item :: read.1, read.2) := by
  rw [parseItems, found]
  simp only
  rw [skipSpace_cons comma _ (by decide)]
  exact if_neg (by decide)

theorem parseItems_last (fuel : Nat) (text tail : Bytes) (item : Json)
    (found : parseValue fuel text = some (item, closeBracket :: tail)) :
    parseItems (fuel + 1) text = some ([item], tail) := by
  rw [parseItems, found]
  simp only
  rw [skipSpace_cons closeBracket _ (by decide)]
  exact if_pos rfl

/-! ## UTF-8 -/

theorem encoding_cases (char : Char) :
    (∃ byte, String.utf8EncodeChar char = [byte] ∧ byte < 128) ∨
      ∀ byte ∈ String.utf8EncodeChar char, 128 ≤ byte := by
  have tail (code : Nat) : (128 : UInt8) ≤ UInt8.ofNat (code % 64 + 128) := by
    rw [UInt8.le_iff_toNat_le, UInt8.toNat_ofNat']
    simp only [UInt8.reduceToNat]
    omega
  have head (part low high : Nat) (bounds : 128 ≤ low ∧ low + high ≤ 256) (inside : part < high) :
      (128 : UInt8) ≤ UInt8.ofNat (part + low) := by
    rw [UInt8.le_iff_toNat_le, UInt8.toNat_ofNat']
    simp only [UInt8.reduceToNat]
    omega
  unfold String.utf8EncodeChar
  simp only
  split
  · next small =>
    left
    refine ⟨_, rfl, ?_⟩
    rw [UInt8.lt_iff_toNat_lt, UInt8.toNat_ofNat']
    simp only [UInt8.reduceToNat]
    omega
  · right
    split
    · simp only [List.forall_mem_cons, List.not_mem_nil, false_implies, implies_true, and_true]
      exact ⟨head _ 192 32 (by decide) (Nat.mod_lt _ (by decide)), tail _⟩
    · split
      · simp only [List.forall_mem_cons, List.not_mem_nil, false_implies, implies_true, and_true]
        exact ⟨head _ 224 16 (by decide) (Nat.mod_lt _ (by decide)), tail _, tail _⟩
      · simp only [List.forall_mem_cons, List.not_mem_nil, false_implies, implies_true, and_true]
        exact ⟨head _ 240 8 (by decide) (Nat.mod_lt _ (by decide)), tail _, tail _, tail _⟩

theorem utf8_nil : Utf8 [] := ⟨[], rfl⟩

theorem utf8_append (left right : Bytes) (first : Utf8 left) (second : Utf8 right) :
    Utf8 (left ++ right) := by
  obtain ⟨before, same⟩ := first
  obtain ⟨after, sameRight⟩ := second
  exact ⟨before ++ after, by rw [List.flatMap_append, same, sameRight]⟩

theorem utf8_ascii (text : Bytes) (small : ∀ byte ∈ text, byte < 128) : Utf8 text := by
  induction text with
  | nil => exact utf8_nil
  | cons byte text ih =>
      obtain ⟨head, tail⟩ := List.forall_mem_cons.mp small
      apply utf8_append [byte] text ?_ (ih tail)
      have bound : byte.toNat ≤ 127 := by
        rw [UInt8.lt_iff_toNat_lt] at head
        exact Nat.le_of_lt_succ head
      have code : (Char.ofUInt8 byte).val.toNat = byte.toNat := UInt8.toNat_toUInt32 byte
      refine ⟨[Char.ofUInt8 byte], ?_⟩
      simp [String.utf8EncodeChar, code, bound]

/-- An ASCII byte is a character of its own, so it splits the text. -/
theorem utf8_split (left right : Bytes) (byte : UInt8) (small : byte < 128)
    (encoded : Utf8 (left ++ byte :: right)) : Utf8 left ∧ Utf8 right := by
  obtain ⟨chars, same⟩ := encoded
  induction chars generalizing left with
  | nil => simp at same
  | cons char chars ih =>
      rw [List.flatMap_cons] at same
      rcases List.append_eq_append_iff.mp same with ⟨rest, front, back⟩ | ⟨rest, front, back⟩
      · cases rest with
        | nil =>
            rw [List.append_nil] at front
            rw [List.nil_append] at back
            exact ⟨⟨[char], by simp [front]⟩, (ih [] back).2⟩
        | cons first rest =>
            obtain ⟨sameByte, sameRight⟩ := List.cons.inj back
            subst first
            rcases encoding_cases char with ⟨single, one, _⟩ | large
            · rw [one] at front
              obtain ⟨empty, tail⟩ : left = [] ∧ rest = [] := by
                have lengths := congrArg List.length front
                simp only [List.length_append, List.length_cons, List.length_nil] at lengths
                exact ⟨List.eq_nil_of_length_eq_zero (by omega),
                  List.eq_nil_of_length_eq_zero (by omega)⟩
              subst left rest
              exact ⟨utf8_nil, chars, by simpa using sameRight⟩
            · have member : byte ∈ String.utf8EncodeChar char := by simp [front]
              exact absurd small (UInt8.not_lt.mpr (large byte member))
      · obtain ⟨before, after⟩ := ih rest back.symm
        exact ⟨front ▸ utf8_append _ _ ⟨[char], by simp⟩ before, after⟩

end SensorNode.JsonText
