/-
JSON texts and a reader for them.  A number is read with its value, a string
with its characters as they stand between the quotes.
-/
import Mathlib.Data.Nat.Digits.Defs
import Mathlib.Data.Rat.Defs

namespace JsonText

inductive Value where
  | null
  | bool (value : Bool)
  | number (value : ℚ)
  | string (text : List Char)
  | array (items : List Value)
  | object (members : List (List Char × Value))

/-- The first member of that name. -/
def Value.member (name : List Char) : Value → Option Value
  | .object members => (members.find? (·.1 == name)).map (·.2)
  | _ => none

def Value.item (index : Nat) : Value → Option Value
  | .array items => items[index]?
  | _ => none

def skipSpace (text : List Char) : List Char :=
  text.dropWhile fun c => c == ' ' || c == '\t' || c == '\n' || c == '\r'

/-- The number that decimal digits spell. -/
def decimal (digits : List Char) : Nat :=
  Nat.ofDigits 10 (digits.reverse.map fun c => c.toNat - '0'.toNat)

/-- Digits at the front; at least one is required. -/
def readDigits (text : List Char) : Option (List Char × List Char) :=
  let digits := text.takeWhile Char.isDigit
  if digits = [] then none else some (digits, text.dropWhile Char.isDigit)

/-- The digits behind the point, if there is one. -/
def readFraction : List Char → Option (List Char × List Char)
  | '.' :: rest => readDigits rest
  | text => some ([], text)

/-- Digits with a sign in front of them, if there is one. -/
def readSigned : List Char → Option (ℤ × List Char)
  | '-' :: rest =>
      (readDigits rest).map fun (digits, rest) => (-decimal digits, rest)
  | '+' :: rest =>
      (readDigits rest).map fun (digits, rest) => (decimal digits, rest)
  | rest =>
      (readDigits rest).map fun (digits, rest) => (decimal digits, rest)

/-- The exponent of ten, if there is one. -/
def readExponent : List Char → Option (ℤ × List Char)
  | [] => some (0, [])
  | c :: rest =>
      if c = 'e' ∨ c = 'E' then readSigned rest else some (0, c :: rest)

def readUnsigned (text : List Char) : Option (ℚ × List Char) := do
  let (whole, rest) ← readDigits text
  -- a zero in front stands alone
  if whole.head? = some '0' ∧ whole.length ≠ 1 then none
  else
    let (fraction, rest) ← readFraction rest
    let (exponent, rest) ← readExponent rest
    return ((decimal whole + decimal fraction / 10 ^ fraction.length) *
      10 ^ exponent, rest)

def readNumber : List Char → Option (ℚ × List Char)
  | '-' :: rest => (readUnsigned rest).map fun (value, rest) => (-value, rest)
  | text => readUnsigned text

def isHexDigit (c : Char) : Bool :=
  c.isDigit || ('a' ≤ c && c ≤ 'f') || ('A' ≤ c && c ≤ 'F')

/-- The characters of a string, behind its opening quote. -/
def readString : List Char → Option (List Char × List Char)
  | [] => none
  | '"' :: rest => some ([], rest)
  | '\\' :: 'u' :: a :: b :: c :: d :: rest =>
      if [a, b, c, d].all isHexDigit then
        (readString rest).map fun (text, rest) =>
          ('\\' :: 'u' :: a :: b :: c :: d :: text, rest)
      else none
  | '\\' :: c :: rest =>
      if c ∈ ['"', '\\', '/', 'b', 'f', 'n', 'r', 't'] then
        (readString rest).map fun (text, rest) => ('\\' :: c :: text, rest)
      else none
  | c :: rest =>
      if c = '\\' ∨ c.toNat < 0x20 then none
      else (readString rest).map fun (text, rest) => (c :: text, rest)

mutual

/-- A value, at most `fuel` deep and long. -/
def readValue : Nat → List Char → Option (Value × List Char)
  | 0, _ => none
  | fuel + 1, text =>
      match skipSpace text with
      | 'n' :: 'u' :: 'l' :: 'l' :: rest => some (.null, rest)
      | 't' :: 'r' :: 'u' :: 'e' :: rest => some (.bool true, rest)
      | 'f' :: 'a' :: 'l' :: 's' :: 'e' :: rest => some (.bool false, rest)
      | '"' :: rest =>
          (readString rest).map fun (text, rest) => (.string text, rest)
      | '[' :: rest =>
          match skipSpace rest with
          | ']' :: rest => some (.array [], rest)
          | _ =>
              (readItems fuel rest).map fun (items, rest) =>
                (.array items, rest)
      | '{' :: rest =>
          match skipSpace rest with
          | '}' :: rest => some (.object [], rest)
          | _ =>
              (readMembers fuel rest).map fun (members, rest) =>
                (.object members, rest)
      | text =>
          (readNumber text).map fun (value, rest) => (.number value, rest)

def readItems : Nat → List Char → Option (List Value × List Char)
  | 0, _ => none
  | fuel + 1, text => do
      let (value, rest) ← readValue fuel text
      match skipSpace rest with
      | ',' :: rest =>
          (readItems fuel rest).map fun (items, rest) => (value :: items, rest)
      | ']' :: rest => some ([value], rest)
      | _ => none

def readMembers :
    Nat → List Char → Option (List (List Char × Value) × List Char)
  | 0, _ => none
  | fuel + 1, text =>
      match skipSpace text with
      | '"' :: rest => do
          let (name, rest) ← readString rest
          match skipSpace rest with
          | ':' :: rest =>
              let (value, rest) ← readValue fuel rest
              match skipSpace rest with
              | ',' :: rest =>
                  (readMembers fuel rest).map fun (members, rest) =>
                    ((name, value) :: members, rest)
              | '}' :: rest => some ([(name, value)], rest)
              | _ => none
          | _ => none
      | _ => none

end

/-- The value of a text; `none` when the text is not JSON. -/
def read (text : List Char) : Option Value :=
  match readValue (text.length + 1) text with
  | some (value, rest) => if skipSpace rest = [] then some value else none
  | none => none

/-- Characters that stand for themselves in a string. -/
def Plain (c : Char) : Prop :=
  c ≠ '"' ∧ c ≠ '\\' ∧ 0x20 ≤ c.toNat

instance (c : Char) : Decidable (Plain c) :=
  inferInstanceAs (Decidable (_ ∧ _ ∧ _))

theorem readString_plain {text : List Char} (htext : ∀ c ∈ text, Plain c)
    (rest : List Char) :
    readString (text ++ '"' :: rest) = some (text, rest) := by
  induction text with
  | nil => rfl
  | cons c text ih =>
      obtain ⟨hquote, hescape, hlow⟩ := htext c List.mem_cons_self
      have htail := ih fun d hmem => htext d (List.mem_cons_of_mem _ hmem)
      rw [List.cons_append, readString]
      · rw [if_neg (by
          rintro (h | h)
          · exact hescape h
          · omega), htail]
        rfl
      all_goals
        intros
        first | exact hquote ‹_› | exact hescape ‹_›

/-- A character at which a number ends. -/
def Terminator (c : Char) : Prop :=
  c.isDigit = false ∧ c ∉ ['.', 'e', 'E', '+', '-']

instance (c : Char) : Decidable (Terminator c) :=
  inferInstanceAs (Decidable (_ ∧ _))

theorem takeWhile_append_stop {α : Type} {p : α → Bool} {c : α}
    (hstop : p c = false) (text rest : List α) :
    (text ++ c :: rest).takeWhile p = text.takeWhile p ∧
      (text ++ c :: rest).dropWhile p = text.dropWhile p ++ c :: rest := by
  induction text with
  | nil => simp [hstop]
  | cons d text ih =>
      rw [List.cons_append]
      cases hd : p d with
      | true =>
          simp only [List.takeWhile_cons_of_pos hd,
            List.dropWhile_cons_of_pos hd]
          exact ⟨by rw [ih.1], ih.2⟩
      | false =>
          have hneg : ¬p d = true := by simp [hd]
          simp only [List.takeWhile_cons_of_neg hneg,
            List.dropWhile_cons_of_neg hneg]
          exact ⟨trivial, rfl⟩

variable {c : Char}

/-- What a reader leaves, with more text behind it. -/
def behind {α : Type} (more : List Char) (found : α × List Char) :
    α × List Char :=
  (found.1, found.2 ++ more)

theorem readDigits_append (hc : Terminator c) (text rest : List Char) :
    readDigits (text ++ c :: rest) =
      (readDigits text).map (behind (c :: rest)) := by
  obtain ⟨htake, hdrop⟩ := takeWhile_append_stop hc.1 text rest
  simp only [readDigits, htake, hdrop]
  split <;> rfl

theorem readFraction_append (hc : Terminator c) (text rest : List Char) :
    readFraction (text ++ c :: rest) =
      (readFraction text).map (behind (c :: rest)) := by
  have hpoint : c ≠ '.' := fun h => hc.2 (by simp [h])
  cases text with
  | nil =>
      rw [List.nil_append, readFraction]
      · rfl
      · intro tail heq
        exact hpoint (List.cons.inj heq).1
  | cons d text =>
      by_cases hd : d = '.'
      · subst hd
        exact readDigits_append hc text rest
      · rw [List.cons_append, readFraction, readFraction]
        · rfl
        all_goals
          intro tail heq
          exact hd (List.cons.inj heq).1

theorem readSigned_append (hc : Terminator c) (text rest : List Char) :
    readSigned (text ++ c :: rest) =
      (readSigned text).map (behind (c :: rest)) := by
  have hplus : c ≠ '+' := fun h => hc.2 (by simp [h])
  have hminus : c ≠ '-' := fun h => hc.2 (by simp [h])
  cases text with
  | nil =>
      have hdigits := readDigits_append hc [] rest
      rw [List.nil_append] at hdigits ⊢
      rw [readSigned, hdigits]
      · rfl
      · intro tail heq
        exact hminus (List.cons.inj heq).1
      · intro tail heq
        exact hplus (List.cons.inj heq).1
  | cons d text =>
      by_cases hd : d = '-'
      · subst hd
        rw [List.cons_append, readSigned, readSigned, readDigits_append hc]
        cases readDigits text <;> rfl
      by_cases hd' : d = '+'
      · subst hd'
        rw [List.cons_append, readSigned, readSigned, readDigits_append hc]
        cases readDigits text <;> rfl
      · have hdigits := readDigits_append hc (d :: text) rest
        rw [List.cons_append] at hdigits ⊢
        rw [readSigned, readSigned, hdigits]
        · cases readDigits (d :: text) <;> rfl
        all_goals
          intro tail heq
          first
          | exact hd (List.cons.inj heq).1
          | exact hd' (List.cons.inj heq).1

theorem readExponent_append (hc : Terminator c) (text rest : List Char) :
    readExponent (text ++ c :: rest) =
      (readExponent text).map (behind (c :: rest)) := by
  have hmark : ¬(c = 'e' ∨ c = 'E') := by
    rintro (h | h) <;> exact hc.2 (by simp [h])
  cases text with
  | nil =>
      have hend : readExponent (c :: rest) = some (0, c :: rest) :=
        if_neg hmark
      rw [List.nil_append, hend]
      rfl
  | cons d text =>
      rw [List.cons_append, readExponent, readExponent]
      split
      · exact readSigned_append hc text rest
      · rfl

/-- A number ends in front of a terminator as at the end of the text. -/
theorem readUnsigned_append (hc : Terminator c) (text rest : List Char) :
    readUnsigned (text ++ c :: rest) =
      (readUnsigned text).map (behind (c :: rest)) := by
  rw [readUnsigned, readUnsigned, readDigits_append hc]
  cases hwhole : readDigits text with
  | none => rfl
  | some found =>
      obtain ⟨whole, left⟩ := found
      simp only [Option.map_some, behind, Option.bind_eq_bind,
        Option.bind_some]
      split
      · rfl
      rw [readFraction_append hc]
      cases hfraction : readFraction left with
      | none => rfl
      | some found =>
          obtain ⟨fraction, left⟩ := found
          simp only [Option.map_some, behind, Option.bind_some]
          rw [readExponent_append hc]
          cases hexponent : readExponent left <;> rfl

/-- A number without a sign starts with a digit. -/
theorem readUnsigned_first {text rest : List Char} {value : ℚ}
    (hread : readUnsigned text = some (value, rest)) :
    ∃ c tail, text = c :: tail ∧ c.isDigit = true := by
  unfold readUnsigned readDigits at hread
  obtain ⟨⟨whole, left⟩, hwhole, -⟩ := Option.bind_eq_some_iff.mp hread
  simp only at hwhole
  split at hwhole
  · cases hwhole
  next hne =>
    cases text with
    | nil => exact absurd rfl hne
    | cons c tail =>
        by_cases hc : c.isDigit = true
        · exact ⟨c, tail, rfl, hc⟩
        · exact absurd (List.takeWhile_cons_of_neg hc) hne

theorem readDigits_suffix {text digits rest : List Char}
    (hread : readDigits text = some (digits, rest)) : rest <:+ text := by
  unfold readDigits at hread
  simp only at hread
  split at hread
  · cases hread
  · cases hread
    exact List.dropWhile_suffix _

theorem readFraction_suffix {text digits rest : List Char}
    (hread : readFraction text = some (digits, rest)) : rest <:+ text := by
  unfold readFraction at hread
  split at hread
  · exact (readDigits_suffix hread).trans (List.suffix_cons _ _)
  · cases hread
    exact List.suffix_rfl

theorem readSigned_suffix {text rest : List Char} {power : ℤ}
    (hread : readSigned text = some (power, rest)) : rest <:+ text := by
  unfold readSigned at hread
  split at hread
  all_goals
    obtain ⟨⟨digits, left⟩, hdigits, heq⟩ := Option.map_eq_some_iff.mp hread
    obtain ⟨-, rfl⟩ := Prod.mk.inj heq
    have hsuffix := readDigits_suffix hdigits
  · exact hsuffix.trans (List.suffix_cons _ _)
  · exact hsuffix.trans (List.suffix_cons _ _)
  · exact hsuffix

theorem readExponent_suffix {text rest : List Char} {power : ℤ}
    (hread : readExponent text = some (power, rest)) : rest <:+ text := by
  unfold readExponent at hread
  split at hread
  · cases hread
    exact List.suffix_rfl
  · split at hread
    · exact (readSigned_suffix hread).trans (List.suffix_cons _ _)
    · cases hread
      exact List.suffix_rfl

/-- What a number leaves stood at the end of the text. -/
theorem readUnsigned_suffix {text rest : List Char} {value : ℚ}
    (hread : readUnsigned text = some (value, rest)) : rest <:+ text := by
  unfold readUnsigned at hread
  obtain ⟨⟨whole, afterWhole⟩, hwhole, hread⟩ := Option.bind_eq_some_iff.mp hread
  simp only at hread
  split at hread
  · cases hread
  obtain ⟨⟨fraction, afterFraction⟩, hfraction, hread⟩ :=
    Option.bind_eq_some_iff.mp hread
  obtain ⟨⟨power, afterExponent⟩, hexponent, hread⟩ :=
    Option.bind_eq_some_iff.mp hread
  cases hread
  exact (readExponent_suffix hexponent).trans
    ((readFraction_suffix hfraction).trans (readDigits_suffix hwhole))

section Structure

variable {fuel : Nat} {text rest more name : List Char} {value : Value}

theorem skipSpace_cons (hc : c ∉ [' ', '\t', '\n', '\r']) (rest : List Char) :
    skipSpace (c :: rest) = c :: rest := by
  simp only [List.mem_cons, List.not_mem_nil, or_false, not_or] at hc
  simp [skipSpace, hc]

/-- A string without escapes is read up to its closing quote. -/
theorem readValue_string (htext : ∀ c ∈ text, Plain c) :
    readValue (fuel + 1) ('"' :: (text ++ '"' :: rest)) =
      some (.string text, rest) := by
  change (readString (text ++ '"' :: rest)).map _ = _
  rw [readString_plain htext]
  rfl

theorem readItems_next (hvalue : readValue fuel text = some (value, ',' :: more)) :
    readItems (fuel + 1) text =
      (readItems fuel more).map fun (items, rest) => (value :: items, rest) := by
  rw [readItems, hvalue]
  rfl

theorem readItems_last (hvalue : readValue fuel text = some (value, ']' :: more)) :
    readItems (fuel + 1) text = some ([value], more) := by
  rw [readItems, hvalue]
  rfl

/-- The first item of a list, and the mark that stands behind it. -/
theorem readItems_eq_some {items : List Value}
    (hread : readItems (fuel + 1) text = some (items, more)) :
    ∃ value rest, readValue fuel text = some (value, rest) ∧
      items.head? = some value ∧
      ∃ tail, skipSpace rest = ',' :: tail ∨ skipSpace rest = ']' :: tail := by
  rw [readItems] at hread
  obtain ⟨⟨value, rest⟩, hvalue, hread⟩ := Option.bind_eq_some_iff.mp hread
  refine ⟨value, rest, hvalue, ?_⟩
  simp only at hread
  split at hread
  next hskip =>
    obtain ⟨⟨items', more'⟩, -, heq⟩ := Option.map_eq_some_iff.mp hread
    cases heq
    exact ⟨rfl, _, .inl hskip⟩
  next hskip =>
    cases hread
    exact ⟨rfl, _, .inr hskip⟩
  next => cases hread

theorem readMembers_next (hname : ∀ c ∈ name, Plain c)
    (hvalue : readValue fuel text = some (value, ',' :: more)) :
    readMembers (fuel + 1) ('"' :: (name ++ '"' :: ':' :: text)) =
      (readMembers fuel more).map fun (members, rest) =>
        ((name, value) :: members, rest) := by
  rw [readMembers, skipSpace_cons (by decide)]
  simp only [readString_plain hname, Option.bind_eq_bind, Option.bind_some]
  rw [skipSpace_cons (by decide)]
  simp only [hvalue, Option.bind_some]
  rfl

theorem readMembers_last (hname : ∀ c ∈ name, Plain c)
    (hvalue : readValue fuel text = some (value, '}' :: more)) :
    readMembers (fuel + 1) ('"' :: (name ++ '"' :: ':' :: text)) =
      some ([(name, value)], more) := by
  rw [readMembers, skipSpace_cons (by decide)]
  simp only [readString_plain hname, Option.bind_eq_bind, Option.bind_some]
  rw [skipSpace_cons (by decide)]
  simp only [hvalue, Option.bind_some]
  rfl

theorem readMembers_eq_some {members : List (List Char × Value)}
    (hname : ∀ c ∈ name, Plain c)
    (hread : readMembers (fuel + 1) ('"' :: (name ++ '"' :: ':' :: text)) =
      some (members, more)) :
    ∃ value rest, readValue fuel text = some (value, rest) ∧
      members.head? = some (name, value) := by
  rw [readMembers, skipSpace_cons (by decide)] at hread
  simp only [readString_plain hname, Option.bind_eq_bind, Option.bind_some]
    at hread
  rw [skipSpace_cons (by decide)] at hread
  simp only at hread
  obtain ⟨⟨value, rest⟩, hvalue, hread⟩ := Option.bind_eq_some_iff.mp hread
  refine ⟨value, rest, hvalue, ?_⟩
  simp only at hread
  split at hread
  · obtain ⟨⟨members', more'⟩, -, heq⟩ := Option.map_eq_some_iff.mp hread
    cases heq
    rfl
  · cases hread
    rfl
  · cases hread

theorem readValue_object (rest : List Char) :
    readValue (fuel + 1) ('{' :: '"' :: rest) =
      (readMembers fuel ('"' :: rest)).map fun (members, rest) =>
        (.object members, rest) :=
  rfl

theorem readValue_array {first : Char}
    (hfirst : first ∉ [' ', '\t', '\n', '\r', ']']) (rest : List Char) :
    readValue (fuel + 1) ('[' :: first :: rest) =
      (readItems fuel (first :: rest)).map fun (items, rest) =>
        (.array items, rest) := by
  have hspace : skipSpace (first :: rest) = first :: rest :=
    skipSpace_cons (fun hmem => hfirst (List.mem_append_left [']'] hmem)) rest
  have hclose : first ≠ ']' := fun h => hfirst (by simp [h])
  rw [readValue, skipSpace_cons (by decide)]
  simp only [hspace]
  split
  next heq => exact absurd (List.cons.inj heq).1 hclose
  next => rfl

/-- A digit in front makes the value a number. -/
theorem readValue_digit (hc : c.isDigit = true) (rest : List Char) :
    readValue (fuel + 1) (c :: rest) =
      (readUnsigned (c :: rest)).map fun (value, rest) =>
        (.number value, rest) := by
  have hmark : ∀ d, d.isDigit = false → c ≠ d := by
    rintro d hd rfl
    rw [hd] at hc
    cases hc
  have hspace : skipSpace (c :: rest) = c :: rest := by
    apply skipSpace_cons
    simp only [List.mem_cons, List.not_mem_nil, or_false, not_or]
    exact ⟨hmark _ rfl, hmark _ rfl, hmark _ rfl, hmark _ rfl⟩
  rw [readValue, hspace]
  split
  case h_7 =>
    rw [readNumber]
    rintro tail heq
    exact hmark '-' rfl (List.cons.inj heq).1
  all_goals
    next heq => exact absurd (List.cons.inj heq).1 (hmark _ rfl)

/-- A value that is a number was read as one. -/
theorem readUnsigned_of_readValue {number : ℚ}
    (hc : c ∉ [' ', '\t', '\n', '\r', '-'])
    (hread : readValue (fuel + 1) (c :: rest) = some (.number number, more)) :
    readUnsigned (c :: rest) = some (number, more) := by
  have hspace : skipSpace (c :: rest) = c :: rest :=
    skipSpace_cons (fun hmem => hc (List.mem_append_left ['-'] hmem)) rest
  have hminus : c ≠ '-' := fun h => hc (by simp [h])
  rw [readValue, hspace] at hread
  split at hread
  · cases hread
  · cases hread
  · cases hread
  · obtain ⟨_, -, heq⟩ := Option.map_eq_some_iff.mp hread
    cases heq
  · split at hread
    · cases hread
    · obtain ⟨_, -, heq⟩ := Option.map_eq_some_iff.mp hread
      cases heq
  · split at hread
    · cases hread
    · obtain ⟨_, -, heq⟩ := Option.map_eq_some_iff.mp hread
      cases heq
  · obtain ⟨⟨value, left⟩, hnumber, heq⟩ := Option.map_eq_some_iff.mp hread
    rw [readNumber] at hnumber
    · cases heq
      exact hnumber
    · intro tail heq
      exact hminus (List.cons.inj heq).1

end Structure

end JsonText
