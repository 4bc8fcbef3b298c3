import EventQuery.Getter
import Mathlib.Data.List.Basic

set_option autoImplicit false

/-! Values that are written out in trees. A number in decimal notation, a truth value by its name
and a text without blanks at its ends are read back as what they are. -/

namespace EventQuery

namespace Text

theorem trim_eq_self {text : String} (solid : ∀ character ∈ text.toList, isBlank character = false) :
    trim text = text := by
  have kept (characters : List Char) (solid : ∀ character ∈ characters, isBlank character = false) :
      characters.dropWhile isBlank = characters := by
    cases characters with
    | nil => rfl
    | cons first rest =>
        rw [List.dropWhile_cons, solid first List.mem_cons_self]
        rfl
  have backwards : ∀ character ∈ text.toList.reverse, isBlank character = false := by
    intro character member
    exact solid character (List.mem_reverse.mp member)
  unfold trim
  rw [kept _ solid]
  dsimp only
  rw [kept _ backwards, List.reverse_reverse, String.ofList_toList]

theorem isBlank_of_isDigit {character : Char} (digit : character.isDigit = true) :
    isBlank character = false := by
  simp only [Char.isDigit, Bool.and_eq_true, decide_eq_true_eq, ge_iff_le] at digit
  have low : 48 ≤ character.toNat := digit.1
  have high : character.toNat ≤ 57 := digit.2
  simp only [isBlank, Bool.or_eq_false_iff, Bool.and_eq_false_iff, decide_eq_false_iff_not]
  omega

end Text

namespace Numeric

theorem readNat?_toDigits (number : Nat) : readNat? (Nat.toDigits 10 number) = some number := by
  have digits : (Nat.toDigits 10 number).all Char.isDigit = true := by
    rw [List.all_eq_true]
    intro character member
    exact Nat.isDigit_of_mem_toDigits (by decide) (by decide) member
  have value : digitsValue (Nat.toDigits 10 number) = number :=
    Nat.ofDigitChars_eq_foldl.symm.trans Nat.ofDigitChars_ten_toDigits
  simp [readNat?, Nat.toDigits_ne_nil, digits, value]

theorem takeSign_of_isDigit {first : Char} {rest : List Char} (digit : first.isDigit = true) :
    takeSign (first :: rest) = (false, first :: rest) := by
  unfold takeSign
  split
  · rename_i same
    cases same
    cases digit
  · rename_i same
    cases same
    cases digit
  · rfl

theorem toList_repr_negSucc (number : Nat) :
    (Int.negSucc number).repr.toList = '-' :: Nat.toDigits 10 (number + 1) := by
  change ("-" ++ Nat.repr (number + 1)).toList = _
  rw [String.toList_append, Nat.toList_repr]
  rfl

theorem readInt?_repr (number : Int) : readInt? number.repr.toList = some number := by
  cases number with
  | ofNat number =>
      have written : (Int.ofNat number).repr.toList = Nat.toDigits 10 number := Nat.toList_repr
      rw [written]
      unfold readInt?
      cases digits : Nat.toDigits 10 number with
      | nil => exact absurd digits Nat.toDigits_ne_nil
      | cons first rest =>
          have digit : first.isDigit = true := by
            apply Nat.isDigit_of_mem_toDigits (b := 10) (n := number) (by decide) (by decide)
            rw [digits]
            exact List.mem_cons_self
          rw [takeSign_of_isDigit digit, ← digits]
          dsimp only
          rw [readNat?_toDigits]
          rfl
  | negSucc number =>
      rw [toList_repr_negSucc]
      have sign : takeSign ('-' :: Nat.toDigits 10 (number + 1)) =
          (true, Nat.toDigits 10 (number + 1)) := rfl
      unfold readInt?
      rw [sign]
      dsimp only
      rw [readNat?_toDigits]
      rfl

theorem readInt32?_repr (number : Int32) : readInt32? number.toInt.repr = some number := by
  unfold readInt32?
  rw [readInt?_repr]
  have fits : (decide (Int32.minValue.toInt ≤ number.toInt) &&
      decide (number.toInt ≤ Int32.maxValue.toInt)) = true := by
    rw [decide_eq_true number.minValue_le_toInt, decide_eq_true number.toInt_le]
    rfl
  dsimp only
  rw [if_pos fits, Int32.ofInt_toInt]

theorem readInt64?_repr (number : Int64) : readInt64? number.toInt.repr = some number := by
  unfold readInt64?
  rw [readInt?_repr]
  have fits : (decide (Int64.minValue.toInt ≤ number.toInt) &&
      decide (number.toInt ≤ Int64.maxValue.toInt)) = true := by
    rw [decide_eq_true number.minValue_le_toInt, decide_eq_true number.toInt_le]
    rfl
  dsimp only
  rw [if_pos fits, Int64.ofInt_toInt]

theorem solid_repr (number : Int) :
    ∀ character ∈ number.repr.toList, Text.isBlank character = false := by
  have digits (natural : Nat) (character : Char) (member : character ∈ Nat.toDigits 10 natural) :
      Text.isBlank character = false :=
    Text.isBlank_of_isDigit (Nat.isDigit_of_mem_toDigits (by decide) (by decide) member)
  intro character member
  cases number with
  | ofNat number =>
      have written : (Int.ofNat number).repr.toList = Nat.toDigits 10 number := Nat.toList_repr
      rw [written] at member
      exact digits number character member
  | negSucc number =>
      rw [toList_repr_negSucc, List.mem_cons] at member
      rcases member with rfl | later
      · rfl
      · exact digits (number + 1) character later

end Numeric

namespace Value

/-- How a value is written in a tree. Of the other values it is not said. -/
def written? : Value → Option String
  | string text => some text
  | int number => some number.toInt.repr
  | long number => some number.toInt.repr
  | bool truth => some (if truth then "true" else "false")
  | _ => none

/-- A value that is written out and is of the type, and a text without blanks at its ends. -/
structure Textual (value : Value) (type : AttributeType) : Prop where
  typed : value.type? = some type
  written : value.written?.isSome
  trimmed : ∀ text ∈ value.text?, Text.trim text = text

theorem ofText_written {value : Value} {type : AttributeType} {text : String}
    (textual : value.Textual type) (written : value.written? = some text) :
    ofText text type = value := by
  cases value with
  | string other =>
      cases written
      cases textual.typed
      simp only [ofText]
      rw [textual.trimmed text rfl]
  | int number =>
      cases written
      cases textual.typed
      simp only [ofText]
      rw [Text.trim_eq_self (Numeric.solid_repr number.toInt), Numeric.readInt32?_repr]
      rfl
  | long number =>
      cases written
      cases textual.typed
      simp only [ofText]
      rw [Text.trim_eq_self (Numeric.solid_repr number.toInt), Numeric.readInt64?_repr]
      rfl
  | bool truth =>
      cases written
      cases textual.typed
      cases truth <;> rfl
  | _ => cases written

end Value

end EventQuery
