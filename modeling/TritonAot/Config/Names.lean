import Mathlib.Data.Nat.Digits.Defs
import TritonAot.Instance.Batch

/-! Names of inputs and outputs.

A name may carry the index of its tensor, `<name>__<index>`. What follows the first
`__` is read by `atoi`, which takes digits as far as they go and gives zero where
there are none; on digits alone it is the number they denote, where that fits an `int`
(`atoi_digits`). -/
namespace TritonAot

/-! ### Finding the index in a name -/

/-- `find("__")`. -/
def findDeliminator : List Char → Option Nat
  | [] => none
  | c :: rest =>
    if ['_', '_'].isPrefixOf (c :: rest) then some 0 else (findDeliminator rest).map (· + 1)

/-- `int start_pos = name.find("__")`: -1 where there is none. -/
def startPos (name : String) : Int :=
  match findDeliminator name.toList with
  | none => -1
  | some pos => pos

/-- `name.substr(pos)`, which throws where the position is behind the end. -/
def substr (name : String) (pos : Int) : Except Fault (List Char) :=
  if (name.toList.length : Int) < pos then .error (.thrown "std::out_of_range")
  else .ok (name.toList.drop pos.toNat)

/-- `name.substr(start_pos + 2)`, which a name without `__` has from its second letter on. -/
def indexStr (name : String) : List Char := name.toList.drop (startPos name + 2).toNat

/-- The check of `<name>__<index>`, which is in the source wherever it is made: there is
a `__`, and no letter behind the first one is anything but a digit. -/
def followsConvention (name : String) : Bool :=
  decide (startPos name ≠ -1) && (indexStr name).all Char.isDigit

/-- `<name>__<digits>`, with a digit. -/
def carriesIndex (name : String) : Bool := followsConvention name && !(indexStr name).isEmpty

/-! ### Reading a number -/

/-- `std::isspace`. -/
def isSpace (c : Char) : Bool := c = ' ' || (9 ≤ c.toNat && c.toNat ≤ 13)

def digitValue (c : Char) : Nat := c.toNat - 48

/-- The digits at the front of a string, read onto `v`. -/
def readDigits : Nat → List Char → Nat
  | v, [] => v
  | v, c :: rest => if c.isDigit then readDigits (10 * v + digitValue c) rest else v

/-- Whether there is a minus sign, and what follows the sign. -/
def readSign (s : List Char) : Bool × List Char :=
  if s.head? = some '-' then (true, s.tail)
  else if s.head? = some '+' then (false, s.tail)
  else (false, s)

/-- `std::strtol`, for a `long` of 64 bits. -/
def strtol (s : List Char) : Int :=
  let (negative, digits) := readSign (s.dropWhile isSpace)
  if negative then max (-9223372036854775808) (-(readDigits 0 digits : Int))
  else min 9223372036854775807 (readDigits 0 digits : Int)

/-- `std::atoi`: what is left of `strtol` in 32 bits. -/
def atoi (s : List Char) : Int := (strtol s).bmod 4294967296

/-- The index `AddInputToMap` and its like read off a name. -/
def nameIndex (name : String) : Int := atoi (indexStr name)

/-- The number a string of digits denotes. -/
def number (digits : List Char) : Nat := Nat.ofDigits 10 (digits.reverse.map digitValue)

theorem number_append_one (digits : List Char) (c : Char) :
    number (digits ++ [c]) = digitValue c + 10 * number digits := by
  simp [number, Nat.ofDigits_cons]

/-- Reading stops at the first letter that is no digit. -/
theorem readDigits_append {s : List Char} (h : s.all Char.isDigit) (v : Nat) (rest : List Char) :
    readDigits v (s ++ rest) = readDigits (readDigits v s) rest := by
  induction s generalizing v with
  | nil => rfl
  | cons c cs ih =>
    obtain ⟨hc, hcs⟩ : c.isDigit = true ∧ cs.all Char.isDigit := by simpa using h
    simp only [List.cons_append, readDigits, hc, if_true]
    exact ih hcs _

theorem readDigits_number {s : List Char} (h : s.all Char.isDigit) : readDigits 0 s = number s := by
  induction s using List.reverseRecOn with
  | nil => rfl
  | append_singleton front c ih =>
    obtain ⟨hfront, hc⟩ : front.all Char.isDigit ∧ c.isDigit = true := by simpa using h
    rw [readDigits_append hfront, ih hfront, number_append_one]
    simp only [readDigits, hc, if_true]
    exact Nat.add_comm _ _

theorem not_isSpace_of_isDigit {c : Char} (h : c.isDigit = true) : isSpace c = false := by
  have hrange : 48 ≤ c.toNat ∧ c.toNat ≤ 57 := by
    simpa [Char.isDigit, UInt32.le_iff_toNat_le] using h
  have hne : c ≠ ' ' := by
    intro he
    subst he
    exact absurd h (by decide)
  simp only [isSpace, hne, decide_false, Bool.false_or, Bool.and_eq_false_iff, decide_eq_false_iff_not]
  omega

/-- Digits have no space and no sign in front of them. -/
theorem readSign_digits {s : List Char} (h : s.all Char.isDigit) :
    readSign (s.dropWhile isSpace) = (false, s) := by
  cases s with
  | nil => rfl
  | cons c rest =>
    have hc : c.isDigit = true := by
      simp only [List.all_cons, Bool.and_eq_true] at h
      exact h.1
    have hminus : c ≠ '-' := by
      intro he
      subst he
      exact absurd hc (by decide)
    have hplus : c ≠ '+' := by
      intro he
      subst he
      exact absurd hc (by decide)
    rw [List.dropWhile_cons_of_neg (by simp [not_isSpace_of_isDigit hc])]
    simp [readSign, hminus, hplus]

theorem followsConvention_digits {name : String} (h : followsConvention name = true) :
    (indexStr name).all Char.isDigit := by
  simp only [followsConvention, Bool.and_eq_true] at h
  exact h.2

theorem carriesIndex_follows {name : String} (h : carriesIndex name = true) :
    followsConvention name = true := by
  simp only [carriesIndex, Bool.and_eq_true] at h
  exact h.1

/-- What is read is what `substr` returns, where it returns. -/
theorem substr_startPos {name : String} {s : List Char} (h : substr name (startPos name + 2) = .ok s) :
    s = indexStr name := by
  unfold substr at h
  split at h
  · cases h
  · cases h
    rfl

end TritonAot
