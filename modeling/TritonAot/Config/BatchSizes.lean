import Mathlib.Data.Finset.Sort
import TritonAot.Config.Names
import TritonAot.Graph.State

/-! The allowlist of buckets, as `CUDA_GRAPH_BATCH_SIZES` gives it.

`ParseCsvInt64Set` walks over a string from comma to comma and keeps what
`std::stoll` makes of each token. Splitting the whole string first gives the same set
(`parseCsvInt64Set_eq`), and the decimal renderings of a set, joined by commas, give it
back (`parseCsvInt64Set_roundTrip`). -/
namespace TritonAot

/-! ### The parser -/

/-- `std::stoll`: throws where there is no digit behind the spaces and the sign, and where
the number is not a `long long`. -/
def stoll (s : List Char) : Except Fault Int :=
  let (negative, digits) := readSign (s.dropWhile isSpace)
  if (digits.takeWhile Char.isDigit).isEmpty then .error (.thrown "stoll")
  else
    let v : Int := if negative then -(readDigits 0 digits : Int) else readDigits 0 digits
    if v < int64Min ∨ int64Max < v then .error (.thrown "stoll") else .ok v

/-- `csv.find(',', start)`. -/
def findComma (csv : List Char) (start : Nat) : Option Nat :=
  ((csv.drop start).findIdx? (· = ',')).map fun offset => start + offset

/-- `csv.substr(start, comma - start)`, to the end where there is no comma. -/
def tokenAt (csv : List Char) (start : Nat) : Option Nat → List Char
  | none => csv.drop start
  | some comma => (csv.drop start).take (comma - start)

/-- `out.insert(std::stoll(tok))`; what is thrown is dropped. -/
def insertToken (tok : List Char) (out : Finset Int) : Finset Int :=
  match stoll tok with
  | .ok v => insert v out
  | .error _ => out

theorem lt_of_findComma {csv : List Char} {start comma : Nat} (h : findComma csv start = some comma) :
    start ≤ comma ∧ comma < csv.length := by
  obtain ⟨offset, hoffset, rfl⟩ := Option.map_eq_some_iff.mp h
  obtain ⟨hlt, _⟩ := List.findIdx?_eq_some_iff_getElem.mp hoffset
  rw [List.length_drop] at hlt
  omega

/-- The loop of `ParseCsvInt64Set` from `start` on; every round moves behind a comma. -/
def parseFrom (csv : List Char) (start : Nat) (out : Finset Int) : Finset Int :=
  if start < csv.length then
    match h : findComma csv start with
    | none => insertToken (tokenAt csv start none) out
    | some comma => parseFrom csv (comma + 1) (insertToken (tokenAt csv start (some comma)) out)
  else out
termination_by csv.length - start
decreasing_by
  have := lt_of_findComma h
  omega

def parseCsvInt64Set (csv : String) : Finset Int := parseFrom csv.toList 0 ∅

theorem ascending_nil : ([] : List Int).Pairwise (· < ·) := .nil

/-- The part of `ParseParameters` that sets the buckets: `string_value` of the parameter,
where the parameter is there and has one. -/
def parseBatchSizes (stringValue : Option String) : BatchSizes :=
  match stringValue with
  | none => ⟨[], ascending_nil⟩
  | some val => ⟨(parseCsvInt64Set val).sort (· ≤ ·), (Finset.sortedLT_sort _).pairwise⟩

/-! ### Splitting first -/

/-- The values of the tokens between the commas; one that `stoll` throws on has none. -/
def csvValues (csv : List Char) : Finset Int :=
  ((csv.splitOn ',').filterMap fun tok => (stoll tok).toOption).toFinset

theorem mem_csvValues {csv : List Char} {v : Int} :
    v ∈ csvValues csv ↔ ∃ tok ∈ csv.splitOn ',', stoll tok = .ok v := by
  have hvalue : ∀ tok, (stoll tok).toOption = some v ↔ stoll tok = .ok v := by
    intro tok
    cases stoll tok with
    | error f => exact ⟨fun h => (by cases h), fun h => (by cases h)⟩
    | ok w => exact ⟨fun h => congrArg Except.ok (Option.some.inj h), fun h => congrArg some (Except.ok.inj h)⟩
  rw [csvValues, List.mem_toFinset, List.mem_filterMap]
  simp only [hvalue]

theorem mem_insertToken {tok : List Char} {out : Finset Int} {v : Int} :
    v ∈ insertToken tok out ↔ v ∈ out ∨ stoll tok = .ok v := by
  unfold insertToken
  cases stoll tok with
  | error f => exact ⟨.inl, fun h => h.elim id fun h => (by cases h)⟩
  | ok w =>
    rw [Finset.mem_insert, Except.ok.injEq, or_comm, eq_comm]

/-- Where there is no comma behind `start`, the rest is one token. -/
theorem splitOn_of_findComma_none {csv : List Char} {start : Nat} (h : findComma csv start = none) :
    (csv.drop start).splitOn ',' = [tokenAt csv start none] := by
  refine List.splitOn_eq_singleton fun hmem => ?_
  have hnone := List.findIdx?_eq_none_iff.mp (Option.map_eq_none_iff.mp h) ',' hmem
  simp at hnone

/-- The first comma ends the first token. -/
theorem splitOn_of_findComma_some {csv : List Char} {start comma : Nat} (h : findComma csv start = some comma) :
    (csv.drop start).splitOn ',' =
      tokenAt csv start (some comma) :: (csv.drop (comma + 1)).splitOn ',' := by
  obtain ⟨offset, hoffset, rfl⟩ := Option.map_eq_some_iff.mp h
  obtain ⟨hlt, hcomma, hbefore⟩ := List.findIdx?_eq_some_iff_getElem.mp hoffset
  have hsplit : csv.drop start =
      (csv.drop start).take offset ++ ',' :: csv.drop (start + offset + 1) := by
    have hat : (csv.drop start)[offset] = ',' := by simpa using hcomma
    rw [Nat.add_assoc, ← List.drop_drop, ← hat, ← List.drop_eq_getElem_cons hlt, List.take_append_drop]
  have htoken : ',' ∉ (csv.drop start).take offset := by
    intro hmem
    obtain ⟨i, hi, hat⟩ := List.getElem_of_mem hmem
    rw [List.length_take] at hi
    rw [List.getElem_take] at hat
    have := hbefore i (by omega)
    simp [hat] at this
  rw [tokenAt, Nat.add_sub_cancel_left]
  conv_lhs => rw [hsplit]
  exact List.splitOn_append_cons_self_of_not_mem htoken _

/-- What the loop finds from `start` on is what is between the commas there. -/
theorem mem_parseFrom {csv : List Char} {start : Nat} {out : Finset Int} {v : Int} :
    v ∈ parseFrom csv start out ↔ v ∈ out ∨ v ∈ csvValues (csv.drop start) := by
  rw [mem_csvValues]
  induction start, out using parseFrom.induct csv with
  | case1 start out hlt hnone =>
    rw [parseFrom, if_pos hlt]
    split
    · rw [mem_insertToken, splitOn_of_findComma_none hnone]
      simp
    · simp_all
  | case2 start out hlt comma hcomma ih =>
    rw [parseFrom, if_pos hlt]
    split
    · simp_all
    · rename_i comma' hcomma'
      obtain rfl : comma = comma' := Option.some.inj (hcomma.symm.trans hcomma')
      rw [ih, mem_insertToken, splitOn_of_findComma_some hcomma, or_assoc]
      simp
  | case3 start out hge =>
    have hempty : csv.drop start = [] := List.drop_eq_nil_of_le (by omega)
    rw [parseFrom, if_neg hge, hempty, List.splitOn_nil]
    have hnothing : ∀ v, stoll [] ≠ .ok v := fun v h => (by cases h)
    simp [hnothing]

/-- The loop and the splitting find the same values. -/
theorem parseCsvInt64Set_eq (csv : String) : parseCsvInt64Set csv = csvValues csv.toList := by
  ext v
  rw [parseCsvInt64Set, mem_parseFrom, List.drop_zero]
  simp

example : parseCsvInt64Set " 16 , 20,abc,,24" = {16, 20, 24} := by
  rw [parseCsvInt64Set_eq]
  decide

/-- The buckets are what the tokens are read as. -/
theorem mem_parseBatchSizes {val : String} {bucket : Int} :
    bucket ∈ (parseBatchSizes (some val)).sizes ↔ ∃ tok ∈ val.toList.splitOn ',', stoll tok = .ok bucket := by
  rw [← mem_csvValues, ← parseCsvInt64Set_eq]
  exact Finset.mem_sort _

theorem csvValues_append (a b : List Char) : csvValues (a ++ ',' :: b) = csvValues a ∪ csvValues b := by
  ext v
  simp only [Finset.mem_union, mem_csvValues, List.splitOn_append_cons_self, List.mem_append]
  constructor
  · intro hmem
    obtain ⟨tok, ha | hb, hv⟩ := hmem
    · exact .inl ⟨tok, ha, hv⟩
    · exact .inr ⟨tok, hb, hv⟩
  · intro hmem
    rcases hmem with ⟨tok, ha, hv⟩ | ⟨tok, hb, hv⟩
    · exact ⟨tok, .inl ha, hv⟩
    · exact ⟨tok, .inr hb, hv⟩

/-! ### Rendering and reading back -/

/-- The digits of a number are read as the number, whatever follows that is no digit. -/
theorem readDigits_ofDigitChars {s : List Char} (h : s.all Char.isDigit) (v : Nat) :
    readDigits v s = Nat.ofDigitChars 10 s v := by
  induction s generalizing v with
  | nil => simp [readDigits]
  | cons c rest ih =>
    obtain ⟨hc, hrest⟩ : c.isDigit = true ∧ rest.all Char.isDigit := by simpa using h
    rw [readDigits, if_pos hc, ih hrest, Nat.ofDigitChars_cons]
    rfl

theorem toDigits_all_isDigit (n : Nat) : (Nat.toDigits 10 n).all Char.isDigit :=
  List.all_eq_true.mpr fun _ hc => Nat.isDigit_of_mem_toDigits (by decide) (by decide) hc

/-- A rendered number behind its sign is read as it is, if it is a `long long`. -/
theorem stoll_toDigits {s : List Char} (negative : Bool) (n : Nat)
    (hsign : readSign (s.dropWhile isSpace) = (negative, Nat.toDigits 10 n)) {v : Int}
    (hv : v = if negative then -(n : Int) else n) (hmin : int64Min ≤ v) (hmax : v ≤ int64Max) :
    stoll s = .ok v := by
  have hdigits := toDigits_all_isDigit n
  have htake : (Nat.toDigits 10 n).takeWhile Char.isDigit = Nat.toDigits 10 n :=
    List.takeWhile_eq_self_iff.mpr fun c hc => List.all_eq_true.mp hdigits c hc
  have hread : readDigits 0 (Nat.toDigits 10 n) = n := by
    rw [readDigits_ofDigitChars hdigits, Nat.ofDigitChars_ten_toDigits]
  simp only [stoll, hsign, htake, hread, ← hv]
  rw [if_neg (by simp [Nat.toDigits_ne_nil]), if_neg (by omega)]

theorem toList_toString_int (v : Int) :
    (toString v).toList = if 0 ≤ v then Nat.toDigits 10 v.toNat else '-' :: Nat.toDigits 10 (-v).toNat := by
  rw [Int.toString_eq_repr, Int.repr_eq_if]
  split
  · exact Nat.toList_repr
  · rw [String.toList_append, Nat.toList_repr]
    rfl

theorem stoll_toString {v : Int} (hmin : int64Min ≤ v) (hmax : v ≤ int64Max) :
    stoll (toString v).toList = .ok v := by
  rw [toList_toString_int]
  by_cases hv : 0 ≤ v
  · rw [if_pos hv]
    exact stoll_toDigits false v.toNat (readSign_digits (toDigits_all_isDigit _)) (by simp; omega) hmin hmax
  · rw [if_neg hv]
    have hminus : ('-' :: Nat.toDigits 10 (-v).toNat).dropWhile isSpace = '-' :: Nat.toDigits 10 (-v).toNat := by
      rw [List.dropWhile_cons_of_neg (by decide)]
    refine stoll_toDigits true (-v).toNat ?_ (by simp; omega) hmin hmax
    rw [hminus]
    rfl

theorem comma_not_mem_toString (v : Int) : ',' ∉ (toString v).toList := by
  have hdigits : ∀ n, ',' ∉ Nat.toDigits 10 n := by
    intro n hmem
    exact absurd (List.all_eq_true.mp (toDigits_all_isDigit n) ',' hmem) (by decide)
  rw [toList_toString_int]
  split
  · exact hdigits _
  · rw [List.mem_cons, not_or]
    exact ⟨by decide, hdigits _⟩

/-- Tokens that name the members of a set, in any order and number, among empty ones. -/
structure Renders (tokens : List String) (S : Finset Int) : Prop where
  only : ∀ tok ∈ tokens, tok = "" ∨ ∃ v ∈ S, tok = toString v
  all : ∀ v ∈ S, toString v ∈ tokens

/-- Joined by commas, they are read back as the set. -/
theorem csvValues_intercalate {tokens : List String} {S : Finset Int} (h : Renders tokens S)
    (hS : ∀ v ∈ S, int64Min ≤ v ∧ v ≤ int64Max) : csvValues (String.intercalate "," tokens).toList = S := by
  have hvalue : ∀ v, v ∈ S ↔ ∃ tok ∈ tokens, stoll tok.toList = .ok v := by
    intro v
    constructor
    · exact fun hv => ⟨toString v, h.all v hv, stoll_toString (hS v hv).1 (hS v hv).2⟩
    · intro hread
      obtain ⟨tok, htok, hv⟩ := hread
      rcases h.only tok htok with rfl | ⟨w, hw, rfl⟩
      · cases hv
      · rw [stoll_toString (hS w hw).1 (hS w hw).2] at hv
        exact Except.ok.inj hv ▸ hw
  have hcomma : ∀ l ∈ tokens.map String.toList, ',' ∉ l := by
    intro l hl
    obtain ⟨tok, htok, rfl⟩ := List.mem_map.mp hl
    rcases h.only tok htok with rfl | ⟨w, _, rfl⟩
    · simp
    · exact comma_not_mem_toString w
  ext v
  rw [mem_csvValues, hvalue, String.toList_intercalate]
  by_cases hne : tokens = []
  · subst hne
    have hnothing : ∀ v, stoll [] ≠ .ok v := fun v h => (by cases h)
    simp [hnothing]
  · have hcsv : ([','].intercalate (tokens.map String.toList)).splitOn ',' = tokens.map String.toList :=
      List.splitOn_intercalate ',' hcomma (by simpa using hne)
    rw [show (",").toList = [','] from rfl, hcsv]
    simp

/-- **`ParseCsvInt64Set` is splitting at the commas and reading each token**; a comma
joins two lists, and the rendering of a set, however ordered, repeated and interspersed
with empty tokens, is read back. -/
theorem parseCsvInt64Set_roundTrip :
    (∀ csv : String, parseCsvInt64Set csv = csvValues csv.toList) ∧
      (∀ a b : String, parseCsvInt64Set (a ++ "," ++ b) = parseCsvInt64Set a ∪ parseCsvInt64Set b) ∧
      ∀ (S : Finset Int) (tokens : List String), (∀ v ∈ S, int64Min ≤ v ∧ v ≤ int64Max) →
        Renders tokens S → parseCsvInt64Set (String.intercalate "," tokens) = S := by
  refine ⟨parseCsvInt64Set_eq, fun a b => ?_, fun S tokens hS h => ?_⟩
  · have hlist : (a ++ "," ++ b).toList = a.toList ++ ',' :: b.toList := by
      rw [String.toList_append, String.toList_append, List.append_assoc]
      rfl
    rw [parseCsvInt64Set_eq, parseCsvInt64Set_eq, parseCsvInt64Set_eq, hlist, csvValues_append]
  · rw [parseCsvInt64Set_eq]
    exact csvValues_intercalate h hS

/-- Both ends of the range, one of them twice, between empty tokens. -/
theorem parseCsvInt64Set_roundTrip_ends :
    parseCsvInt64Set (String.intercalate "," ["", "9223372036854775807", "-9223372036854775808", "",
      "9223372036854775807", ""]) = {int64Min, int64Max} := by
  refine parseCsvInt64Set_roundTrip.2.2 {int64Min, int64Max} _ (by decide) ⟨?_, ?_⟩
  · decide
  · decide

end TritonAot
