import Mathlib.Logic.Function.Defs

/-! Element types, and the values of tensor elements.

`libtorch_utils.cc` relates the element types of torch to the data types of the
server's API; the tables here are its three conversion functions. What an
element's value is, and what converting it to another element type makes of it,
is torch's business: `Scalars` is what the backend relies on. -/
namespace TritonAot

/-- `torch::ScalarType`: the types the backend names, and `other` for the rest. -/
inductive ScalarType where
  | bool | byte | char | short | int | long | half | float | double | other
  deriving DecidableEq, Repr

/-- `TRITONSERVER_DataType`. -/
inductive DataType where
  | invalid | bool | uint8 | uint16 | uint32 | uint64 | int8 | int16 | int32 | int64
  | fp16 | fp32 | fp64 | bytes | bf16
  deriving DecidableEq, Repr

def convertTorchTypeToDataType : ScalarType → DataType
  | .bool => .bool
  | .byte => .uint8
  | .char => .int8
  | .short => .int16
  | .int => .int32
  | .long => .int64
  | .half => .fp16
  | .float => .fp32
  | .double => .fp64
  | .other => .invalid

/-- Whether there is a torch type for the data type, and which; `kInt` where there is none. -/
def convertDataTypeToTorchType : DataType → Bool × ScalarType
  | .bool => (true, .bool)
  | .uint8 => (true, .byte)
  | .int8 => (true, .char)
  | .int16 => (true, .short)
  | .int32 => (true, .int)
  | .int64 => (true, .long)
  | .fp16 => (true, .half)
  | .fp32 => (true, .float)
  | .fp64 => (true, .double)
  | .invalid | .uint16 | .uint32 | .uint64 | .bytes | .bf16 => (false, .int)

/-- Where the two conversions are defined they are inverse to each other. -/
theorem convert_supported {d : DataType} {s : ScalarType}
    (h : convertDataTypeToTorchType d = (true, s)) : convertTorchTypeToDataType s = d := by
  cases d <;> cases h <;> rfl

def int64Min : Int := -9223372036854775808

def int64Max : Int := 9223372036854775807

/-- A result of `int64_t` arithmetic, as it wraps around. -/
def wrapInt64 (n : Int) : Int := n.bmod 18446744073709551616

theorem wrapInt64_of_le {n : Int} (h : int64Min ≤ n) (h' : n ≤ int64Max) : wrapInt64 n = n := by
  unfold int64Min at h
  unfold int64Max at h'
  exact Int.bmod_eq_of_le_mul_two (by omega) (by omega)

theorem wrapInt64_le (n : Int) : wrapInt64 n ≤ int64Max := by
  have hlt := Int.bmod_lt (x := n) (show 0 < 18446744073709551616 by decide)
  unfold wrapInt64 int64Max
  omega

/-- Values of tensor elements. Every integer is a value; `cast d` is the value an
element of type `d` holds after a conversion from the given one. -/
class Scalars (E : Type) where
  ofInt : Int → E
  cast : ScalarType → E → E
  ofInt_injective : Function.Injective ofInt
  /-- Every type holds zero. -/
  cast_zero : ∀ d, cast d (ofInt 0) = ofInt 0
  /-- A converted value is one that the type holds. -/
  cast_cast : ∀ d x, cast d (cast d x) = cast d x

/-- Zero, as an element. -/
abbrev Scalars.zero {E : Type} [Scalars E] : E := Scalars.ofInt 0

/-- Integers as element values. The integer types wrap around; a floating type
keeps the integers its mantissa holds and drops the last bit of larger ones. -/
def intCast : ScalarType → Int → Int
  | .bool, n => if n = 0 then 0 else 1
  | .byte, n => n % 256
  | .char, n => n.bmod 256
  | .short, n => n.bmod 65536
  | .int, n => n.bmod 4294967296
  | .long, n => n.bmod 18446744073709551616
  | .half, n => dropped 2048 n
  | .float, n => dropped 16777216 n
  | .double, n => dropped 9007199254740992 n
  | .other, n => n
where
  dropped (exact : Nat) (n : Int) : Int := if n.natAbs ≤ exact then n else 2 * (n / 2)

theorem dropped_dropped (exact : Nat) (n : Int) :
    intCast.dropped exact (intCast.dropped exact n) = intCast.dropped exact n := by
  unfold intCast.dropped
  split
  · rfl
  · split
    · rfl
    · omega

/-- Every type holds one. -/
theorem intCast_one (d : ScalarType) : intCast d 1 = 1 := by cases d <;> rfl

instance : Scalars Int where
  ofInt := id
  cast := intCast
  ofInt_injective := fun _ _ h => h
  cast_zero := fun d => by cases d <;> rfl
  cast_cast := fun d n => by
    cases d with
    | bool =>
      simp only [intCast]
      split <;> simp
    | byte => exact Int.emod_emod_of_dvd n (Int.dvd_refl 256)
    | char | short | int | long => exact Int.bmod_bmod
    | half | float | double => exact dropped_dropped _ n
    | other => rfl

end TritonAot
